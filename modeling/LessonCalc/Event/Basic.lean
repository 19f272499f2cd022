import LessonCalc.Document.Checked
import LessonCalc.Event.Redaction
import LessonCalc.Json.Writer

/-!
# Events

What happens to the tools of a project is recorded in events.  An event is written as one line of
JSON with sorted keys, so that the line depends on the content of the event only.
-/

namespace LessonCalc

namespace Event

/-! ## Levels and kinds -/

/-- How grave an event is. -/
inductive Level where
  | info
  | warning
  | error
  deriving Repr, DecidableEq, Inhabited

/-- The name of a level. -/
def Level.name : Level → String
  | info => "info"
  | warning => "warning"
  | error => "error"

/-- All levels. -/
def Level.all : List Level := [.info, .warning, .error]

/-- The level of a name. -/
def Level.ofName? (name : String) : Option Level :=
  Level.all.find? (·.name == name)

/-- What an event records. -/
inductive Kind where
  | lintPassed
  | lintFailed
  | toolLoaded
  | toolLoadFailed
  | batchStarted
  | batchCompleted
  | batchFailed
  | serverStarted
  deriving Repr, DecidableEq, Inhabited

/-- The name of a kind. -/
def Kind.name : Kind → String
  | lintPassed => "lint_passed"
  | lintFailed => "lint_failed"
  | toolLoaded => "tool_loaded"
  | toolLoadFailed => "tool_load_failed"
  | batchStarted => "batch_started"
  | batchCompleted => "batch_completed"
  | batchFailed => "batch_failed"
  | serverStarted => "server_started"

/-- All kinds. -/
def Kind.all : List Kind :=
  [.lintPassed, .lintFailed, .toolLoaded, .toolLoadFailed, .batchStarted, .batchCompleted,
    .batchFailed, .serverStarted]

/-- The kind of a name. -/
def Kind.ofName? (name : String) : Option Kind :=
  Kind.all.find? (·.name == name)

end Event

/-! ## Events -/

/-- A record of something that happened.  Its time is given as text. -/
structure Event where
  schemaVersion : Int := 1
  time : String
  level : Event.Level
  kind : Event.Kind
  context : List (RawText × Json) := []
  message : String := ""
  errorCode : Option String := none
  deriving Repr, Inhabited

namespace Event

/-- All fields of an event but its time. -/
def timelessFields (e : Event) : List (RawText × Json) :=
  [("schema_version", .int e.schemaVersion), ("level", .string e.level.name),
   ("event_type", .string e.kind.name), ("context", .object e.context),
   ("message", .string e.message), ("error_code", .ofOption e.errorCode)]

/-- An event as JSON. -/
def toJson (e : Event) : Json :=
  .object (("ts", .string e.time) :: e.timelessFields)

/-- The JSON of an event as it is logged: keys are sorted, and a number that is not finite is
null. -/
def logged (e : Event) : Json :=
  Json.sorted (Json.finiteOnly e.toJson)

/-- How many values of a context may be nested in one another. -/
def nestingLimit : Nat := 255

/-- Why an event has no line. -/
inductive LineFault where
  | nestedTooDeeply
  | integerTooLong
  deriving Repr, DecidableEq

/-- The wording of the fault. -/
def LineFault.message : LineFault → String
  | nestedTooDeeply => "Maximum serialization depth exceeded"
  | integerTooLong => Number.tooLongMessage

/-- The line of an event in a log, unless its context is nested too deeply or some integer in it is
too long to be written. -/
def line (e : Event) : Except LineFault String :=
  if nestingLimit < Json.entriesLevels e.context then .error .nestedTooDeeply
  else if Json.hasOversized e.logged then .error .integerTooLong
  else .ok e.logged.line

/-- An event without secrets and long strings in its context. -/
def redacted (e : Event) : Event :=
  { e with context := redact e.context }

/-! ## From JSON -/

/-- A value that has to be one of a list of names. -/
def oneOf {α : Type} (ofName? : String → Option α) : Document → Checked α
  | .text (.whole name) =>
    match ofName? name with
    | some a => .ok a
    | none => .fault .enumError
  | _ => .fault .enumError

/-- The context of an event, which has to be an object. -/
def contextOf (fields : List (RawText × Json)) : Checked (List (RawText × Json)) :=
  match fields.lookup (.whole "context") with
  | none => .ok []
  | some (.object entries) => .ok entries
  | some _ => (Checked.fault .dictType).within (.key "context")

/-- An event with the given fields, at the given time unless it tells its own. -/
def ofFields (now : String) (fields : List (RawText × Json)) : Checked Event :=
  let es := Document.ofFields fields
  (((((((Document.withDefault es "schema_version" 1 Document.asInt).both
    (Document.withDefault es "ts" now Document.asText)).both
    (Document.required es "level" (oneOf Level.ofName?))).both
    (Document.required es "event_type" (oneOf Kind.ofName?))).both
    (contextOf fields)).both
    (Document.withDefault es "message" "" Document.asText)).both
    (Document.withDefault es "error_code" none Document.asOptionalText)).thenMap
    fun ((((((schemaVersion, time), level), kind), context), message), errorCode) =>
      { schemaVersion, time, level, kind, context, message, errorCode }

/-! ## Events of a batch -/

/-- The context of an event of a batch: the id of the batch, the tool if it has a name, and further
entries, which replace those of the same key. -/
def batchContext (batch : String) (tool : Option String) (more : List (RawText × Json)) :
    List (RawText × Json) :=
  let attribution := match tool with
    | some name => [("batch_id", .string batch), ("tool", .string name)]
    | none => [("batch_id", .string batch)]
  Entries.insertAll attribution more

end Event

end LessonCalc
