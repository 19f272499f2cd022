import LessonCalc.Http.Message
import LessonCalc.Tool.Entry

/-!
# Questions

What the bodies of requests ask.  Unknown fields are ignored.  A value that was entered is a text, a
number or null; the faults of anything else are told for a text and for a number.
-/

namespace LessonCalc.Http

/-- The value of a formula for values of its names. -/
structure Evaluation where
  formula : String
  numbers : List (String × Float)
  deriving Repr

/-- The outputs of a tool for what was entered. -/
structure Computation where
  tool : Tool
  entered : Tool.Entered
  deriving Repr

/-- The issues of a tool. -/
structure Inspection where
  tool : Tool
  strict : Option Bool
  deriving Repr

/-- Whether a formula is in order. -/
structure Validation where
  text : String
  available : Option (List String)
  deriving Repr, DecidableEq

/-! ## Parts -/

/-- The fields of a question. -/
def fieldsOf : Document → Checked (List (Document × Document)) :=
  Document.asEntries .modelAttributesType

/-- The value that was entered. -/
def asEntry : Document → Checked Json
  | .null => .ok .null
  | d =>
    ((d.asText.thenMap fun s : String => Json.string s).within (.key "str")).either
      ((d.asFloat.thenMap Json.float).within (.key "float"))

/-- Each entry of a mapping by its name, checked. -/
def asNamed {α : Type} (check : Document → Checked α) :
    List (Document × Document) → Checked (List (String × α))
  | [] => .ok []
  | (key, d) :: rest =>
    let name := match key with
      | .text s => s
      | _ => ""
    let entry := ((key.asText.within (.key "[key]")).both (check d)).within (.key name)
    (entry.both (asNamed check rest)).thenMap
      fun ((name, a), as) => (name, a) :: as

/-- A mapping of names. -/
def asNames {α : Type} (check : Document → Checked α) : Document → Checked (List (String × α))
  | .map entries => asNamed check entries
  | _ => .fault .dictType

/-- A list of texts, or null. -/
def asOptionalTexts : Document → Checked (Option (List String))
  | .null => .ok none
  | d => (d.asList Document.asText).thenMap some

/-- The tool of a question. -/
def asTool : Document → Checked Tool :=
  Tool.ofDocument .modelAttributesType

/-! ## Questions -/

/-- Reads the question for the value of a formula. -/
def Evaluation.ofDocument (d : Document) : Checked Evaluation := do
  let fields ← fieldsOf d
  ((Document.required fields "formula" Document.asText).both
    (Document.withDefault fields "variables" [] (asNames Document.asFloat))).thenMap
    fun (formula, numbers) => { formula, numbers }

/-- The values that were entered, by the field `values`. -/
def enteredOf (fields : List (Document × Document)) : Checked Tool.Entered :=
  Document.withDefault fields "values" [] (asNames asEntry)

/-- Reads the question for the outputs of a given tool. -/
def Computation.ofDocument (d : Document) : Checked Computation := do
  let fields ← fieldsOf d
  ((Document.required fields "config" asTool).both (enteredOf fields)).thenMap
    fun (tool, entered) => { tool, entered }

/-- Reads the values for a tool of the project. -/
def readEntered (d : Document) : Checked Tool.Entered := do
  enteredOf (← fieldsOf d)

/-- Reads the question for the issues of a tool. -/
def Inspection.ofDocument (d : Document) : Checked Inspection := do
  let fields ← fieldsOf d
  ((Document.required fields "config" asTool).both
    (Document.withDefault fields "strict" none Document.asOptionalBool)).thenMap
    fun (tool, strict) => { tool, strict }

/-- Reads the question for a formula. -/
def Validation.ofDocument (d : Document) : Checked Validation := do
  let fields ← fieldsOf d
  ((Document.required fields "text" Document.asText).both
    (Document.withDefault fields "available" none asOptionalTexts)).thenMap
    fun (text, available) => { text, available }

end LessonCalc.Http
