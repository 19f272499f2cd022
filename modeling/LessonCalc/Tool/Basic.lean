import LessonCalc.Document.Checked
import LessonCalc.Tool.Display

/-!
# Tools

A tool is a small calculator attached to a lesson: numeric inputs and an ordered list of outputs,
each computed by a formula.  A tool is described by a document, which is checked here.
-/

namespace LessonCalc

/-- A field that takes a number. -/
structure Tool.Input where
  id : String
  label : String := ""
  type : ValueFormat := .number
  placeholder : Option String := none
  default : Option Float := none
  deriving Repr, Inhabited

/-- A computed value. -/
structure Tool.Output where
  id : String
  label : String := ""
  formula : String
  format : ValueFormat := .number
  highlight : Bool := false
  deriving Repr, Inhabited

/-- A calculator. -/
structure Tool where
  kind : String := "calculator"
  title : String := ""
  description : String := ""
  inputs : List Tool.Input := []
  outputs : List Tool.Output := []
  deriving Repr, Inhabited

/-! ## From documents -/

/-- The name of a format. -/
def Document.asFormat : Document → Checked ValueFormat
  | .text (.whole name) =>
    match ValueFormat.ofName? name with
    | some f => .ok f
    | none => .fault .literalError
  | _ => .fault .literalError

namespace Tool

/-- An input of a tool; `otherwise` is the fault of a document that is no mapping. -/
def Input.ofDocument (otherwise : FaultKind) (d : Document) : Checked Input :=
  match d.asEntries otherwise with
  | .error fs => .error fs
  | .ok es =>
    (((((Document.required es "id" Document.asText).both
      (Document.withDefault es "label" "" Document.asText)).both
      (Document.withDefault es "type" .number Document.asFormat)).both
      (Document.withDefault es "placeholder" none Document.asOptionalText)).both
      (Document.withDefault es "default" none Document.asOptionalFloat)).thenMap
      fun ((((id, label), type), placeholder), default) =>
        { id, label, type, placeholder, default }

/-- An output of a tool; `otherwise` is the fault of a document that is no mapping. -/
def Output.ofDocument (otherwise : FaultKind) (d : Document) : Checked Output :=
  match d.asEntries otherwise with
  | .error fs => .error fs
  | .ok es =>
    (((((Document.required es "id" Document.asText).both
      (Document.withDefault es "label" "" Document.asText)).both
      (Document.required es "formula" Document.asText)).both
      (Document.withDefault es "format" .number Document.asFormat)).both
      (Document.withDefault es "highlight" false Document.asBool)).thenMap
      fun ((((id, label), formula), format), highlight) =>
        { id, label, formula, format, highlight }

/-- A tool; `otherwise` is the fault of a document that is no mapping, here and in its parts. -/
def ofDocument (otherwise : FaultKind) (d : Document) : Checked Tool :=
  match d.asEntries otherwise with
  | .error fs => .error fs
  | .ok es =>
    (((((Document.withDefault es "tool_type" "calculator" Document.asText).both
      (Document.withDefault es "title" "" Document.asText)).both
      (Document.withDefault es "description" "" Document.asText)).both
      (Document.withDefault es "inputs" []
        (Document.asList (Input.ofDocument otherwise)))).both
      (Document.withDefault es "outputs" []
        (Document.asList (Output.ofDocument otherwise)))).thenMap
      fun ((((kind, title), description), inputs), outputs) =>
        { kind, title, description, inputs, outputs }

/-- A tool given as JSON. -/
def ofJson (v : Json) : Checked Tool :=
  ofDocument .modelType (.ofJson v)

/-! ## To JSON -/

/-- A number, or null if there is none. -/
def optionalFloat : Option Float → Json
  | some x => .float x
  | none => .null

/-- All fields of an input. -/
def Input.fields (i : Input) : List (RawText × Json) :=
  [("id", .string i.id), ("label", .string i.label), ("type", .string i.type.name),
   ("placeholder", .ofOption i.placeholder), ("default", optionalFloat i.default)]

/-- All fields of an output. -/
def Output.fields (o : Output) : List (RawText × Json) :=
  [("id", .string o.id), ("label", .string o.label), ("formula", .string o.formula),
   ("format", .string o.format.name), ("highlight", .bool o.highlight)]

/-- A tool as JSON, where `inputFields` gives what is told of an input. -/
def toJsonWith (inputFields : Input → List (RawText × Json)) (t : Tool) : Json :=
  .object [("tool_type", .string t.kind), ("title", .string t.title),
    ("description", .string t.description),
    ("inputs", .array (t.inputs.map fun i => .object (inputFields i))),
    ("outputs", .array (t.outputs.map fun o => .object o.fields))]

/-- All fields of a tool. -/
def toJson (t : Tool) : Json :=
  t.toJsonWith Input.fields

/-- All fields of a tool, and what stands before and after the field of each input. -/
def toAdornedJson (t : Tool) : Json :=
  t.toJsonWith fun i =>
    let adornments : List (RawText × Json) :=
      [("prefix", .ofOption i.type.lead?), ("suffix", .ofOption i.type.trail?)]
    i.fields ++ adornments

end Tool

end LessonCalc
