import LessonCalc.Formula.Parse
import LessonCalc.Project.Session
import LessonCalc.Tool.Compute
import LessonCalc.Tool.Lint

/-!
# The service

What a lesson asks for when it shows a tool: the values of its outputs, a check of its formulas, and
the tools of a project.  A service may have no project; then it works on the tools that it is given.
Files are read anew for every question.
-/

namespace LessonCalc

/-- A service, with the folder of its project if it has one. -/
structure Service where
  project? : Option Path
  deriving Repr, DecidableEq

namespace Service

/-! ## Given tools -/

/-- A computed output as it is answered. -/
def computedJson (c : Tool.Computed) : Json :=
  .object [("id", .string c.output.id), ("label", .string c.output.label),
    ("value", .float c.value), ("formatted", .string c.formatted),
    ("format", .string c.output.format.name), ("highlight", .bool c.output.highlight),
    ("negative", .bool c.negative)]

/-- The outputs of a tool for what was entered. -/
def compute (room : Room) (tool : Tool) (entered : Tool.Entered) : Except ProjectError Json :=
  match tool.compute room entered, tool.hasInput room entered with
  | .ok computed, .ok shown =>
    .ok (.object [("has_input", .bool shown), ("outputs", .array (computed.map computedJson))])
  | .error e, _ => .error (.entry e)
  | _, .error e => .error (.entry e)

/-- Whether names are checked strictly if a question does not tell. -/
def isStrict (service : Service) (t : FileTree) : Except ProjectError Bool :=
  match service.project? with
  | none => .ok false
  | some project => return (← Settings.load t project).flag "lint_strict"

/-- The report on a tool. -/
def lint (service : Service) (t : FileTree) (tool : Tool) (strict : Option Bool) :
    Except ProjectError Json := do
  let strict ← match strict with
    | some strict => pure strict
    | none => service.isStrict t
  let issues := Lint.check tool strict
  let passed : RawText × Json := ("ok", .bool (Lint.status issues != .fail))
  return .object (Lint.reportFields issues ++ [passed])

/-- Whether a formula is in order, and what it refers to or why it is not. -/
def validate (formula : String) (available : Option (List String)) : Json :=
  match Formula.check formula available with
  | .ok names =>
    .object [("valid", .bool true), ("refs", .array (names.map fun name : String => .string name))]
  | .error e =>
    let detail : RawText × Json := match e with
      | .syntaxError error =>
        ("position", match error.position with | some n => .int n | none => .null)
      | .unknownName name _ => ("ref_name", .string name)
    .object [("valid", .bool false), ("message", .string e.message), detail]

/-! ## The tools of the project -/

/-- The project, which has to be there. -/
def project (service : Service) : Except ProjectError Path :=
  match service.project? with
  | some project => .ok project
  | none => .error .noProject

/-- What is told of a tool in the list of all. -/
def listed (t : FileTree) (name : String) (path : Path) : Except ProjectError Json :=
  let listing (more : List (RawText × Json)) : Json :=
    .object (("name", .string name) :: ("file", .string path.name) :: more)
  match Tool.load t path with
  | .ok tool =>
    .ok (listing [("title", .string tool.title), ("tool_type", .string tool.kind),
      ("valid", .bool true)])
  | .error e =>
    if e.isConfig then .ok (listing [("valid", .bool false), ("error", .string e.message)])
    else .error e

/-- The list of all tools of the project. -/
def tools (service : Service) (t : FileTree) : Except ProjectError Json := do
  let project ← service.project
  let listing ← (Project.tools t project).mapM fun (name, path) => listed t name path
  return .array listing

/-- The tool of a name.  That it was loaded, or why it was not, is recorded. -/
def tool (service : Service) (name : String) : Work Tool := do
  let project ← Work.look fun _ => service.project
  let t := (← get).tree
  match Project.findTool t project name with
  | .error _ => throw (.noSuchTool name)
  | .ok path =>
    match Tool.load t path with
    | .ok tool =>
      Work.update (·.recordInfo .toolLoaded s!"Loaded tool {name}"
        [("tool", .string name), ("file", .string path.name)] none)
      return tool
    | .error e =>
      if e.isConfig then
        Work.update (·.recordWarning .toolLoadFailed s!"Failed to load tool {name}"
          [("tool", .string name), ("error", .string e.message)] (some "invalid_config") none)
      throw e

end Service

end LessonCalc
