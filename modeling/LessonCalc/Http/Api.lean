import LessonCalc.Http.Question
import LessonCalc.Program
import LessonCalc.Project.Service

/-!
# The API

The paths that a service answers under `/api`.  A body is checked before the project is looked at,
so that a faulty body is told even for a tool that is not there.  An error that no response is meant
for stops the work.
-/

namespace LessonCalc.Http

open LessonCalc.Text

/-! ## Routes -/

/-- What a path leads to. -/
inductive Route where
  | health
  | evaluate
  | compute
  | lint
  | validate
  | tools
  | tool (name : String)
  | toolCompute (name : String)
  deriving Repr, DecidableEq

/-- The route of the parts of a path. -/
def Route.ofSegments? : List String → Option Route
  | ["api", "health"] => some health
  | ["api", "evaluate"] => some evaluate
  | ["api", "compute"] => some compute
  | ["api", "lint"] => some lint
  | ["api", "validate-formula"] => some validate
  | ["api", "tools"] => some tools
  | ["api", "tools", name] => if name.isEmpty then none else some (tool name)
  | ["api", "tools", name, "compute"] => if name.isEmpty then none else some (toolCompute name)
  | _ => none

/-- The parts of a path without the empty ones at its end. -/
def dropSlashes (parts : List String) : List String :=
  (parts.reverse.dropWhile (·.isEmpty)).reverse

/-- The route of a path; slashes at its end do not matter. -/
def Route.ofPath? (path : List Char) : Option Route :=
  let parts := segments path
  (ofSegments? parts).or (ofSegments? (dropSlashes parts))

/-- The method of a route. -/
def Route.method : Route → String
  | health | tools | tool _ => "GET"
  | evaluate | compute | lint | validate | toolCompute _ => "POST"

/-! ## Answers -/

/-- Answers the question in a body. -/
def answering {α : Type} (check : Document → Checked α) (body : String)
    (respond : α → Work Response) : Work Response :=
  match readBody body with
  | .error response => return response
  | .ok d =>
    match check d with
    | .ok question => respond question
    | .error faults =>
      match answerFault? d faults with
      | some fault => throw (.answer fault)
      | none => return .faulty faults

/-- The refusal that an error of the project is answered by, if it is. -/
def refusal? (e : ProjectError) : Option Response :=
  match e with
  | .noProject => some (.refusal 404 e.message)
  | .file error => if error.fault = .notFound then some (.refusal 404 e.message) else none
  | _ => if e.isConfig then some (.refusal 422 e.message) else none

/-- The refusal that an error on the way to a tool is answered by, if it is.  Whatever is looked up
in vain on that way is told as the tool. -/
def toolRefusal? (name : String) (e : ProjectError) : Option Response :=
  if e.isLookup then some (.refusal 404 s!"Tool {quote name} not found") else refusal? e

/-- Answers an error by its refusal. -/
def refusing (refusal : ProjectError → Option Response) (work : Work Response) : Work Response :=
  tryCatch work fun e =>
    match refusal e with
    | some response => return response
    | none => throw e

/-- A result as a good answer. -/
def goodAnswer (f : FileTree → Except ProjectError Json) : Work Response :=
  return .good (← Work.look f)

/-- The value of a formula. -/
def evaluation (room : Room) (question : Evaluation) : Json :=
  let numbers := question.numbers.map fun (name, x) => (name, Json.float x)
  .object [("value", .float (Formula.evaluate room.formula question.formula numbers))]

/-- The response of a route. -/
def respondTo (service : Service) (body : String) : Route → Work Response
  | .health =>
    return .good (.object [("ok", .bool true), ("version", .string version)])
  | .evaluate =>
    answering Evaluation.ofDocument body fun question =>
      return .good (evaluation (← Work.host).render question)
  | .compute =>
    answering Computation.ofDocument body fun question => do
      let host ← Work.host
      goodAnswer fun _ => Service.compute host.render question.tool question.entered
  | .lint =>
    answering Inspection.ofDocument body fun question =>
      refusing refusal? (goodAnswer fun t => service.lint t question.tool question.strict)
  | .validate =>
    answering Validation.ofDocument body fun question =>
      return .good (Service.validate question.text question.available)
  | .tools => refusing refusal? (goodAnswer service.tools)
  | .tool name => refusing (toolRefusal? name) do
    return .good (← service.tool name).toAdornedJson
  | .toolCompute name =>
    answering readEntered body fun entered => refusing (toolRefusal? name) do
      let tool ← service.tool name
      let host ← Work.host
      goodAnswer fun _ => Service.compute host.render tool entered

/-- The response to a request. -/
def respond (service : Service) (request : Request) : Work Response :=
  match Route.ofPath? (pathOf request.target) with
  | none => return .notFound
  | some route =>
    if request.method.toUpper = route.method then respondTo service request.body route
    else return .wrongMethod

/-- Opens the service of a project, whose log the events go to; or a service without a project. -/
def start (project : Option Path) : Work Service := do
  match project with
  | some folder => Session.attachLog folder
  | none => pure ()
  return ⟨project⟩

end LessonCalc.Http
