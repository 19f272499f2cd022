import LessonCalc.Project.Session
import LessonCalc.Tool.Lint

/-!
# Linting a project

Every tool of a project is checked, and the outcome for each is recorded in the log of the project.
A tool whose file is refused counts as a tool with one error.
-/

namespace LessonCalc

namespace Project

/-- The issues of the tool in a file. -/
def issuesOf (t : FileTree) (path : Path) (strict : Bool) :
    Except ProjectError (List Lint.Issue) :=
  match Tool.load t path with
  | .ok tool => .ok (Lint.check tool strict)
  | .error e =>
    if e.isConfig then .ok [⟨.error, .invalidConfig e.message⟩] else .error e

/-- Records the outcome of a check. -/
def recordOutcome (name : String) (issues : List Lint.Issue) (s : Session) : Session :=
  let errors := Lint.errorCount issues
  let context : List (RawText × Json) := [("tool", .string name), ("errors", .int errors),
    ("warnings", .int (Lint.warningCount issues))]
  match Lint.status issues with
  | .fail =>
    s.recordWarning .lintFailed s!"Lint failed for {name}: {errors} error(s)" context
      (some "lint_errors") none
  | _ => s.recordInfo .lintPassed s!"Lint passed for {name}" context none

/-- Checks tools one after the other. -/
def lintTools (strict : Bool) : List (String × Path) → Work (List (String × List Lint.Issue))
  | [] => return []
  | (name, path) :: rest => do
    let issues ← Work.look fun t => issuesOf t path strict
    Work.update (recordOutcome name issues)
    return (name, issues) :: (← lintTools strict rest)

/-- Checks all tools of a project, by its setting `lint_strict` unless told how. -/
def lint (project : Path) (strict : Option Bool) : Work (List (String × List Lint.Issue)) := do
  Session.attachLog project
  let strict ← match strict with
    | some strict => pure strict
    | none => Work.look fun t => return (← Settings.load t project).flag "lint_strict"
  lintTools strict (← Work.look fun t => .ok (tools t project))

end Project

end LessonCalc
