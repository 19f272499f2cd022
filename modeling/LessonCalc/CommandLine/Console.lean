import LessonCalc.Project.Session

/-!
# The console

What a command writes while it works: lines for its reader, and apart from them what goes wrong.  A
command ends by itself, or with a status, or is stopped by an error that it has no words for; what
it has written until then stays.
-/

namespace LessonCalc.CommandLine

/-- The state that a command works on: the session, and the text of both outputs so far. -/
structure Console where
  session : Session
  out : String := ""
  err : String := ""
  deriving Repr, DecidableEq

/-- Why a command ends before its last step. -/
inductive Halt where
  | exit (status : Nat)
  | error (error : ProjectError)
  deriving Repr, DecidableEq

/-- The work of a command. -/
abbrev Command := ExceptT Halt (StateM Console)

namespace Command

/-- Writes a text for the reader. -/
def write (text : String) : Command Unit :=
  modify fun c => { c with out := c.out ++ text }

/-- Writes a line for the reader. -/
def writeLine (line : String) : Command Unit :=
  write (line ++ "\n")

/-- Writes lines for the reader. -/
def writeLines (lines : List String) : Command Unit :=
  lines.forM writeLine

/-- Ends with a status. -/
def exit {α : Type} (status : Nat) : Command α :=
  throw (.exit status)

/-- Tells what goes wrong, and ends with a status. -/
def complain {α : Type} (status : Nat) (text : String) : Command α := do
  modify fun c => { c with err := c.err ++ text }
  exit status

/-- Ends with a message on what goes wrong. -/
def fail {α : Type} (message : String) : Command α :=
  complain 1 s!"Error: {message}\n"

/-- The text of a warning that a session shows since another one. -/
def newWarning (before after : Session) : String :=
  match before.warning?, after.warning? with
  | none, some text => s!"[calcblocks] {text}\n"
  | _, _ => ""

/-- Works on the projects of the session.  An error for which `told` holds ends the command with its
message. -/
def working {α : Type} (told : ProjectError → Bool) (work : Work α) : Command α := fun c =>
  let (result, session) := work c.session
  let c := { c with session, err := c.err ++ newWarning c.session session }
  match result with
  | .ok a => (.ok a, c)
  | .error e =>
    if told e then fail e.message c else (.error (.error e), c)

end Command

/-- How a command ended and what it wrote. -/
structure Outcome where
  status : Nat
  out : String
  err : String
  error? : Option ProjectError := none
  deriving Repr, DecidableEq

/-- Runs a command on a session. -/
def Command.run (command : Command Unit) (s : Session) : Outcome × Session :=
  let (result, c) := command { session := s }
  let outcome : Outcome := match result with
    | .ok () => { status := 0, out := c.out, err := c.err }
    | .error (.exit status) => { status, out := c.out, err := c.err }
    | .error (.error e) => { status := 1, out := c.out, err := c.err, error? := some e }
  (outcome, c.session)

end LessonCalc.CommandLine
