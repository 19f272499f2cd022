import LessonCalc.Data.Host
import LessonCalc.Event.Basic
import LessonCalc.Project.Tools

/-!
# Sessions

A session is the state that the work on projects goes through: the files, the log that events go to,
if there is one, and how many batches have got an id.  The time and the machine are inputs of a
session: the one is never read inside it, and nothing changes the other.

Recording an event never fails.  What goes wrong there is told by a warning, of which a session
shows the first only.
-/

namespace LessonCalc

/-- The state of the work on projects. -/
structure Session where
  tree : FileTree
  time : String
  batchStem : String
  host : Host := {}
  batches : Nat := 0
  log? : Option Log := none
  warning? : Option String := none
  deriving Repr, DecidableEq

/-- Work on projects: it changes the session, and gives a value or stops with an error. -/
abbrev Work := ExceptT ProjectError (StateM Session)

namespace Session

/-! ## Warnings and files -/

/-- Shows a warning, unless one has been shown. -/
def warn (text : String) (s : Session) : Session :=
  { s with warning? := s.warning?.or (some text) }

/-- The result of a change of the files, and the session after it. -/
def withTree {ε α : Type} (change : FileTree → Except ε α × FileTree) (s : Session) :
    Except ε α × Session :=
  let (result, tree) := change s.tree
  (result, { s with tree })

/-! ## The log -/

/-- Records an event without its secrets. -/
def record (e : Event) (batch : Option String) (s : Session) : Session :=
  match s.log? with
  | none => s
  | some log =>
    match s.withTree (log.write · e.redacted batch) with
    | (.ok (), s) => s
    | (.error _, s) => s.warn "logging failed"

/-- An event at the time of the session. -/
def event (s : Session) (level : Event.Level) (kind : Event.Kind) (message : String)
    (context : List (RawText × Json)) (errorCode : Option String) : Event :=
  { time := s.time, level, kind, message, context, errorCode }

/-- Records what went well. -/
def recordInfo (kind : Event.Kind) (message : String) (context : List (RawText × Json))
    (batch : Option String) (s : Session) : Session :=
  s.record (s.event .info kind message context none) batch

/-- Records what an author should know. -/
def recordWarning (kind : Event.Kind) (message : String) (context : List (RawText × Json))
    (errorCode batch : Option String) (s : Session) : Session :=
  s.record (s.event .warning kind message context errorCode) batch

/-- How much of a log is read, by the settings of a project. -/
def logWindow (t : FileTree) (project : Path) : Except ProjectError Int := do
  let settings ← Settings.load t project
  match settings.value "logging_tail_bytes" with
  | .null => return Log.defaultWindow
  | d => d.toWhole.mapError .setting

/-- Opens the log of a project, whose folders are made. -/
def openLog (project : Path) (window : Int) (s : Session) : Except FileError Log × Session :=
  let log := Log.ofProject project window
  match s.withTree log.ensureFolders with
  | (.ok (), s) => (.ok log, s)
  | (.error e, s) => (.error e, s)

/-- Lets the events of the session go to the log of a project.  Settings that cannot be read count
as not given. -/
def attachLog (project : Path) : Work Unit := fun s =>
  let (window, s) := match logWindow s.tree project with
    | .ok window => (window, s)
    | .error _ => (Log.defaultWindow, s.warn "could not read logging config")
  match s.openLog project window with
  | (.ok log, s) => (.ok (), { s with log? := some log })
  | (.error e, s) => (.error (.file e), s)

/-- Lets the events of the session go nowhere. -/
def detachLog (s : Session) : Session :=
  { s with log? := none }

/-! ## Ids of batches -/

/-- The id of the batch of a number. -/
def batchId (stem : String) (number : Nat) : String :=
  stem ++ "-" ++ String.ofList (Number.padZeros 12 (Number.natChars number))

/-- A fresh id for a batch. -/
def freshBatchId : Work String := fun s =>
  (.ok (batchId s.batchStem (s.batches + 1)), { s with batches := s.batches + 1 })

end Session

/-! ## Steps of work -/

namespace Work

/-- Looks at the files. -/
def look {α : Type} (f : FileTree → Except ProjectError α) : Work α := fun s =>
  (f s.tree, s)

/-- Looks at the machine. -/
def host : Work Host := fun s =>
  (.ok s.host, s)

/-- Changes the session. -/
def update (f : Session → Session) : Work Unit := fun s =>
  (.ok (), f s)

/-- Changes the files. -/
def change {α : Type} (f : FileTree → Except ProjectError α × FileTree) : Work α := fun s =>
  s.withTree f

end Work

end LessonCalc
