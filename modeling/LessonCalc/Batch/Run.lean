import LessonCalc.Batch.Sweep
import LessonCalc.Project.Session

/-!
# Batches

A batch is a sweep under the rules of a project: there is a limit to its records, it has an id of
its own, and its start and its end are recorded in the log of the project, among all events and in a
file of the batch.  A batch over the limit leaves no trace.  Without a project the limit is the one
of a project that sets nothing, and the events go to the log that the session has.
-/

namespace LessonCalc

namespace Batch

/-- The records of a table, of which all cells are texts or empty. -/
def recordsOf (t : Table) : List Tool.Record :=
  t.rows.map fun row => t.names.zip (row.map Cell.toJson)

/-- The table in a CSV file. -/
def loadTable (t : FileTree) (path : Path) : Except ProjectError Table :=
  match t.read path with
  | .error e => .error (.tableFile e.fault path.text)
  | .ok content => (Csv.read content).mapError .csv

/-! ## Events -/

/-- A batch that runs: its id, and the name of its tool if it has one. -/
structure Run where
  id : String
  tool : Option String
  deriving Repr, DecidableEq

/-- Records an event of a batch. -/
def Run.record (run : Run) (level : Event.Level) (kind : Event.Kind) (message : String)
    (more : List (RawText × Json)) (errorCode : Option String) : Work Unit :=
  Work.update fun s =>
    s.record (s.event level kind message (Event.batchContext run.id run.tool more) errorCode)
      (some run.id)

/-- Records the start of a batch. -/
def Run.started (run : Run) (total : Nat) (workers : Int) : Work Unit :=
  run.record .info .batchStarted s!"Batch started: {total} row(s)"
    [("total", .int total), ("max_workers", .int workers)] none

/-- Records the end of a batch. -/
def Run.completed (run : Run) (total : Nat) : Work Unit :=
  run.record .info .batchCompleted s!"Batch completed: {total} row(s)" [("total", .int total)] none

/-- Records the failure of a batch. -/
def Run.failed (run : Run) (error : Tool.SweepError) : Work Unit :=
  run.record .error .batchFailed s!"Batch failed: {error.message}" [] (some "batch_error")

/-! ## Running -/

/-- The most records of a batch. -/
def rowLimit (t : FileTree) : Option Path → Except ProjectError Int
  | none => Settings.default.whole "batch_max_rows"
  | some project => do (← Settings.load t project).whole "batch_max_rows"

/-- Runs a batch. -/
def run (tool : Tool) (records : List Tool.Record) (name : Option String)
    (project : Option Path) (workers : Int) : Work Table := do
  let limit ← Work.look fun t => rowLimit t project
  if limit < records.length then throw (.tooManyRows records.length limit)
  let run : Run := ⟨← Session.freshBatchId, name⟩
  match project with
  | some folder => Session.attachLog folder
  | none => pure ()
  run.started records.length workers
  match tool.sweep (← Work.host) records workers with
  | .error e =>
    run.failed e
    throw (.ofSweep e)
  | .ok table =>
    run.completed table.height
    return table

end Batch

end LessonCalc
