import LessonCalc.Batch.Table
import LessonCalc.Tool.Compute

/-!
# Sweeps

A sweep computes a tool once for every record of a list.  A record is read like the fields of the
tool: what it does not mention has its default, and a null counts as blank.  The records may be
split into chunks which are computed by processes of their own, if the machine gives them and the
records can be handed to them; that changes neither the rows nor their order, but a process has a room
of its own for what is nested.
-/

namespace LessonCalc.Tool

/-- What is entered in one run of a sweep, by name. -/
abbrev Record := List (String × Json)

/-- The name of the column that numbers the rows. -/
def rowColumn : String := "row_index"

/-- The columns of a sweep: the number of the row, the inputs and the outputs.  An id that occurs
again has no column of its own. -/
def sweepColumns (t : Tool) : Entries String ColumnType :=
  let inputs := t.inputs.map fun i => (i.id, ColumnType.number)
  let outputs := t.outputs.map fun o => (o.id, ColumnType.number)
  Entries.insertAll [(rowColumn, .whole)] (inputs ++ outputs)

/-- A record with blanks for its nulls. -/
def blankNulls (record : Record) : Record :=
  record.map fun (name, v) =>
    match v with
    | .null => (name, .string "")
    | v => (name, v)

/-- The cells of a row by the names of their columns, of which later ones replace earlier ones. -/
def rowCells (room : Room) (t : Tool) (index : Nat) (numbers : Entries String Float) :
    Entries String Cell :=
  let inputs := numbers.map fun (id, x) => (id, Cell.number x)
  let outputs := (resolve room.formula t.outputs (toVariables numbers)).map fun (o, x) =>
    (o.id, Cell.number x)
  Entries.insertAll [(rowColumn, .whole index)] (inputs ++ outputs)

/-- The row of a record. -/
def sweepRow (room : Room) (t : Tool) (index : Nat) (record : Record) :
    Except EntryError (List Cell) :=
  match t.coerce room (blankNulls record) with
  | .error e => .error e
  | .ok numbers =>
    let cells := t.rowCells room index numbers
    .ok (t.sweepColumns.keys.map fun name => (cells.get? name).getD .empty)

/-- The rows of records, numbered from `start` on, up to the first that cannot be read. -/
def sweepChunk (room : Room) (t : Tool) :
    Nat → List Record → Except EntryError (List (List Cell))
  | _, [] => .ok []
  | start, record :: rest =>
    match t.sweepRow room start record with
    | .error e => .error e
    | .ok row =>
      match sweepChunk room t (start + 1) rest with
      | .error e => .error e
      | .ok rows => .ok (row :: rows)

/-- Splits a list into chunks of a size, each with the index of its first item. -/
def chunksFrom {α : Type} (size : Nat) : Nat → Nat → List α → List (Nat × List α)
  | 0, _, _ => []
  | _ + 1, _, [] => []
  | fuel + 1, start, a :: items =>
    (start, (a :: items).take size) ::
      chunksFrom size fuel (start + size) ((a :: items).drop size)

/-- The size of the chunks that spread records over workers. -/
def chunkSize (records : Nat) (workers : Nat) : Nat :=
  max 1 ((records + workers - 1) / workers)

/-- Why a sweep fails. -/
inductive SweepError where
  | entry (error : EntryError)
  | pool (error : PoolError)
  deriving Repr, DecidableEq

/-- The wording of the error. -/
def SweepError.message : SweepError → String
  | entry error => error.message
  | pool error => error.message

/-- Whether records are nested no deeper than what can be handed to a process. -/
def isHandable (host : Host) (records : List Record) : Bool :=
  records.all fun record => record.all fun (_, v) => v.levels ≤ host.handed + 1

/-- The rows of a chunk, as the process gives them to which it is handed. -/
def sweepHanded (host : Host) (t : Tool) (start : Nat) (records : List Record) :
    Except SweepError (List (List Cell)) :=
  if isHandable host records then (t.sweepChunk host.worker start records).mapError .entry
  else .error (.pool .nestedTooDeeply)

/-- The rows of chunks, one chunk after the other. -/
def sweepChunks (host : Host) (t : Tool) :
    List (Nat × List Record) → Except SweepError (List (List Cell))
  | [] => .ok []
  | (start, records) :: rest =>
    match t.sweepHanded host start records with
    | .error e => .error e
    | .ok rows =>
      match sweepChunks host t rest with
      | .error e => .error e
      | .ok more => .ok (rows ++ more)

/-- Whether records are spread over workers: only if there are several of both. -/
def isSpread (records : List Record) (workers : Int) : Bool :=
  1 < workers && 1 < records.length

/-- The rows of a sweep, whose records are spread over processes if there are to be several. -/
def sweepRows (host : Host) (t : Tool) (records : List Record) (workers : Int) :
    Except SweepError (List (List Cell)) :=
  if isSpread records workers then
    match host.poolError? workers with
    | some e => .error (.pool e)
    | none =>
      let size := chunkSize records.length workers.toNat
      t.sweepChunks host (chunksFrom size records.length 0 records)
  else (t.sweepChunk host.sweep 0 records).mapError .entry

/-- The table of a sweep. -/
def sweep (host : Host) (t : Tool) (records : List Record) (workers : Int) :
    Except SweepError Table :=
  match t.sweepRows host records workers with
  | .error e => .error e
  | .ok rows => .ok ⟨t.sweepColumns, rows⟩

end LessonCalc.Tool
