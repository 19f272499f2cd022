import LessonCalc.Event.Basic
import LessonCalc.Files.Tree
import LessonCalc.Json.Reader
import LessonCalc.Text.Blank
import LessonCalc.Text.Lines
import LessonCalc.Text.Utf8

/-!
# Logs

A project keeps its events in the folder `logs`: all of them in one file, and those of a batch also
in a file of the batch.  Events are only ever added, one line each.  Reading goes through the end of
a file of bounded size, so that old events of a long log are not seen; lines that are not JSON are
skipped.
-/

namespace LessonCalc

open LessonCalc.Text

/-- Why no bytes of a file are read from an offset on: no file goes so far, or the offset is no 64-bit
integer. -/
inductive OffsetFault where
  | refused
  | tooLarge
  deriving Repr, DecidableEq

/-- The wording of the fault. -/
def OffsetFault.message : OffsetFault → String
  | refused => "[Errno 22] Invalid argument"
  | tooLarge => "cannot fit 'int' into an offset-sized integer"

/-- Why a log cannot be written or read. -/
inductive LogError where
  | file (error : FileError)
  | noLine (fault : Event.LineFault)
  | offset (fault : OffsetFault)
  | tooManyDigits (count : Nat)
  | tooDeep
  | noObject
  deriving Repr, DecidableEq

/-- The log of a project: its folder, and how many bytes at the end of a file are read. -/
structure Log where
  folder : Path
  window : Int
  deriving Repr, DecidableEq

namespace Log

/-- How many bytes are read if nothing else is set. -/
def defaultWindow : Int := 2 * 1024 * 1024

/-- The log of the project in a folder. -/
def ofProject (project : Path) (window : Int) : Log :=
  ⟨project.child "logs", window⟩

/-- The file of all events. -/
def globalFile (log : Log) : Path :=
  log.folder.child "events.ndjson"

/-- The folder of the files of batches. -/
def batchFolder (log : Log) : Path :=
  log.folder.child "batches"

/-- The file of a batch. -/
def batchFile (log : Log) (batch : String) : Path :=
  log.batchFolder.child (batch ++ ".ndjson")

/-- Makes the folders of a log. -/
def ensureFolders (log : Log) (t : FileTree) : Except FileError Unit × FileTree :=
  match t.ensureFolders log.folder with
  | (.error e, t) => (.error e, t)
  | (.ok (), t) =>
    match t.ensureFolder log.batchFolder with
    | .ok t => (.ok (), t)
    | .error e => (.error e, t)

/-! ## Ids of batches -/

/-- A letter, a digit, an underscore or a hyphen. -/
def isSafeChar (c : Char) : Bool :=
  c.isAlphanum || c == '_' || c == '-'

/-- Whether an id can name a file in the folder of batches: it is made of safe characters, apart
from a line feed at its end. -/
def isSafeId (id : String) : Bool :=
  let cs := id.toList
  let body := if cs.getLast? = some '\n' then cs.dropLast else cs
  !body.isEmpty && body.all isSafeChar

/-! ## Writing -/

/-- Adds to the end of a file, whose folder is made if it is not there. -/
def addTo (t : FileTree) (p : Path) (line : String) : Except FileError Unit × FileTree :=
  match t.ensureFolders p.parent with
  | (.error e, t) => (.error e, t)
  | (.ok (), t) =>
    match t.append p (encodeUtf8 line) with
    | .ok t => (.ok (), t)
    | .error e => (.error e, t)

/-- The line that records an event, with its end. -/
def lineOf (e : Event) : Except Event.LineFault String :=
  e.line.map (· ++ "\n")

/-- Records an event among all, and among those of its batch if the id of that is safe. -/
def write (log : Log) (t : FileTree) (e : Event) (batch : Option String) :
    Except LogError Unit × FileTree :=
  match lineOf e with
  | .error fault => (.error (.noLine fault), t)
  | .ok line =>
    match addTo t log.globalFile line with
    | (.error e, t) => (.error (.file e), t)
    | (.ok (), t) =>
      match batch with
      | none => (.ok (), t)
      | some id =>
        if isSafeId id then
          match addTo t (log.batchFile id) line with
          | (.error e, t) => (.error (.file e), t)
          | (.ok (), t) => (.ok (), t)
        else (.ok (), t)

/-! ## Reading -/

/-- What follows the first line feed of a file, or the whole of one without a line feed. -/
def afterFirstLine (content : Bytes) : Bytes :=
  match content.dropWhile (· != 0x0A) with
  | _ :: rest => rest
  | [] => content

/-- The end of a file that is read: all of it if it fits into the window, and else the last bytes of
the window without the line that they start in. -/
def tail (window : Int) (content : Bytes) : Bytes :=
  if (content.length : Int) ≤ window then content
  else afterFirstLine (content.drop (content.length - window).toNat)

/-- Why the end of a file cannot be read: if the window is far below zero, its start is so far behind
the end that it cannot be sought. -/
def offsetFault? (limit : Offset) (window : Int) (content : Bytes) : Option OffsetFault :=
  let start : Int := content.length - window
  if (Nat.pow 2 63 : Nat) ≤ start then some .tooLarge
  else if limit.val < start then some .refused
  else none

/-- The lines of a file that hold something, without the blanks around them. -/
def lines (content : Bytes) : List (List Char) :=
  ((splitLines (decodeUtf8Lossy content)).map strip).filter fun line => !line.isEmpty

/-- The values on lines.  A line that is not JSON is skipped; one that is JSON but cannot be held
stops the reading. -/
def values : List (List Char) → Except LogError (List Json)
  | [] => .ok []
  | line :: rest =>
    match Json.readText line with
    | .error (.syntaxFault _ _) => values rest
    | .error (.tooManyDigits count) => .error (.tooManyDigits count)
    | .error .tooDeep => .error .tooDeep
    | .ok v =>
      match values rest with
      | .ok vs => .ok (v :: vs)
      | .error e => .error e

/-- The values in the end of a file, where offsets up to a limit can be sought. -/
def readBytes (limit : Offset) (window : Int) (content : Bytes) : Except LogError (List Json) :=
  match offsetFault? limit window content with
  | some fault => .error (.offset fault)
  | none => values (lines (tail window content))

/-- The values in a file of the log; none if there is no such file. -/
def readFile (log : Log) (t : FileTree) (p : Path) : Except LogError (List Json) :=
  match t.read p with
  | .ok content => readBytes t.offsetLimit log.window content
  | .error e =>
    if e.fault = .notFound ∨ e.fault = .notFolder then .ok [] else .error (.file e)

/-! ## Queries -/

/-- Which events are asked for, and how many.  An empty text asks for nothing. -/
structure Query where
  level : Option RawText := none
  kind : Option RawText := none
  tool : Option RawText := none
  batch : Option RawText := none
  limit : Int := 200
  deriving Repr, DecidableEq

/-- The most events that a query gives. -/
def queryCap : Int := 2000

/-- The value under a key of an event. -/
def fieldOf (key : String) : Json → Except LogError Json
  | .object entries => .ok ((entries.lookup (.whole key)).getD .null)
  | _ => .error .noObject

/-- The value under a key of the context of an event; the context may be missing. -/
def contextFieldOf (key : String) : Json → Except LogError Json
  | .object entries => fieldOf key ((entries.lookup (.whole "context")).getD (.object []))
  | _ => .error .noObject

/-- Keeps the events of which a field is the given text, if one is given. -/
def keepWhere (field : Json → Except LogError Json) (wanted : Option RawText) (events : List Json) :
    Except LogError (List Json) :=
  match wanted with
  | none | some (.whole "") => .ok events
  | some text => events.filterM fun e => do return (← field e).isString text

/-- The items of a list before an index, which counts from the end if it is negative. -/
def takeTo {α : Type} (limit : Int) (items : List α) : List α :=
  if limit < 0 then items.take (items.length - limit.natAbs) else items.take limit.natAbs

/-- The events that a query asks for, the latest first. -/
def answer (query : Query) (events : List Json) : Except LogError (List Json) := do
  let events ← keepWhere (fieldOf "level") query.level events
  let events ← keepWhere (fieldOf "event_type") query.kind events
  let events ← keepWhere (contextFieldOf "tool") query.tool events
  let events ← keepWhere (contextFieldOf "batch_id") query.batch events
  return takeTo (min query.limit queryCap) events.reverse

/-- The events of all that a query asks for. -/
def read (log : Log) (t : FileTree) (query : Query) : Except LogError (List Json) := do
  answer query (← log.readFile t log.globalFile)

/-- The events of a batch, the earliest first. -/
def readBatch (log : Log) (t : FileTree) (batch : String) : Except LogError (List Json) :=
  if isSafeId batch then log.readFile t (log.batchFile batch) else .ok []

end Log

end LessonCalc
