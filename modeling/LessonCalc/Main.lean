import LessonCalc.CommandLine.Run
import LessonCalc.Data.Calendar
import LessonCalc.Files.Change
import Std.Time.DateTime.Timestamp

/-!
# The command line

The program itself: it loads the files that its arguments can lead to, runs the command on them, and
stores what the command has changed.  What a command does is decided by `CommandLine.run` alone.
-/

namespace LessonCalc.Main

/-! ## Loading -/

/-- The text of a place. -/
def placeText (place : List String) : String :=
  "/" ++ String.intercalate "/" place

/-- Adds what stands at a place to a tree, unless there is nothing that can be read. -/
def loadEntry (t : FileTree) (place : List String) : IO FileTree := do
  let path := (← IO.currentDir) / placeText place
  if ← path.isDir then return t.set place .folder
  try
    return t.set place (.file (← IO.FS.readBinFile path).toList)
  catch _ =>
    return t

/-- Adds what stands at a place to a tree, and the folders on the way to it. -/
def loadPlace (t : FileTree) (place : List String) : IO FileTree :=
  (List.range place.length).foldlM (fun t count => loadEntry t (place.take (count + 1))) t

/-- Adds what stands in a folder to a tree. -/
def loadFolder (t : FileTree) (place : List String) : IO FileTree := do
  let path := (← IO.currentDir) / placeText place
  if !(← path.isDir) then return t
  let entries ← path.readDir
  entries.foldlM (fun t entry => loadEntry t (place ++ [entry.fileName])) (← loadEntry t place)

/-- The folders of a project. -/
def projectFolders : List String := ["tools", "inputs", "logs"]

/-- Adds what a path leads to, and what belongs to it if it is a project. -/
def loadPath (t : FileTree) (path : Path) : IO FileTree := do
  let place := t.locate path
  let t ← loadPlace t place
  let t ← if t.isFolder path then loadEntry t (t.locate (Settings.file path)) else pure t
  projectFolders.foldlM (fun t name => loadFolder t (place ++ [name])) t

/-- The texts in an argument that can be paths. -/
def pathTexts (argument : String) : List String :=
  argument :: (CommandLine.splitPair argument).2.toList

/-- The files that arguments can lead to. -/
def loadTree (arguments : List String) : IO FileTree := do
  let home := (← IO.currentDir).components.filter (· ≠ "")
  let texts := (arguments.flatMap pathTexts).filter (· ≠ "")
  let t ← loadPlace { home } home
  texts.foldlM (fun t text => loadPath t (Path.ofString text)) t

/-! ## Storing -/

/-- Makes a change of the files. -/
def store : FileChange → IO Unit
  | .makeFolder place => IO.FS.createDir (placeText place)
  | .write place content => IO.FS.writeBinFile (placeText place) ⟨content.toArray⟩
  | .append place more => do
    let file ← IO.FS.Handle.mk (placeText place) .append
    file.write ⟨more.toArray⟩

/-! ## Running -/

/-- The time. -/
def currentTime : IO String := do
  let now ← Std.Time.Timestamp.now
  return Calendar.momentText (now.toNanosecondsSinceUnixEpoch.val / 1000).toNat

/-- The start of the ids of batches, which no other run shares. -/
def freshStem : IO String := do
  let bytes := (← IO.getRandomBytes 10).toList
  let number := bytes.foldl (fun n b => n * 256 + b.toNat) 0
  let digits := Text.hexDigits 20 number
  let part (start count : Nat) := String.ofList ((digits.drop start).take count)
  return String.intercalate "-" [part 0 8, part 8 4, part 12 4, part 16 4]

end LessonCalc.Main

open LessonCalc in
/-- Runs the program. -/
def main (arguments : List String) : IO UInt32 := do
  let tree ← Main.loadTree arguments
  let session : Session :=
    { tree, time := ← Main.currentTime, batchStem := ← Main.freshStem }
  let (outcome, later) := CommandLine.run arguments false session
  (tree.changesTo later.tree).forM Main.store
  IO.print outcome.out
  IO.eprint outcome.err
  if let some error := outcome.error? then IO.eprintln error.message
  return outcome.status.toUInt32
