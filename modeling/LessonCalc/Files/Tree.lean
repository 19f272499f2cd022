import LessonCalc.Data.Entries
import LessonCalc.Files.Path
import LessonCalc.Text.Order

/-!
# File trees

The files and folders that the program works with, as one value.  An operation on a tree says what
it finds or gives the tree that it leaves behind, or else names the fault and the path it was met
at.
-/

namespace LessonCalc

open LessonCalc.Text

/-- The content of a file. -/
abbrev Bytes := List UInt8

/-- What a place of a file tree holds. -/
inductive FileEntry where
  | file (content : Bytes)
  | folder
  deriving Repr, DecidableEq, Inhabited

/-! ## Faults -/

/-- Why an operation on a file tree fails. -/
inductive FileFault where
  | notFound
  | taken
  | notFolder
  | isFolder
  | nameTooLong
  deriving Repr, DecidableEq

/-- The number of a fault. -/
def FileFault.number : FileFault → Nat
  | notFound => 2
  | taken => 17
  | notFolder => 20
  | isFolder => 21
  | nameTooLong => 36

/-- The wording of a fault. -/
def FileFault.reason : FileFault → String
  | notFound => "No such file or directory"
  | taken => "File exists"
  | notFolder => "Not a directory"
  | isFolder => "Is a directory"
  | nameTooLong => "File name too long"

/-- A fault and the path it was met at. -/
structure FileError where
  fault : FileFault
  path : Path
  deriving Repr, DecidableEq

/-- The message of a fault at a path. -/
def FileError.message (e : FileError) : String :=
  s!"[Errno {e.fault.number}] {e.fault.reason}: {quote e.path.text}"

/-! ## Trees -/

/-- An offset in a file has sixty-three bits. -/
abbrev Offset := Fin (Nat.pow 2 63)

/-- The largest offset in a file of the usual kind of file system. -/
def Offset.usual : Offset := ⟨Nat.pow 2 44 - Nat.pow 2 12, by decide⟩

/-- Files and folders.  `top` is how the topmost folder is shown; relative paths start at the folder
`home`.  The largest offset that can be sought is one of the file system, whatever the files hold. -/
structure FileTree where
  top : String := ""
  home : List String := []
  offsetLimit : Offset := .usual
  entries : Entries (List String) FileEntry := []
  deriving Repr, DecidableEq, Inhabited

namespace FileTree

/-- Follows the names of a path from a place. -/
def follow (place : List String) : List String → List String
  | [] => place
  | name :: names =>
    if name = ".." then follow place.dropLast names else follow (place ++ [name]) names

/-- The place where a path starts. -/
def start (t : FileTree) (p : Path) : List String :=
  match p.top? with
  | some _ => []
  | none => t.home

/-- The place that a path leads to, by the names on the way from the top. -/
def locate (t : FileTree) (p : Path) : List String :=
  follow (t.start p) p.parts

/-- The same place as a path from the top. -/
def resolve (t : FileTree) (p : Path) : Path :=
  ⟨some t.top, t.locate p⟩

/-- What stands at a place; the top is a folder. -/
def entryAt? (t : FileTree) (place : List String) : Option FileEntry :=
  if place.isEmpty then some .folder else t.entries.get? place

/-- The most bytes of a name. -/
def nameLimit : Nat := 255

/-- Walks down from a folder: what stands at the end of the way, if all folders on the way are
there. -/
def walk (t : FileTree) (place : List String) : List String → Except FileFault FileEntry
  | [] => .ok .folder
  | name :: names =>
    if name = ".." then t.walk place.dropLast names
    else if nameLimit < name.utf8ByteSize then .error .nameTooLong
    else
      match t.entryAt? (place ++ [name]), names with
      | none, _ => .error .notFound
      | some entry, [] => .ok entry
      | some .folder, _ :: _ => t.walk (place ++ [name]) names
      | some (.file _), _ :: _ => .error .notFolder

/-- What a path leads to. -/
def find (t : FileTree) (p : Path) : Except FileFault FileEntry :=
  t.walk (t.start p) p.parts

/-- Whether a path leads to a file. -/
def isFile (t : FileTree) (p : Path) : Bool :=
  match t.find p with
  | .ok (.file _) => true
  | _ => false

/-- Whether a path leads to a folder. -/
def isFolder (t : FileTree) (p : Path) : Bool :=
  match t.find p with
  | .ok .folder => true
  | _ => false

/-- Whether a path leads to anything. -/
def contains (t : FileTree) (p : Path) : Bool :=
  match t.find p with
  | .ok _ => true
  | .error _ => false

/-- The content of a file. -/
def read (t : FileTree) (p : Path) : Except FileError Bytes :=
  match t.find p with
  | .ok (.file content) => .ok content
  | .ok .folder => .error ⟨.isFolder, p⟩
  | .error fault => .error ⟨fault, p⟩

/-- The names in a folder, in order of arrival. -/
def names (t : FileTree) (p : Path) : List String :=
  let place := t.locate p
  t.entries.keys.filterMap fun key =>
    if key.dropLast = place ∧ !key.isEmpty then key.getLast? else none

/-! ## Changes -/

/-- Sets what stands at a place. -/
def set (t : FileTree) (place : List String) (entry : FileEntry) : FileTree :=
  { t with entries := t.entries.insert place entry }

/-- Why there can be no new entry at a path: some folder on the way to it is missing. -/
def wayFault? (t : FileTree) (p : Path) : Option FileFault :=
  match t.find p.parent with
  | .error fault => some fault
  | .ok (.file _) => some .notFolder
  | .ok .folder => if nameLimit < p.name.utf8ByteSize then some .nameTooLong else none

/-- Changes the content of a file, which is empty if it is new. -/
def update (t : FileTree) (p : Path) (change : Bytes → Bytes) : Except FileError FileTree :=
  let place := t.locate p
  match t.wayFault? p with
  | some fault => .error ⟨fault, p⟩
  | none =>
    match t.entryAt? place with
    | some .folder => .error ⟨.isFolder, p⟩
    | some (.file content) => .ok (t.set place (.file (change content)))
    | none => .ok (t.set place (.file (change [])))

/-- Writes a file. -/
def write (t : FileTree) (p : Path) (content : Bytes) : Except FileError FileTree :=
  t.update p fun _ => content

/-- Adds to the end of a file. -/
def append (t : FileTree) (p : Path) (more : Bytes) : Except FileError FileTree :=
  t.update p (· ++ more)

/-- Makes a folder where there is nothing yet. -/
def makeFolder (t : FileTree) (p : Path) : Except FileError FileTree :=
  let place := t.locate p
  match t.wayFault? p with
  | some fault => .error ⟨fault, p⟩
  | none =>
    match t.entryAt? place with
    | some _ => .error ⟨.taken, p⟩
    | none => .ok (t.set place .folder)

/-- Makes a folder unless there is one. -/
def ensureFolder (t : FileTree) (p : Path) : Except FileError FileTree :=
  match t.makeFolder p with
  | .ok t => .ok t
  | .error e => if t.isFolder p then .ok t else .error e

/-- Makes a folder and the folders on the way to it, unless they are there.  The folders that could
be made stay even if a later one cannot be. -/
def ensureFoldersFrom : Nat → FileTree → Path → Except FileError Unit × FileTree
  | 0, t, p => (.error ⟨.notFound, p⟩, t)
  | fuel + 1, t, p =>
    match t.makeFolder p with
    | .ok t => (.ok (), t)
    | .error ⟨.notFound, _⟩ =>
      match ensureFoldersFrom fuel t p.parent with
      | (.error e, t) => (.error e, t)
      | (.ok (), t) =>
        match t.ensureFolder p with
        | .ok t => (.ok (), t)
        | .error e => (.error e, t)
    | .error e => if t.isFolder p then (.ok (), t) else (.error e, t)

/-- Makes a folder and the folders on the way to it, unless they are there. -/
def ensureFolders (t : FileTree) (p : Path) : Except FileError Unit × FileTree :=
  ensureFoldersFrom (p.parts.length + 1) t p

/-- Removes a file. -/
def remove (t : FileTree) (p : Path) : FileTree :=
  let place := t.locate p
  { t with entries := t.entries.filter fun (key, _) => key != place }

/-! ## Listing -/

/-- The path of a place below another, with a slash after a folder. -/
def listed (below : List String) : List String × FileEntry → Option String
  | (place, entry) =>
    if below.isPrefixOf place ∧ place ≠ below then
      let text := String.intercalate "/" (place.drop below.length)
      some (match entry with
        | .file _ => text
        | .folder => text ++ "/")
    else none

/-- All paths below the home folder, in order. -/
def listing (t : FileTree) : List String :=
  sortTexts (t.entries.filterMap (listed t.home))

end FileTree

end LessonCalc
