import LessonCalc.Project.Basic

/-!
# Settings

The settings of a project stand in the file `calcblocks.yaml` of its folder.  A setting that the
file does not give has its default, and without the file all have.  An empty file, or one whose
value counts as false, sets nothing.
-/

namespace LessonCalc

open LessonCalc.Text LessonCalc.Number

/-- The integer that a document stands for. -/
def Document.toWhole : Document → Except WholeFault Int
  | .bool b => .ok (if b then 1 else 0)
  | .int n => .ok n
  | .float x => wholeOfFloat x
  | .text s => wholeOfText s
  | .bytes value => wholeOfBytes value
  | _ => .error .noNumber

/-- The text of a file, with a line feed at the end of every line. -/
def FileTree.readText (t : FileTree) (p : Path) : Except ProjectError (List Char) :=
  match t.read p with
  | .error e => .error (.file e)
  | .ok content =>
    match decodeUtf8 content with
    | .error fault => .error (.notText fault)
    | .ok cs => .ok (unifyLineEnds cs)

/-- Settings by name. -/
abbrev Settings := List (Document × Document)

namespace Settings

/-- The settings of a project that sets nothing. -/
def default : Settings :=
  [(.text "lint_strict", .bool false), (.text "batch_max_rows", .int 100000),
   (.text "batch_max_workers", .int 1), (.text "logging_fsync", .bool false),
   (.text "logging_tail_bytes", .int Log.defaultWindow)]

/-- The file of the settings of a project. -/
def file (project : Path) : Path :=
  project.child "calcblocks.yaml"

/-- The settings that a document makes of the defaults. -/
def ofDocument? (d : Document) : Option Settings :=
  if !d.isTruthy then some default
  else
    match d with
    | .map entries => some (entries.foldl (fun s (k, v) => Document.setKey s k v) default)
    | _ => none

/-- The settings of a project. -/
def load (t : FileTree) (project : Path) : Except ProjectError Settings := do
  let path := file project
  if !t.contains path then return default
  match Yaml.read (← t.readText path) with
  | .error fault => .error (.yaml fault)
  | .ok d =>
    match ofDocument? d with
    | some settings => return settings
    | none => .error (.config path .noMapping)

/-- The value of a setting. -/
def value (settings : Settings) (name : String) : Document :=
  (Document.lookup? settings name).getD .null

/-- Whether a setting counts as true. -/
def flag (settings : Settings) (name : String) : Bool :=
  (settings.value name).isTruthy

/-- The integer that a setting stands for. -/
def whole (settings : Settings) (name : String) : Except ProjectError Int :=
  (settings.value name).toWhole.mapError .setting

end Settings

end LessonCalc
