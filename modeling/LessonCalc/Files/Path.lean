import LessonCalc.Text.Quoted
import LessonCalc.Text.Split

/-!
# Paths

A path is a list of names, read from the folder in which the program runs or from the top of all
files.  Empty names and single dots are dropped when a path is read; two dots stay, and mean the
folder above when the path is followed.
-/

namespace LessonCalc

/-- A path.  One that starts at the top of all files tells how that top is shown. -/
structure Path where
  top? : Option String := none
  parts : List String := []
  deriving Repr, DecidableEq, Inhabited

namespace Path

/-- The path that a text spells. -/
def ofString (s : String) : Path :=
  let names := (Text.splitAll '/' s.toList).map String.ofList
  { top? := if s.toList.head? = some '/' then some "" else none
    parts := names.filter fun name => name != "" && name != "." }

/-- A path as text. -/
def text (p : Path) : String :=
  let joined := String.intercalate "/" p.parts
  match p.top? with
  | some top => if p.parts.isEmpty ∧ top ≠ "" then top else top ++ "/" ++ joined
  | none => if p.parts.isEmpty then "." else joined

/-- The path of an entry of a folder. -/
def child (p : Path) (name : String) : Path :=
  { p with parts := p.parts ++ [name] }

/-- The folder that a path is in. -/
def parent (p : Path) : Path :=
  { p with parts := p.parts.dropLast }

/-- The last name of a path. -/
def name (p : Path) : String :=
  p.parts.getLast?.getD ""

/-- The part of a file name before its last dot, and the part from that dot on.  A dot that starts
or ends the name does not count. -/
def splitName (name : String) : String × String :=
  let reversed := name.toList.reverse
  let extension := reversed.takeWhile (· ≠ '.')
  match reversed.dropWhile (· ≠ '.') with
  | _ :: stem =>
    if stem.isEmpty ∨ extension.isEmpty then (name, "")
    else (String.ofList stem.reverse, String.ofList ('.' :: extension.reverse))
  | [] => (name, "")

/-- The last name of a path without its extension. -/
def stem (p : Path) : String :=
  (splitName p.name).1

/-- The extension of the last name of a path, with its dot. -/
def extension (p : Path) : String :=
  (splitName p.name).2

end Path

end LessonCalc
