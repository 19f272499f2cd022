import LessonCalc.Json.Basic
import LessonCalc.Number.Layout
import LessonCalc.Text.Digit

/-!
# Writing JSON

JSON is written in ASCII: a character outside of the printable ASCII range is written by its code, a
character beyond the basic plane by its two surrogate codes, and half of a pair by itself.  `line`
writes a value on one line, `pretty` with one entry per line.  `sorted` orders the keys of all objects,
which makes the line of a value independent of the order in which its keys arrived.
-/

namespace LessonCalc.Json

open LessonCalc.Text LessonCalc.Number

/-! ## Strings -/

/-- A code unit of sixteen bits as an escape. -/
def unitEscape (n : Nat) : List Char :=
  '\\' :: 'u' :: hexDigits 4 n

/-- One character of a string. -/
def escapeChar (c : Char) : List Char :=
  if c = '"' then ['\\', '"']
  else if c = '\\' then ['\\', '\\']
  else if c = '\n' then ['\\', 'n']
  else if c = '\r' then ['\\', 'r']
  else if c = '\t' then ['\\', 't']
  else if c = '\x0c' then ['\\', 'f']
  else if c = '\x08' then ['\\', 'b']
  else if ' ' ≤ c ∧ c ≤ '~' then [c]
  else if c.toNat < 0x10000 then unitEscape c.toNat
  else
    let n := c.toNat - 0x10000
    unitEscape (0xD800 + n / 0x400) ++ unitEscape (0xDC00 + n % 0x400)

/-- One code of a string. -/
def escapeCode : Code → List Char
  | .char c => escapeChar c
  | .half offset => unitEscape (Code.half offset).toNat

/-- A string in double quotes. -/
def stringChars (s : RawText) : List Char :=
  '"' :: s.codes.flatMap escapeCode ++ ['"']

/-! ## Scalars -/

/-- A floating-point number; the ones that are not finite have names. -/
def floatChars (x : Float) : List Char :=
  if x.isNaN then "NaN".toList
  else if x.isInf then (if isSigned x then "-Infinity".toList else "Infinity".toList)
  else Layout.plain.write x

/-! ## Values on one line -/

mutual

/-- A value on one line. -/
def lineChars (itemSep keySep : List Char) : Json → List Char
  | null => "null".toList
  | bool true => "true".toList
  | bool false => "false".toList
  | int n => intChars n
  | float x => floatChars x
  | string s => stringChars s
  | array [] => ['[', ']']
  | array (v :: vs) =>
    '[' :: lineChars itemSep keySep v ++ itemsChars itemSep keySep vs ++ [']']
  | object [] => ['\x7b', '\x7d']
  | object ((k, v) :: es) =>
    '\x7b' :: stringChars k ++ keySep ++ lineChars itemSep keySep v ++
      entriesChars itemSep keySep es ++ ['\x7d']

/-- The values after the first one of an array, each after a separator. -/
def itemsChars (itemSep keySep : List Char) : List Json → List Char
  | [] => []
  | v :: vs => itemSep ++ lineChars itemSep keySep v ++ itemsChars itemSep keySep vs

/-- The entries after the first one of an object, each after a separator. -/
def entriesChars (itemSep keySep : List Char) : List (RawText × Json) → List Char
  | [] => []
  | (k, v) :: es =>
    itemSep ++ stringChars k ++ keySep ++ lineChars itemSep keySep v ++
      entriesChars itemSep keySep es

end

/-- A value on one line, with a space after each comma and colon. -/
def line (v : Json) : String :=
  String.ofList (lineChars [',', ' '] [':', ' '] v)

/-- A value on one line, with no space between its parts. -/
def compact (v : Json) : String :=
  String.ofList (lineChars [','] [':'] v)

/-! ## Values over several lines -/

/-- A line break and the indentation of a level. -/
def breakChars (level : Nat) : List Char :=
  '\n' :: List.replicate (2 * level) ' '

mutual

/-- A value with one entry per line, at a level of indentation. -/
def prettyChars (level : Nat) : Json → List Char
  | null => "null".toList
  | bool true => "true".toList
  | bool false => "false".toList
  | int n => intChars n
  | float x => floatChars x
  | string s => stringChars s
  | array [] => ['[', ']']
  | array (v :: vs) =>
    '[' :: breakChars (level + 1) ++ prettyChars (level + 1) v ++ prettyItems (level + 1) vs ++
      breakChars level ++ [']']
  | object [] => ['\x7b', '\x7d']
  | object ((k, v) :: es) =>
    '\x7b' :: breakChars (level + 1) ++ stringChars k ++ [':', ' '] ++ prettyChars (level + 1) v ++
      prettyEntries (level + 1) es ++ breakChars level ++ ['\x7d']

/-- The values after the first one of an array. -/
def prettyItems (level : Nat) : List Json → List Char
  | [] => []
  | v :: vs => ',' :: breakChars level ++ prettyChars level v ++ prettyItems level vs

/-- The entries after the first one of an object. -/
def prettyEntries (level : Nat) : List (RawText × Json) → List Char
  | [] => []
  | (k, v) :: es =>
    ',' :: breakChars level ++ stringChars k ++ [':', ' '] ++ prettyChars level v ++
      prettyEntries level es

end

/-- A value with one entry per line, indented by two spaces a level. -/
def pretty (v : Json) : String :=
  String.ofList (prettyChars 0 v)

/-! ## Sorted keys -/

/-- Whether the key of an entry comes no later than that of another. -/
def keyLe (a b : RawText × Json) : Bool :=
  a.1.le b.1

mutual

/-- A value with the keys of all its objects in increasing order. -/
def sorted : Json → Json
  | array items => array (sortedItems items)
  | object entries => object ((sortedEntries entries).mergeSort keyLe)
  | scalar => scalar

/-- Applies `sorted` to each value of an array. -/
def sortedItems : List Json → List Json
  | [] => []
  | v :: vs => sorted v :: sortedItems vs

/-- Applies `sorted` to each value of an object. -/
def sortedEntries : List (RawText × Json) → List (RawText × Json)
  | [] => []
  | (k, v) :: es => (k, sorted v) :: sortedEntries es

end

/-! ## What cannot be written -/

/-- Whether an integer is too long to be written. -/
def isOversized (n : Int) : Bool :=
  Nat.pow 10 digitLimit ≤ n.natAbs

mutual

/-- Whether some integer inside a value is too long to be written. -/
def hasOversized : Json → Bool
  | int n => isOversized n
  | array items => itemsOversized items
  | object entries => entriesOversized entries
  | _ => false

/-- Applies `hasOversized` to the values of an array. -/
def itemsOversized : List Json → Bool
  | [] => false
  | v :: vs => hasOversized v || itemsOversized vs

/-- Applies `hasOversized` to the values of an object. -/
def entriesOversized : List (RawText × Json) → Bool
  | [] => false
  | (_, v) :: es => hasOversized v || entriesOversized es

end

mutual

/-- A value with null in the place of every number that is not finite. -/
def finiteOnly : Json → Json
  | float x => if x.isFinite then float x else null
  | array items => array (finiteItems items)
  | object entries => object (finiteEntries entries)
  | v => v

/-- Applies `finiteOnly` to each value of an array. -/
def finiteItems : List Json → List Json
  | [] => []
  | v :: vs => finiteOnly v :: finiteItems vs

/-- Applies `finiteOnly` to each value of an object. -/
def finiteEntries : List (RawText × Json) → List (RawText × Json)
  | [] => []
  | (k, v) :: es => (k, finiteOnly v) :: finiteEntries es

end

end LessonCalc.Json
