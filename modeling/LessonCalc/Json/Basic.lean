import LessonCalc.Data.Entries
import LessonCalc.Text.Raw

/-!
# JSON values

The values that requests, logs and event contexts are made of.  Numbers keep apart integers of any
size and floating-point numbers; objects keep their keys in order of arrival.  A string or a key may
hold half of a character.
-/

namespace LessonCalc

/-- A JSON value. -/
inductive Json where
  | null
  | bool (value : Bool)
  | int (value : Int)
  | float (value : Float)
  | string (value : RawText)
  | array (items : List Json)
  | object (entries : List (RawText × Json))
  deriving Repr, Inhabited

namespace Json

/-- The value under a key of an object. -/
def field? : Json → String → Option Json
  | object entries, key => entries.lookup (.whole key)
  | _, _ => none

/-- The text of a string, unless it is torn. -/
def string? : Json → Option String
  | string (.whole s) => some s
  | _ => none

/-- An optional text, null if there is none. -/
def ofOption : Option String → Json
  | some s => string s
  | none => null

mutual

/-- How many values are nested in one another, the outermost included. -/
def levels : Json → Nat
  | array items => itemsLevels items + 1
  | object entries => entriesLevels entries + 1
  | _ => 1

/-- The most levels of the values of an array. -/
def itemsLevels : List Json → Nat
  | [] => 0
  | v :: vs => max (levels v) (itemsLevels vs)

/-- The most levels of the values of an object. -/
def entriesLevels : List (RawText × Json) → Nat
  | [] => 0
  | (_, v) :: es => max (levels v) (entriesLevels es)

end

/-- Whether two values are the same string. -/
def isString (value : Json) (text : RawText) : Bool :=
  match value with
  | string s => s == text
  | _ => false

end Json

end LessonCalc
