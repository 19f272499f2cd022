import LessonCalc.Json.Basic
import LessonCalc.Number.Layout
import LessonCalc.Text.Quoted

/-!
# Values shown to a reader

How a value of a log stands in a line for a reader: a text as it is, and inside of lists and objects
in quotes.
-/

namespace LessonCalc.Json

open LessonCalc.Text LessonCalc.Number

mutual

/-- A value inside of another one. -/
def innerChars : Json → List Char
  | null => "None".toList
  | bool true => "True".toList
  | bool false => "False".toList
  | int n => intChars n
  | float x => Layout.plain.write x
  | string s => quoted s
  | array items => '[' :: innerItems items ++ [']']
  | object entries => '\x7b' :: innerEntries entries ++ ['\x7d']

/-- The items of an array. -/
def innerItems : List Json → List Char
  | [] => []
  | [v] => innerChars v
  | v :: vs => innerChars v ++ ',' :: ' ' :: innerItems vs

/-- The entries of an object. -/
def innerEntries : List (RawText × Json) → List Char
  | [] => []
  | [(k, v)] => quoted k ++ ':' :: ' ' :: innerChars v
  | (k, v) :: es => quoted k ++ ':' :: ' ' :: innerChars v ++ ',' :: ' ' :: innerEntries es

end

/-- A value as it is shown. -/
def shown : Json → RawText
  | string s => s
  | v => String.ofList (innerChars v)

/-- Whether a value counts as true: it is neither null, nor false, nor zero, nor empty. -/
def isTruthy : Json → Bool
  | null => false
  | bool b => b
  | int n => n != 0
  | float x => !(x == 0.0)
  | string s => s != .whole ""
  | array items => !items.isEmpty
  | object entries => !entries.isEmpty

end LessonCalc.Json
