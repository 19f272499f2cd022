import LessonCalc.Data.Timestamp
import LessonCalc.Json.Basic
import LessonCalc.Number.Binary64
import LessonCalc.Text.Order

/-!
# Documents

What a configuration file holds before it is checked.  A document is richer than JSON: the keys of a
mapping can be any scalar, and a document can also be bytes, a date or time, or a set.  A collection
can hold itself; it is written out as far as any check looks, and is endless from there on.
-/

namespace LessonCalc

open LessonCalc.Number LessonCalc.Text

/-- The content of a configuration file. -/
inductive Document where
  | null
  | bool (value : Bool)
  | int (value : Int)
  | float (value : Float)
  | text (value : RawText)
  | bytes (value : List UInt8)
  | time (value : Timestamp)
  | list (items : List Document)
  | set (items : List Document)
  | map (entries : List (Document × Document))
  | endless
  deriving Repr, Inhabited

namespace Document

/-! ## Keys -/

/-- The integer that a scalar is equal to as a key: a truth value is one or zero, and a whole
floating-point number is that integer. -/
def wholeKey? : Document → Option Int
  | bool b => some (if b then 1 else 0)
  | int n => some n
  | float x => if isWhole x then some (truncate x) else none
  | _ => none

/-- Whether two scalars are the same key.  What is not a number is one key. -/
def sameKey (a b : Document) : Bool :=
  match wholeKey? a, wholeKey? b with
  | some m, some n => m == n
  | none, none =>
    match a, b with
    | null, null => true
    | float x, float y => x == y || (x.isNaN && y.isNaN)
    | text s, text t => s == t
    | bytes s, bytes t => s == t
    | time s, time t => s.isSame t
    | _, _ => false
  | _, _ => false

/-- Sets a key of a mapping, in its place if it has one and else at the end. -/
def setKey {α : Type} : List (Document × α) → Document → α → List (Document × α)
  | [], key, value => [(key, value)]
  | (k, v) :: rest, key, value =>
    if sameKey k key then (k, value) :: rest else (k, v) :: setKey rest key value

/-- Whether a document is a text. -/
def isText (d : Document) (s : RawText) : Bool :=
  match d with
  | text t => t == s
  | _ => false

/-- The value under a text key. -/
def lookup? (entries : List (Document × Document)) (key : RawText) : Option Document :=
  (entries.find? fun (k, _) => k.isText key).map Prod.snd

/-! ## The order of keys -/

/-- The place of the kind of a key among the kinds. -/
def rank : Document → Nat
  | null => 0
  | bool _ | int _ | float _ => 1
  | text _ => 2
  | bytes _ => 3
  | time _ => 4
  | _ => 5

/-- The floating-point number nearest to a numeric key. -/
def keyNumber : Document → Float
  | bool b => if b then 1.0 else 0.0
  | int n => Float.ofInt n
  | float x => x
  | _ => 0.0

/-- Whether a key comes no later than another in a set that is listed: numbers by size and texts by
their order, and else by kind. -/
def keyLe (a b : Document) : Bool :=
  if rank a ≠ rank b then rank a ≤ rank b
  else
    match a, b with
    | text s, text t => s.le t
    | bytes s, bytes t => !decide (t < s)
    | time s, time t => textLe s.text t.text
    | _, _ =>
      match wholeKey? a, wholeKey? b with
      | some m, some n => m ≤ n
      | _, _ => keyNumber a ≤ keyNumber b

/-- The set of keys. -/
def ofKeys (keys : List Document) : Document :=
  set (keys.mergeSort keyLe)

/-! ## From JSON -/

mutual

/-- A JSON value as a document. -/
def ofJson : Json → Document
  | .null => null
  | .bool b => bool b
  | .int n => int n
  | .float x => float x
  | .string s => text s
  | .array items => list (ofItems items)
  | .object entries => map (ofFields entries)

/-- The values of an array as documents. -/
def ofItems : List Json → List Document
  | [] => []
  | v :: vs => ofJson v :: ofItems vs

/-- The entries of an object as documents. -/
def ofFields : List (RawText × Json) → List (Document × Document)
  | [] => []
  | (k, v) :: es => (text k, ofJson v) :: ofFields es

end

/-! ## Parts -/

mutual

/-- Whether a document or a part of it, keys included, has a property. -/
def holds (p : Document → Bool) : Document → Bool
  | list items => p (list items) || itemsHold p items
  | set items => p (set items) || itemsHold p items
  | map entries => p (map entries) || entriesHold p entries
  | d => p d

/-- Whether an item of a list has a property, or a part of one. -/
def itemsHold (p : Document → Bool) : List Document → Bool
  | [] => false
  | d :: ds => holds p d || itemsHold p ds

/-- Whether a key or a value of a mapping has a property, or a part of one. -/
def entriesHold (p : Document → Bool) : List (Document × Document) → Bool
  | [] => false
  | (k, d) :: es => holds p k || holds p d || entriesHold p es

end

/-- Whether a document is a floating-point number that is not finite. -/
def isInfinite : Document → Bool
  | float x => !x.isFinite
  | _ => false

/-- Whether a document is a text with half of a character. -/
def isBroken : Document → Bool
  | text s => s.isTorn
  | _ => false

/-! ## Reading a setting -/

/-- Whether a document counts as true: it is neither null, nor false, nor zero, nor empty. -/
def isTruthy : Document → Bool
  | null => false
  | bool b => b
  | int n => n != 0
  | float x => !(x == 0.0)
  | text s => s != .whole ""
  | bytes value => !value.isEmpty
  | time _ => true
  | list items => !items.isEmpty
  | set items => !items.isEmpty
  | map entries => !entries.isEmpty
  | endless => true

end Document

end LessonCalc
