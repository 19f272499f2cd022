import LessonCalc.Data.Host
import LessonCalc.Formula.Evaluate
import LessonCalc.Json.Writer
import LessonCalc.Number.Layout
import LessonCalc.Tool.Basic

/-!
# What a user enters

The fields of a tool start with their defaults as text, or blank.  What a user enters replaces them,
and each is read as a number: the number at the front of a text, and zero where there is none.
-/

namespace LessonCalc.Tool

open LessonCalc.Number LessonCalc.Formula

/-- Why an entry cannot be read as a number or a text. -/
inductive EntryError where
  | outOfRange
  | tooManyDigits
  | nestedTooDeeply
  deriving Repr, DecidableEq

/-- The wording of the error. -/
def EntryError.message : EntryError → String
  | .outOfRange => "int too large to convert to float"
  | .tooManyDigits => tooLongMessage
  | .nestedTooDeeply => "maximum recursion depth exceeded while getting the repr of an object"

/-- Why the text of a value cannot be written where there is room for some levels of values, if it
cannot: what is told is the first integer that is too long, or the first value that is too deep. -/
def textFault? : Nat → Json → Option EntryError
  | 0, _ => some .nestedTooDeeply
  | levels + 1, .array items => items.findSome? (textFault? levels)
  | levels + 1, .object fields => fields.findSome? fun (_, v) => textFault? levels v
  | _ + 1, .int n => if Json.isOversized n then some .tooManyDigits else none
  | _ + 1, _ => none

/-- What is found out by writing the text of a value, inside which there is room for some levels. -/
def byText {α : Type} (levels : Nat) (v : Json) (result : α) : Except EntryError α :=
  match textFault? (levels + 1) v with
  | some e => .error e
  | none => .ok result

/-- A number, with zero for one that is not a number. -/
def dropNaN (x : Float) : Float :=
  if x.isNaN then 0.0 else x

/-- An entry as a number.  An array or an object has no number at its front, but its text has to be
written to see that. -/
def readEntry (levels : Nat) : Json → Except EntryError Float
  | .null => .ok 0.0
  | .bool b => .ok (truth b)
  | .int n =>
    match ofInt? n with
    | some x => .ok x
    | none => .error .outOfRange
  | .float x => .ok (dropNaN x)
  | .string s => .ok (dropNaN ((typed? s.front).getD 0.0))
  | .array items => byText levels (.array items) 0.0
  | .object fields => byText levels (.object fields) 0.0

/-- A default as the text of its field: a whole number has no fraction. -/
def defaultText (x : Float) : String :=
  if isWhole x then intText (truncate x) else plainText x

/-- The text with which the field of an input starts. -/
def Input.initialText (i : Input) : String :=
  match i.default with
  | some x => defaultText x
  | none => ""

/-- The text with which each field starts. -/
def initialTexts (t : Tool) : Entries String String :=
  Entries.ofList (t.inputs.map fun i => (i.id, i.initialText))

/-- What was entered, by name. -/
abbrev Entered := List (String × Json)

/-- The content of each field once entries have replaced the texts they start with.  Entries without
a field do not count. -/
def fieldStates (t : Tool) (entered : Entered) : Entries String Json :=
  (t.inputs.filterMap fun i => (entered.lookup i.id).map fun v => (i.id, v)).foldl
    (fun es (id, v) => es.insert id v) (t.initialTexts.map fun (id, s) => (id, .string s))

/-- The content of the field of an input. -/
def fieldState (states : Entries String Json) (i : Input) : Json :=
  (states.get? i.id).getD .null

/-- Reads the fields of inputs in order, stopping at the first that cannot be read. -/
def readFields (levels : Nat) (states : Entries String Json) :
    List Input → Except EntryError (List (String × Float))
  | [] => .ok []
  | i :: rest =>
    match readEntry levels (fieldState states i) with
    | .error e => .error e
    | .ok x =>
      match readFields levels states rest with
      | .error e => .error e
      | .ok xs => .ok ((i.id, x) :: xs)

/-- The number in each field. -/
def coerce (room : Room) (t : Tool) (entered : Entered) :
    Except EntryError (Entries String Float) :=
  match readFields room.entry (t.fieldStates entered) t.inputs with
  | .error e => .error e
  | .ok xs => .ok (Entries.ofList xs)

/-- Whether a text is more than a blank field or a zero. -/
def isInputText (s : RawText) : Bool :=
  s != .whole "" && s != .whole "0"

/-- Whether a value of a list is more than a blank field or a zero, where only texts can be so. -/
def isInputValue : Json → Bool
  | .string s => isInputText s
  | _ => true

/-- Whether the content of a field is more than a blank field or a zero. -/
def isInputState (levels : Nat) : Json → Except EntryError Bool
  | .null => .ok false
  | .bool b => .ok b
  | .int n => byText levels (.int n) (n != 0)
  | .float x => .ok (!(x == 0.0))
  | .string s => .ok (isInputText s)
  | .array items => byText levels (.array items) true
  | .object fields => byText levels (.object fields) true

/-- Looks through the contents of fields for one that is more than blank or zero. -/
def anyInputState (levels : Nat) : List Json → Except EntryError Bool
  | [] => .ok false
  | v :: rest =>
    match isInputState levels v with
    | .error e => .error e
    | .ok true => .ok true
    | .ok false => anyInputState levels rest

/-- Whether any field holds more than a blank or a zero. -/
def hasInput (room : Room) (t : Tool) (entered : Entered) : Except EntryError Bool :=
  anyInputState room.entry ((t.fieldStates entered).map Prod.snd)

end LessonCalc.Tool
