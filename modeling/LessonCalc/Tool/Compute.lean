import LessonCalc.Tool.Entry

/-!
# Computing a tool

The outputs of a tool are computed in the order of their declaration.  A formula sees every input
and every output declared before it; the name of a later output has no value yet and counts as zero.
-/

namespace LessonCalc.Tool

open LessonCalc.Formula

/-- The value of each output, in order, where each is added to the variables of the next.  Every
formula may need some levels of descent and no more. -/
def resolve (limit : Nat) : List Output → Variables → List (Output × Float)
  | [], _ => []
  | o :: rest, vars =>
    let x := evaluate limit o.formula vars
    (o, x) :: resolve limit rest (Entries.insert vars o.id (.float x))

/-- Numbers as the variables of a formula. -/
def toVariables (numbers : Entries String Float) : Variables :=
  numbers.map fun (id, x) => (id, .float x)

/-- An output with its value and how it is shown. -/
structure Computed where
  output : Output
  value : Float
  formatted : String
  negative : Bool
  deriving Repr

/-- Whether a text starts with a minus sign. -/
def startsWithMinus (s : String) : Bool :=
  s.toList.head? == some '-'

/-- An output as it is shown: the placeholder while nothing is entered.  It is flagged negative only
if its text carries the sign. -/
def present (shown : Bool) (o : Output) (x : Float) : Computed :=
  let formatted := if shown then display x o.format else placeholder
  { output := o
    value := x
    formatted
    negative := shown && decide (x < 0.0) && startsWithMinus formatted }

/-- Computes a tool from what was entered, in the room that the caller leaves. -/
def compute (room : Room) (t : Tool) (entered : Entered) : Except EntryError (List Computed) :=
  match t.coerce room entered with
  | .error e => .error e
  | .ok numbers =>
    match t.hasInput room entered with
    | .error e => .error e
    | .ok shown =>
      .ok ((resolve room.formula t.outputs (toVariables numbers)).map fun (o, x) =>
        present shown o x)

end LessonCalc.Tool
