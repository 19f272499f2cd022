import LessonCalc.Json.Basic
import LessonCalc.Number.Layout
import LessonCalc.Text.Quoted

/-!
# Values on display

A value is shown as an amount of money, as a number or as a percentage.  It is rounded to the places
of its format from its shortest decimal, a half away from zero, so that `1.005` shows as `1.01`.  A
value that rounds to nothing shows no sign.
-/

namespace LessonCalc

open LessonCalc.Number LessonCalc.Text

/-- How a value is shown. -/
inductive ValueFormat where
  | currency
  | number
  | percentage
  deriving Repr, DecidableEq, Inhabited

namespace ValueFormat

/-- The name of a format. -/
def name : ValueFormat → String
  | currency => "currency"
  | number => "number"
  | percentage => "percentage"

/-- The format of a name. -/
def ofName? : String → Option ValueFormat
  | "currency" => some currency
  | "number" => some number
  | "percentage" => some percentage
  | _ => none

/-- What stands before a field of a format. -/
def lead? : ValueFormat → Option String
  | currency => some "$"
  | number | percentage => none

/-- What stands after a field of a format. -/
def trail? : ValueFormat → Option String
  | percentage => some "%"
  | number | currency => none

end ValueFormat

/-- What is shown while there is nothing to show. -/
def placeholder : String := "—"

/-- A text with a comma behind every third character that others follow. -/
def groupThrees : List Char → List Char
  | a :: b :: c :: d :: rest => a :: b :: c :: ',' :: groupThrees (d :: rest)
  | few => few

/-- The digits of a whole number with a comma between each group of three. -/
def groupThousands (digits : List Char) : List Char :=
  (groupThrees digits.reverse).reverse

/-- A count of hundredths with two places and grouped digits. -/
def hundredths (n : Nat) : List Char :=
  groupThousands (natChars (n / 100)) ++ '.' :: padZeros 2 (natChars (n % 100))

/-- A text without the zeros at its end. -/
def dropTrailingZeros (cs : List Char) : List Char :=
  (cs.reverse.dropWhile (· == '0')).reverse

/-- A text without the points at its end. -/
def dropTrailingPoints (cs : List Char) : List Char :=
  (cs.reverse.dropWhile (· == '.')).reverse

/-- A signed decimal in a format. -/
def displayDecimal (negative : Bool) (d : Decimal) (format : ValueFormat) : List Char :=
  match format with
  | .currency =>
    let n := d.roundToPlaces 2
    let sign := if negative ∧ n ≠ 0 then ['-'] else []
    sign ++ '$' :: hundredths n
  | .percentage =>
    let n := d.roundToPlaces 1
    let sign := if negative ∧ n ≠ 0 then ['-'] else []
    sign ++ natChars (n / 10) ++ '.' :: natChars (n % 10) ++ ['%']
  | .number =>
    let n := d.roundToPlaces 2
    let sign := if negative ∧ n ≠ 0 then ['-'] else []
    sign ++ dropTrailingPoints (dropTrailingZeros (hundredths n))

/-- How many places of a value are shown. -/
def ValueFormat.places : ValueFormat → Nat
  | currency | number => 2
  | percentage => 1

/-- The text of a count of the units of a format. -/
def unsignedText (format : ValueFormat) (n : Nat) : List Char :=
  match format with
  | .currency => '$' :: hundredths n
  | .percentage => natChars (n / 10) ++ '.' :: natChars (n % 10) ++ ['%']
  | .number => dropTrailingPoints (dropTrailingZeros (hundredths n))

/-- A value in a format; one that is not finite shows as the placeholder. -/
def display (x : Float) (format : ValueFormat) : String :=
  if x.isFinite then String.ofList (displayDecimal (isSigned x) (magnitude x).shortest format)
  else placeholder

/-! ## Values and formats by name -/

/-- Why a value cannot be shown.  What is no decimal can neither be read as one nor be rounded. -/
inductive DisplayError where
  | outOfRange
  | unknownFormat (name : String)
  | noDecimal
  | notANumber
  deriving Repr, DecidableEq

/-- The wording of the error. -/
def DisplayError.message : DisplayError → String
  | .outOfRange => "int too large to convert to float"
  | .unknownFormat name => "Unknown value format: " ++ quote name
  | .noDecimal => "not a decimal"
  | .notANumber => "must be real number"

/-- A signed decimal in a format, unless rounding it takes more digits than its precision allows. -/
def displayWithin (negative : Bool) (d : Decimal) (format : ValueFormat) : Except DisplayError String :=
  match d.roundWithin? format.places with
  | some n =>
    let sign := if negative ∧ n ≠ 0 then ['-'] else []
    .ok (String.ofList (sign ++ unsignedText format n))
  | none => .error .noDecimal

/-- A value in the format of a name.  A truth value counts as one or zero where its size is taken,
in an amount of money, and is no decimal elsewhere. -/
def displayNamed (value : Json) (format : String) : Except DisplayError String :=
  match value with
  | .float x =>
    if x.isFinite then
      match ValueFormat.ofName? format with
      | some f => displayWithin (isSigned x) (magnitude x).shortest f
      | none => .error (.unknownFormat format)
    else .ok placeholder
  | .int n =>
    match ofInt? n, ValueFormat.ofName? format with
    | none, _ => .error .outOfRange
    | some _, none => .error (.unknownFormat format)
    | some _, some f => displayWithin (n < 0) ⟨n.natAbs, 0⟩ f
  | .bool b =>
    match ValueFormat.ofName? format with
    | some .currency => displayWithin false ⟨b.toNat, 0⟩ .currency
    | some _ => .error .noDecimal
    | none => .error (.unknownFormat format)
  | _ => .error .notANumber

end LessonCalc
