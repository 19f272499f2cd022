/-!
# Decimal numbers

A natural number times a power of ten, and the floating-point number nearest to it.
-/

namespace LessonCalc.Number

/-- The natural number `digits` times ten to the power `exponent`. -/
structure Decimal where
  digits : Nat
  exponent : Int
  deriving Repr, DecidableEq

/-- How many decimal digits a positive number has; none for zero. -/
def digitCount (n : Nat) : Nat :=
  if n = 0 then 0 else (Nat.toDigits 10 n).length

/-- The natural number that a list of digit values spells. -/
def ofDigits (ds : List Nat) : Nat :=
  ds.foldl (fun n d => n * 10 + d) 0

/-- From this order of magnitude on a decimal exceeds every finite number. -/
def overflowOrder : Int := 310

/-- Up to this order of magnitude a decimal is nearer to zero than to any other number. -/
def underflowOrder : Int := -326

namespace Decimal

/-- The floating-point number nearest to a decimal.  Decimals far out of range are settled by their
order of magnitude alone, so that no huge power of ten is computed. -/
def toFloat (d : Decimal) : Float :=
  if d.digits = 0 then 0.0
  else
    let order := (digitCount d.digits : Int) + d.exponent
    if overflowOrder < order then 1.0 / 0.0
    else if order < underflowOrder then 0.0
    else OfScientific.ofScientific d.digits (d.exponent < 0) d.exponent.natAbs

/-- Drops trailing zeros of a positive number, adding each to the exponent.  The first argument
bounds how many there can be. -/
def dropZeros : Nat → Decimal → Decimal
  | 0, d => d
  | bound + 1, d =>
    if d.digits % 10 = 0 then dropZeros bound ⟨d.digits / 10, d.exponent + 1⟩ else d

/-- The same decimal with no trailing zero among its digits. -/
def normalize (d : Decimal) : Decimal :=
  if d.digits = 0 then ⟨0, 0⟩ else dropZeros (digitCount d.digits) d

/-- The nearest multiple of ten to the power `-places`, as a count of such units; a half goes away
from zero. -/
def roundToPlaces (d : Decimal) (places : Nat) : Nat :=
  let shift := d.exponent + places
  if 0 ≤ shift then d.digits * Nat.pow 10 shift.toNat
  else
    -- far below the last place, every decimal rounds to nothing
    let drop := (-shift).toNat
    if digitCount d.digits + 1 < drop then 0
    else
      let unit := Nat.pow 10 drop
      (2 * d.digits + unit) / (2 * unit)

/-- The order of magnitude of a decimal: the power of ten of its first digit. -/
def order (d : Decimal) : Int :=
  (max 1 (digitCount d.digits) : Nat) + d.exponent - 1

/-- How many digits a decimal may have when it is rounded: room for those before its point and for a
few more. -/
def precision (d : Decimal) : Int :=
  max 28 (d.order + 4)

/-- A decimal rounded to places, unless that has more digits than its precision allows. -/
def roundWithin? (d : Decimal) (places : Nat) : Option Nat :=
  let n := d.roundToPlaces places
  if d.precision < digitCount n then none else some n

end Decimal

end LessonCalc.Number
