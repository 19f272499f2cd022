/-!
# Binary floating point, exactly

A finite number of the 64-bit binary format is a natural number times a power of two.  This module
takes a number apart into sign, `mantissa` and `exponent`, puts one together, and does on those
parts what has to be exact: telling whole numbers, turning them into integers, and the remainder of
a division.
-/

namespace LessonCalc.Number

/-- The natural number `mantissa` times two to the power `exponent`. -/
structure Dyadic where
  mantissa : Nat
  exponent : Int
  deriving Repr, DecidableEq

/-- The least exponent of the format. -/
def leastExponent : Int := -1074

/-- The mantissa from which on the leading bit is not stored. -/
def hiddenBit : Nat := Nat.pow 2 52

/-- Whether the sign bit is set, as it is for negative numbers and negative zero. -/
def isSigned (x : Float) : Bool :=
  x.toBits.toNat / Nat.pow 2 63 = 1

/-- The magnitude of a finite number. -/
def magnitude (x : Float) : Dyadic :=
  let bits := x.toBits.toNat % Nat.pow 2 63
  let biased := bits / hiddenBit
  let fraction := bits % hiddenBit
  if biased = 0 then ⟨fraction, leastExponent⟩
  else ⟨hiddenBit + fraction, leastExponent + (biased - 1 : Nat)⟩

/-- The positive number with the given parts, which has to fit the format: the mantissa has at most
53 binary digits, the exponent is at least the least one. -/
def ofDyadic (d : Dyadic) : Float :=
  if d.mantissa = 0 then 0.0
  else
    let room := min (52 - Nat.log2 d.mantissa) (d.exponent - leastExponent).toNat
    let mantissa := d.mantissa * Nat.pow 2 room
    let exponent := d.exponent - room
    if mantissa < hiddenBit then Float.ofBits (UInt64.ofNat mantissa)
    else
      let biased := (exponent - leastExponent).toNat + 1
      Float.ofBits (UInt64.ofNat (biased * hiddenBit + (mantissa - hiddenBit)))

/-- Whether a number is whole. -/
def isWhole (x : Float) : Bool :=
  x.isFinite &&
    (let d := magnitude x
     d.mantissa % Nat.pow 2 (-d.exponent).toNat = 0)

/-- The integer part of a finite number, which drops the fraction. -/
def truncate (x : Float) : Int :=
  let d := magnitude x
  let whole := d.mantissa * Nat.pow 2 d.exponent.toNat / Nat.pow 2 (-d.exponent).toNat
  if isSigned x then -whole else whole

/-- The nearest number to a natural number, infinite if that is out of range. -/
def ofNat (n : Nat) : Float :=
  Float.ofNat n

/-- The nearest number to an integer, if it is in range. -/
def ofInt? (n : Int) : Option Float :=
  let x := Float.ofInt n
  if x.isFinite then some x else none

/-- The remainder of the magnitudes of two finite numbers, the second not zero. -/
def remainderOfMagnitudes (x y : Dyadic) : Dyadic :=
  let exponent := min x.exponent y.exponent
  let left := x.mantissa * Nat.pow 2 (x.exponent - exponent).toNat
  let right := y.mantissa * Nat.pow 2 (y.exponent - exponent).toNat
  ⟨left % right, exponent⟩

/-- The remainder of a truncated division, which has the sign of the dividend.  It is zero for a
zero divisor, the dividend for an infinite divisor, and not a number otherwise unless both are
finite. -/
def remainder (x y : Float) : Float :=
  if y == 0.0 then 0.0
  else if y.isNaN || !x.isFinite then 0.0 / 0.0
  else if y.isInf then x
  else
    let r := ofDyadic (remainderOfMagnitudes (magnitude x) (magnitude y))
    if isSigned x then -r else r

/-- A quotient that is zero for a zero divisor. -/
def quotient (x y : Float) : Float :=
  if y == 0.0 then 0.0 else x / y

end LessonCalc.Number
