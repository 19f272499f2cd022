import LessonCalc.Number.Binary64
import LessonCalc.Number.Decimal

/-!
# Shortest decimals

The shortest decimal that reads back as a given floating-point number: of all decimals nearer to it
than to any other number of the format those with the fewest digits, and of these the nearest one.

A number `m · 2 ^ q` is the nearest one for every real from half the gap below it to half the gap
above it, the ends included if `m` is even.  For one digit, two digits and so on, the two decimals
next to the number on that grid are tried; if any decimal of the grid lies in the interval, one of
these two does.
-/

namespace LessonCalc.Number

/-- A number and the interval of reals that round to it, on a grid of decimals: `value`, `low` and
`high` are measured in the same unit, of which one step of the grid has `step`. -/
structure Gauge where
  step : Nat
  value : Nat
  low : Nat
  high : Nat
  closed : Bool

/-- The gauge of a positive number on the grid of multiples of `10 ^ k`, in quarters of the gap
above the number. -/
def Dyadic.gauge (x : Dyadic) (k : Int) : Gauge :=
  let unit := Nat.pow 2 x.exponent.toNat * Nat.pow 10 (-k).toNat
  let below := if x.mantissa = hiddenBit ∧ leastExponent < x.exponent then 1 else 2
  { step := 4 * Nat.pow 2 (-x.exponent).toNat * Nat.pow 10 k.toNat
    value := 4 * x.mantissa * unit
    low := (4 * x.mantissa - below) * unit
    high := (4 * x.mantissa + 2) * unit
    closed := x.mantissa % 2 = 0 }

/-- Whether the grid point with the given index rounds to the number. -/
def Gauge.admits (g : Gauge) (index : Nat) : Bool :=
  let point := index * g.step
  if g.closed then g.low ≤ point && point ≤ g.high else g.low < point && point < g.high

/-- The grid point that rounds to the number and is nearest to it, if there is one; of two equally
near the even one. -/
def Gauge.nearest? (g : Gauge) : Option Nat :=
  let below := g.value / g.step
  match g.admits below, g.admits (below + 1) with
  | false, false => none
  | true, false => some below
  | false, true => some (below + 1)
  | true, true =>
    let toBelow := g.value - below * g.step
    let toAbove := (below + 1) * g.step - g.value
    if toBelow < toAbove then some below
    else if toAbove < toBelow then some (below + 1)
    else if below % 2 = 0 then some below
    else some (below + 1)

/-- Whether a number is at least ten to the power `e`. -/
def Dyadic.reaches (x : Dyadic) (e : Int) : Bool :=
  Nat.pow 10 e.toNat * Nat.pow 2 (-x.exponent).toNat ≤
    x.mantissa * Nat.pow 2 x.exponent.toNat * Nat.pow 10 (-e).toNat

/-- The exponent of the first decimal digit of a positive number: the greatest `e` such that the
number is at least ten to the power `e`.  The logarithm to base two gives it up to one. -/
def Dyadic.order (x : Dyadic) : Int :=
  let bits : Int := Nat.log2 x.mantissa + x.exponent
  let guess := bits * 30103 / 100000
  if x.reaches (guess + 1) then guess + 1
  else if x.reaches guess then guess
  else guess - 1

/-- Seventeen digits tell any two numbers of the format apart. -/
def enoughDigits : Nat := 17

/-- Tries grids with ever more digits, of which `left` remain. -/
def Dyadic.searchShortest (x : Dyadic) (order : Int) : Nat → Decimal
  | 0 =>
    let k := order - enoughDigits
    let g := x.gauge k
    ⟨g.value / g.step, k⟩
  | left + 1 =>
    let k := order + left + 1 - enoughDigits
    match (x.gauge k).nearest? with
    | some index => ⟨index, k⟩
    | none => x.searchShortest order left

/-- The shortest decimal that reads back as a number, with no trailing zero. -/
def Dyadic.shortest (x : Dyadic) : Decimal :=
  if x.mantissa = 0 then ⟨0, 0⟩ else (x.searchShortest x.order enoughDigits).normalize

end LessonCalc.Number
