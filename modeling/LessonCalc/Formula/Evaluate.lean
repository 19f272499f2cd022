import LessonCalc.Formula.Reading
import LessonCalc.Json.Basic
import LessonCalc.Number.Binary64

/-!
# The value of a formula

A formula always has a value, and the value is a finite number that is not negative zero.  Whatever
is missing, stray or unknown counts as zero, and so does a formula whose value is not finite, that
needs more levels of descent than its caller leaves room for, or that names an integer beyond the
range of floating-point numbers.
-/

namespace LessonCalc.Formula

open LessonCalc.Number

/-! ## Operators on numbers -/

/-- A truth value as a number. -/
def truth (b : Bool) : Float :=
  if b then 1.0 else 0.0

/-- The value of an operator.  A quotient or remainder by zero is zero. -/
def Operator.apply : Operator → Float → Float → Float
  | .gt, x, y => truth (decide (y < x))
  | .lt, x, y => truth (decide (x < y))
  | .ge, x, y => truth (decide (y ≤ x))
  | .le, x, y => truth (decide (x ≤ y))
  | .eq, x, y => truth (x == y)
  | .ne, x, y => truth (!(x == y))
  | .add, x, y => x + y
  | .sub, x, y => x - y
  | .mul, x, y => x * y
  | .div, x, y => quotient x y
  | .mod, x, y => remainder x y

/-- Whether a number selects the consequent of a condition. -/
def isTrue (x : Float) : Bool :=
  !(x == 0.0) && !x.isNaN

/-- The value of a reading, given the values of names. -/
def Reading.value (env : String → Float) : Reading → Float
  | .missing | .stray _ => 0.0
  | .number run => runValue run
  | .name text => env text
  | .group inner _ => inner.value env
  | .negate operand => -operand.value env
  | .binary op left right => op.apply (left.value env) (right.value env)
  | .ifThen condition consequent =>
    if isTrue (condition.value env) then consequent.value env else 0.0
  | .ifThenElse condition consequent alternative =>
    if isTrue (condition.value env) then consequent.value env else alternative.value env

/-! ## Variables -/

/-- What becomes of a value where a number is wanted. -/
inductive Conversion where
  | number (x : Float)
  | notANumber
  | outOfRange
  deriving Repr

/-- A value as a number: truth values count as one and zero, texts are read whole. -/
def toNumber : Json → Conversion
  | .bool b => .number (truth b)
  | .int n =>
    match ofInt? n with
    | some x => .number x
    | none => .outOfRange
  | .float x => .number x
  | .string (.whole s) =>
    match floatText? s with
    | some x => .number x
    | none => .notANumber
  | .null | .string (.torn _) | .array _ | .object _ => .notANumber

/-- The variables of a formula. -/
abbrev Variables := Entries String Json

/-- The value of a name, zero if it has none that is a number. -/
def Variables.value (vars : Variables) (name : String) : Float :=
  match vars.get? name with
  | none => 0.0
  | some v =>
    match toNumber v with
    | .number x => x
    | .notANumber | .outOfRange => 0.0

/-- Whether a name stands for an integer beyond the range of floating-point numbers. -/
def Variables.isOutOfRange (vars : Variables) (name : String) : Bool :=
  match vars.get? name with
  | none => false
  | some v =>
    match toNumber v with
    | .outOfRange => true
    | .number _ | .notANumber => false

/-! ## Evaluation -/

/-- A value as it is shown to the outside: zero unless it is finite, and never negative zero. -/
def settle (x : Float) : Float :=
  if x.isFinite then x + 0.0 else 0.0

/-- The value of the front of a token list, which may need some levels of descent and no more. -/
def evaluateTokens (limit : Nat) (tokens : List Token) (vars : Variables) : Float :=
  let reading := (read tokens).1
  if limit < reading.depth ∨ reading.names.any vars.isOutOfRange then 0.0
  else settle (reading.value vars.value)

/-- The value of a formula, which may need some levels of descent and no more. -/
def evaluate (limit : Nat) (formula : String) (vars : Variables) : Float :=
  evaluateTokens limit (tokenize formula) vars

end LessonCalc.Formula
