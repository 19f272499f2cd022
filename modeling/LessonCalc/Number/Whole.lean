import LessonCalc.Number.Layout
import LessonCalc.Number.Literal
import LessonCalc.Text.Quoted

/-!
# Whole numbers

What a text, bytes or a floating-point number are as an integer, and why they are none.  A fraction
is cut off.
-/

namespace LessonCalc.Number

open LessonCalc.Text

/-- Why something is no integer. -/
inductive WholeFault where
  | noLiteral (text : RawText) (base : Nat)
  | noBytes (bytes : List UInt8)
  | tooManyDigits (count : Nat)
  | notANumber
  | infinite
  | noNumber
  deriving Repr, DecidableEq

/-- The most characters of a text in quotes, and the most bytes, that a message shows. -/
def shownLimit : Nat := 200

/-- What is told of a literal that spells no integer in a base. -/
def noLiteralMessage (base : Nat) (quoted : List Char) : String :=
  let shown := String.ofList (quoted.take shownLimit)
  s!"invalid literal for int() with base {base}: {shown}"

/-- The message of a fault. -/
def WholeFault.message : WholeFault → String
  | noLiteral text base => noLiteralMessage base (quoted text)
  | noBytes bytes => noLiteralMessage 10 (quotedBytes (bytes.take shownLimit))
  | tooManyDigits count => tooManyDigitsMessage count
  | notANumber => "cannot convert float NaN to integer"
  | infinite => "cannot convert float infinity to integer"
  | noNumber => "not a number"

/-- The integer that a text spells. -/
def wholeOfText (text : RawText) : Except WholeFault Int :=
  match text with
  | .torn _ => .error (.noLiteral text 10)
  | .whole s =>
    match intText? s with
    | none => .error (.noLiteral text 10)
    | some (n, count) => if digitLimit < count then .error (.tooManyDigits count) else .ok n

/-- The letter that may stand behind a zero in front of the digits of a base. -/
def baseLetter? : Nat → Option Char
  | 2 => some 'b'
  | 8 => some 'o'
  | 16 => some 'x'
  | _ => none

/-- Digits without the zero and the letter of their base in front of them. -/
def dropBaseMark (base : Nat) : List Char → List Char
  | '0' :: c :: rest => if baseLetter? base = some c.toLower then rest else '0' :: c :: rest
  | cs => cs

/-- The integer that a text without underscores spells in a base of at most sixteen. -/
def wholeInBase (base : Nat) (text : String) : Except WholeFault Int :=
  let (negative, rest) := takeSign (asciiDigits (trimSpaces text.toList))
  let digits := dropBaseMark base rest
  let values := digits.map fun c => (hexValue? c).filter (· < base)
  if digits.isEmpty ∨ values.any Option.isNone then .error (.noLiteral text base)
  else
    let n : Int := (values.foldl (fun n d => n * base + d.getD 0) 0 : Nat)
    .ok (if negative then -n else n)

/-- A space of ASCII. -/
def isAsciiSpace (c : Char) : Bool :=
  c == ' ' || ('\t' ≤ c && c ≤ '\r')

/-- The integer that bytes spell in ASCII. -/
def wholeOfBytes (bytes : List UInt8) : Except WholeFault Int :=
  let cs := bytes.map fun b => Char.ofNat b.toNat
  match wholeInt? groupedDigitRun (trimBoth isAsciiSpace cs) with
  | none => .error (.noBytes bytes)
  | some (n, count) => if digitLimit < count then .error (.tooManyDigits count) else .ok n

/-- The integer part of a floating-point number. -/
def wholeOfFloat (x : Float) : Except WholeFault Int :=
  if x.isNaN then .error .notANumber
  else if x.isInf then .error .infinite
  else .ok (truncate x)

end LessonCalc.Number
