import LessonCalc.Document.Basic
import LessonCalc.Number.Whole
import LessonCalc.Text.Base64
import LessonCalc.Text.Lower
import LessonCalc.Text.Split
import LessonCalc.Yaml.Tag
import LessonCalc.Yaml.Cursor

/-!
# Values of scalars

What a text is as a value of a type.  The tag of a scalar can ask for a type that its text does not
look like, so every reading has faults of its own.
-/

namespace LessonCalc.Yaml

open LessonCalc.Number LessonCalc.Text

/-! ## Numbers -/

/-- A text without its underscores. -/
def ungrouped (text : String) : String :=
  String.ofList (text.toList.filter (· != '_'))

/-- The sign of a text that is not empty: whether it is a minus, and what follows it. -/
def signOf (text : String) : Except Fault (Bool × List Char) :=
  if text.isEmpty then .error .noDigits else .ok (takeSign text.toList)

/-- The parts of a number in sixtieths. -/
def sixtieths (cs : List Char) : List String :=
  (splitAll ':' cs).map String.ofList

/-- An integer in a base. -/
def inBase (base : Nat) (cs : List Char) : Except Fault Int :=
  (wholeInBase base (String.ofList cs)).mapError .noInteger

/-- An integer in decimal. -/
def inDecimal (text : String) : Except Fault Int :=
  (wholeOfText text).mapError .noInteger

/-- The integer that a text spells. -/
def intOf (text : String) : Except Fault Int := do
  let (negative, digits) ← signOf (ungrouped text)
  let n ← match digits with
    | [] => .error .noDigits
    | '0' :: 'b' :: rest => inBase 2 rest
    | '0' :: 'x' :: rest => inBase 16 rest
    | '0' :: _ => inBase 8 digits
    | _ =>
      if digits.contains ':' then do
        let parts ← (sixtieths digits).mapM inDecimal
        pure (parts.foldl (fun total n => total * 60 + n) 0)
      else inDecimal (String.ofList digits)
  return if negative then -n else n

/-- A floating-point number in decimal. -/
def floatInDecimal (text : String) : Except Fault Float :=
  match floatText? text with
  | some x => .ok x
  | none => .error (.noFloat text)

/-- The sum of sixtieths, the last of which comes first and counts once.  What the others count by
has to be in range. -/
def sumOfSixtieths : Float → Nat → List Float → Except Fault Float
  | total, _, [] => .ok total
  | total, weight, x :: xs =>
    match ofInt? weight with
    | some w => sumOfSixtieths (total + x * w) (weight * 60) xs
    | none => .error .floatTooLarge

/-- The floating-point number that a text spells. -/
def floatOf (text : String) : Except Fault Float := do
  let (negative, digits) ← signOf (lowerCase (ungrouped text))
  let x ← match String.ofList digits with
    | ".inf" => .ok (1.0 / 0.0)
    | ".nan" => .ok (0.0 / 0.0)
    | digits =>
      if digits.contains ':' then do
        let parts ← (sixtieths digits.toList).mapM floatInDecimal
        sumOfSixtieths 0.0 1 parts.reverse
      else floatInDecimal digits
  return signed (negative && !x.isNaN) x

/-! ## Other types -/

/-- The truth value that a text spells, in any case. -/
def boolOf (text : String) : Except Fault Bool :=
  let word := lowerCase text
  if ["yes", "true", "on"].contains word then .ok true
  else if ["no", "false", "off"].contains word then .ok false
  else .error (.noTruthValue word)

/-- The bytes that a text spells in base 64. -/
def bytesOf (text : String) : Except Fault (List UInt8) :=
  if text.toList.all fun c => c.toNat < 0x80 then
    match decodeBase64? text.toList with
    | some bytes => .ok bytes
    | none => .error .malformed
  else .error .malformed

/-- The date or time that a text spells; a line end behind it does not matter. -/
def timeOf (text : String) : Except Fault Timestamp :=
  match Timestamp.ofText? (dropLineEnd text).toList with
  | none => .error .noTime
  | some t =>
    match t.fault? with
    | some reason => .error (.impossibleTime reason)
    | none => .ok t

/-- The document that a text is under a tag; only as a text can it be torn. -/
def Tag.document (tag : Tag) (text : RawText) : Except Fault Document :=
  match tag with
  | .null => .ok .null
  | .bool => (boolOf text.legible).map .bool
  | .int => (intOf text.legible).map .int
  | .float => (floatOf text.legible).map .float
  | .binary => (bytesOf text.legible).map .bytes
  | .timestamp => (timeOf text.legible).map .time
  | .text => .ok (.text text)
  | _ => .error .malformed

end LessonCalc.Yaml
