import LessonCalc.Text.Utf8

/-!
# Percent escapes

In the target of a request a percent sign and two hexadecimal digits stand for a byte.  The bytes of
a target are read as UTF-8, with the replacement character for what is not; a percent sign that no
two digits follow stands for itself.
-/

namespace LessonCalc.Text

/-- The bytes that a text with escapes stands for. -/
def percentBytes : List Char → List UInt8
  | [] => []
  | '%' :: a :: b :: rest =>
    match hexValue? a, hexValue? b with
    | some high, some low => UInt8.ofNat (high * 16 + low) :: percentBytes rest
    | _, _ => 0x25 :: percentBytes (a :: b :: rest)
  | c :: rest => encodeUtf8 (String.singleton c) ++ percentBytes rest

/-- The text that a text with escapes stands for. -/
def percentDecode (cs : List Char) : List Char :=
  decodeUtf8Lossy (percentBytes cs)

end LessonCalc.Text
