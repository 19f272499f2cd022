/-!
# Bytes as text in base 64

Every character of the alphabet spells six bits, so four of them spell three bytes.  Equality signs
fill up the last four; what stands behind them is not read.  All other characters are skipped.
-/

namespace LessonCalc.Text

/-- The bits that a character of the alphabet spells. -/
def sixBits? (c : Char) : Option Nat :=
  if 'A' ≤ c ∧ c ≤ 'Z' then some (c.toNat - 'A'.toNat)
  else if 'a' ≤ c ∧ c ≤ 'z' then some (c.toNat - 'a'.toNat + 26)
  else if '0' ≤ c ∧ c ≤ '9' then some (c.toNat - '0'.toNat + 52)
  else if c = '+' then some 62
  else if c = '/' then some 63
  else none

/-- Reads on, where `held` bits with the value `bits` belong to no byte yet and `fills` equality
signs stand right before.  The text must not end while bits are held. -/
def base64From? (held bits fills : Nat) : List Char → Option (List UInt8)
  | [] => if held = 0 then some [] else none
  | c :: cs =>
    if c = '=' then
      if held = 2 ∨ held = 4 then
        if held ≤ 2 * (fills + 1) then some [] else base64From? held bits (fills + 1) cs
      else base64From? held bits fills cs
    else
      match sixBits? c with
      | none => base64From? held bits fills cs
      | some value =>
        let bits := bits * 64 + value
        if held < 2 then base64From? (held + 6) bits 0 cs
        else
          let unit := Nat.pow 2 (held - 2)
          (base64From? (held - 2) (bits % unit) 0 cs).map (UInt8.ofNat (bits / unit) :: ·)

/-- The bytes that a text spells. -/
def decodeBase64? (cs : List Char) : Option (List UInt8) :=
  base64From? 0 0 0 cs

end LessonCalc.Text
