import LessonCalc.Text.Digit

/-!
# Text as bytes

Texts are stored as UTF-8.  `decodeUtf8` refuses bytes that are not UTF-8; `decodeUtf8Lossy`
replaces every longest run of bytes that starts a character without finishing it, or else a single
byte, by the replacement character.
-/

namespace LessonCalc.Text

/-- What the first byte of a character announces: how many bytes follow, the bits it carries, and
the range that the second byte must lie in. -/
structure LeadByte where
  tail : Nat
  bits : Nat
  low : Nat
  high : Nat

/-- The announcement of a byte that starts a character of two to four bytes.  The range of the
second byte excludes surrogates, code points out of range and characters that fit fewer bytes. -/
def leadByte? (b : Nat) : Option LeadByte :=
  if 0xC2 ≤ b ∧ b ≤ 0xDF then some ⟨1, b - 0xC0, 0x80, 0xBF⟩
  else if b = 0xE0 then some ⟨2, 0, 0xA0, 0xBF⟩
  else if b = 0xED then some ⟨2, 0xD, 0x80, 0x9F⟩
  else if 0xE1 ≤ b ∧ b ≤ 0xEF then some ⟨2, b - 0xE0, 0x80, 0xBF⟩
  else if b = 0xF0 then some ⟨3, 0, 0x90, 0xBF⟩
  else if b = 0xF4 then some ⟨3, 4, 0x80, 0x8F⟩
  else if 0xF1 ≤ b ∧ b ≤ 0xF3 then some ⟨3, b - 0xF0, 0x80, 0xBF⟩
  else none

/-- Reads the bytes that follow a lead byte: the code point, or how many of them were in order, and
what is left in both cases. -/
def readTail : Nat → Nat → Nat → Nat → List UInt8 → Except (List UInt8) (Nat × List UInt8)
  | 0, value, _, _, rest => .ok (value, rest)
  | _ + 1, _, _, _, [] => .error []
  | tail + 1, value, low, high, b :: rest =>
    if low ≤ b.toNat ∧ b.toNat ≤ high then
      readTail tail (value * 64 + (b.toNat - 0x80)) 0x80 0xBF rest
    else .error (b :: rest)

/-- One character from the front of a byte list, or what is left once the bytes that could not make
a character are dropped. -/
def readChar (b : UInt8) (rest : List UInt8) : Except (List UInt8) (Char × List UInt8) :=
  if b.toNat < 0x80 then .ok (Char.ofNat b.toNat, rest)
  else
    match leadByte? b.toNat with
    | none => .error rest
    | some lead =>
      match readTail lead.tail lead.bits lead.low lead.high rest with
      | .ok (value, rest) => .ok (Char.ofNat value, rest)
      | .error rest => .error rest

theorem readTail_length {tail value low high : Nat} {bytes : List UInt8} :
    (∀ n rest, readTail tail value low high bytes = .ok (n, rest) → rest.length ≤ bytes.length) ∧
    (∀ rest, readTail tail value low high bytes = .error rest → rest.length ≤ bytes.length) := by
  induction tail generalizing value low high bytes with
  | zero =>
    simp only [readTail]
    refine ⟨fun n rest h => ?_, fun rest h => by simp at h⟩
    simp only [Except.ok.injEq, Prod.mk.injEq] at h
    simp [h.2]
  | succ tail ih =>
    cases bytes with
    | nil => simp [readTail]
    | cons b bytes =>
      simp only [readTail]
      split
      · obtain ⟨ok, err⟩ := @ih (value * 64 + (b.toNat - 0x80)) 0x80 0xBF bytes
        exact ⟨fun n rest h => Nat.le_succ_of_le (ok n rest h),
          fun rest h => Nat.le_succ_of_le (err rest h)⟩
      · refine ⟨fun n rest h => by simp at h, fun rest h => ?_⟩
        simp only [Except.error.injEq] at h
        simp [← h]

/-- Reading a character uses up at least its first byte. -/
theorem readChar_length {b : UInt8} {bytes : List UInt8} :
    (∀ c rest, readChar b bytes = .ok (c, rest) → rest.length ≤ bytes.length) ∧
    (∀ rest, readChar b bytes = .error rest → rest.length ≤ bytes.length) := by
  unfold readChar
  split
  · refine ⟨fun c rest h => ?_, fun rest h => by simp at h⟩
    simp only [Except.ok.injEq, Prod.mk.injEq] at h
    simp [h.2]
  · split
    · refine ⟨fun c rest h => by simp at h, fun rest h => ?_⟩
      simp only [Except.error.injEq] at h
      simp [h]
    · rename_i lead _
      obtain ⟨ok, err⟩ :=
        @readTail_length lead.tail lead.bits lead.low lead.high bytes
      split
      · rename_i value rest' eq
        refine ⟨fun c rest h => ?_, fun rest h => by simp at h⟩
        simp only [Except.ok.injEq, Prod.mk.injEq] at h
        exact h.2 ▸ ok value rest' eq
      · rename_i rest' eq
        refine ⟨fun c rest h => by simp at h, fun rest h => ?_⟩
        simp only [Except.error.injEq] at h
        exact h ▸ err rest' eq

/-! ## Decoding -/

/-- Why bytes make no character: the first of them starts none, one of those that follow it is out
of range, or there are too few of them. -/
inductive Utf8Reason where
  | badStart
  | badContinuation
  | tooShort
  deriving Repr, DecidableEq

/-- The wording of a reason. -/
def Utf8Reason.text : Utf8Reason → String
  | badStart => "invalid start byte"
  | badContinuation => "invalid continuation byte"
  | tooShort => "unexpected end of data"

/-- The first bytes of a list that make no character, and how many bytes come before them. -/
structure Utf8Fault where
  position : Nat
  bytes : List UInt8
  reason : Utf8Reason
  deriving Repr, DecidableEq

/-- The place of a fault: a byte or a range of bytes. -/
def Utf8Fault.place (f : Utf8Fault) : String :=
  match f.bytes with
  | [b] => s!"byte 0x{String.ofList (hexDigits 2 b.toNat)} in position {f.position}"
  | bytes => s!"bytes in position {f.position}-{f.position + bytes.length - 1}"

/-- The message of a fault. -/
def Utf8Fault.message (f : Utf8Fault) : String :=
  s!"'utf-8' codec can't decode {f.place}: {f.reason.text}"

/-- The fault of a byte after which reading stopped with `left` still to come. -/
def utf8FaultAt (position : Nat) (b : UInt8) (rest left : List UInt8) : Utf8Fault :=
  { position
    bytes := b :: rest.take (rest.length - left.length)
    reason :=
      if (leadByte? b.toNat).isNone then .badStart
      else if left.isEmpty then .tooShort
      else .badContinuation }

/-- The text of a byte list that stands behind `position` other bytes, if the bytes are UTF-8. -/
def decodeUtf8From (position : Nat) : List UInt8 → Except Utf8Fault (List Char)
  | [] => .ok []
  | b :: rest =>
    match _h : readChar b rest with
    | .error left => .error (utf8FaultAt position b rest left)
    | .ok (c, left) =>
      match decodeUtf8From (position + c.utf8Size) left with
      | .ok cs => .ok (c :: cs)
      | .error fault => .error fault
termination_by bytes => bytes.length
decreasing_by exact Nat.lt_succ_of_le (readChar_length.1 c left _h)

/-- The text of a byte list, if the bytes are UTF-8. -/
def decodeUtf8 (bytes : List UInt8) : Except Utf8Fault (List Char) :=
  decodeUtf8From 0 bytes

/-- The text of a byte list, if the bytes are UTF-8. -/
def decodeUtf8? (bytes : List UInt8) : Option (List Char) :=
  (decodeUtf8 bytes).toOption

/-- The text of a byte list, with the replacement character for what is not UTF-8. -/
def decodeUtf8Lossy : List UInt8 → List Char
  | [] => []
  | b :: rest =>
    match _h : readChar b rest with
    | .ok (c, left) => c :: decodeUtf8Lossy left
    | .error left => '\uFFFD' :: decodeUtf8Lossy left
termination_by bytes => bytes.length
decreasing_by
  · exact Nat.lt_succ_of_le (readChar_length.1 c left _h)
  · exact Nat.lt_succ_of_le (readChar_length.2 left _h)

/-- The bytes of a text. -/
def encodeUtf8 (s : String) : List UInt8 :=
  s.toList.flatMap String.utf8EncodeChar

end LessonCalc.Text
