import LessonCalc.Json.Reader
import Mathlib.Tactic.Common

/-!
# Strings in JSON

A string that was written is read again, whatever follows it, unless it holds half of a character.  A
character is escaped by one code unit or by two, and a pair of them is read as one character: two halves
in a row would be written like the character that they make.

* `readString_escapeChar`: one written character is read with one step.
* `readStringAt_stringChars`: a written string is read again.
-/

namespace LessonCalc.Json

open LessonCalc.Text

/-! ## Code units -/

theorem hexValue?_hexDigitChar (n : Nat) : hexValue? (hexDigitChar n) = some (n % 16) := by
  have all : ∀ d < 16, hexValue? (hexDigitChar d) = some d := by decide
  have reduced : hexDigitChar n = hexDigitChar (n % 16) := by
    simp only [hexDigitChar, Nat.mod_mod]
  rw [reduced]
  exact all _ (Nat.mod_lt _ (by decide))

theorem hexDigits_four (n : Nat) :
    hexDigits 4 n = [hexDigitChar (n / 16 / 16 / 16), hexDigitChar (n / 16 / 16),
      hexDigitChar (n / 16), hexDigitChar n] :=
  rfl

/-- The four digits of a code unit spell it. -/
theorem hexUnit?_hexDigits {n : Nat} (small : n < 0x10000) :
    hexUnit? (hexDigitChar (n / 16 / 16 / 16)) (hexDigitChar (n / 16 / 16))
      (hexDigitChar (n / 16)) (hexDigitChar n) = some n := by
  simp only [hexUnit?, hexValue?_hexDigitChar, Option.pure_def, Option.bind_eq_bind,
    Option.bind_some, Option.some.injEq]
  omega

variable {opening rest : List Char} {done : List Code} {fuel : Nat}

/-- An escaped code unit that does not start a pair is read by itself. -/
theorem codeEscape?_unit {n : Nat} (small : n < 0x10000) (whole : isHighSurrogate n = false)
    (e : Char) (rest : List Char) :
    codeEscape? ('u' :: (hexDigits 4 n ++ e :: rest)) = .ok (.ofNat n, e :: rest) := by
  rw [hexDigits_four]
  simp only [List.cons_append, List.nil_append, codeEscape?, hexUnit?_hexDigits small, whole]

/-- Two escaped code units that are the halves of a pair are read as one character. -/
theorem codeEscape?_pair {high low : Nat} (first : 0xD800 ≤ high ∧ high ≤ 0xDBFF)
    (second : 0xDC00 ≤ low ∧ low ≤ 0xDFFF) (e : Char) (rest : List Char) :
    codeEscape? ('u' :: (hexDigits 4 high ++ (unitEscape low ++ e :: rest))) =
      .ok (.char (pairChar high low), e :: rest) := by
  have isHigh : isHighSurrogate high = true := by simp [isHighSurrogate, first]
  have isLow : isLowSurrogate low = true := by simp [isLowSurrogate, second]
  rw [unitEscape, hexDigits_four, hexDigits_four]
  simp only [List.cons_append, List.nil_append, codeEscape?,
    hexUnit?_hexDigits (show high < 0x10000 by omega), isHigh,
    hexUnit?_hexDigits (show low < 0x10000 by omega), isLow, if_true]

/-! ## Characters -/

variable {c : Char}

/-- The code point of a character is no half of a pair. -/
theorem toNat_valid (c : Char) : c.toNat < 0xD800 ∨ (0xDFFF < c.toNat ∧ c.toNat < 0x110000) :=
  c.valid

theorem ofNat_toNat (c : Char) : Code.ofNat c.toNat = .char c := by
  have valid := toNat_valid c
  rw [Code.ofNat, dif_neg (by omega), Char.ofNat_toNat]

/-- The halves of a character beyond the basic plane make the character. -/
theorem pairChar_halves (high : 0x10000 ≤ c.toNat) :
    pairChar (0xD800 + (c.toNat - 0x10000) / 0x400) (0xDC00 + (c.toNat - 0x10000) % 0x400) = c := by
  have sum : 0x10000 + (0xD800 + (c.toNat - 0x10000) / 0x400 - 0xD800) * 0x400 +
      (0xDC00 + (c.toNat - 0x10000) % 0x400 - 0xDC00) = c.toNat := by omega
  rw [pairChar, sum, Char.ofNat_toNat]

/-- A character that stands for itself is read. -/
theorem readString_plain (quote : c ≠ '"') (backslash : c ≠ '\\') (printable : 0x20 ≤ c.toNat) :
    readString opening (fuel + 1) done (c :: rest) = readString opening fuel (.char c :: done) rest := by
  rw [readString.eq_def]
  dsimp only
  rw [if_neg quote, if_neg backslash, if_neg (Nat.not_lt.mpr printable)]

/-- An escaped code is read as the one that the escape stands for. -/
theorem readString_code {x : Code} {left : List Char} {more : List Char}
    (code : codeEscape? ('u' :: more) = .ok (x, left)) :
    readString opening (fuel + 1) done ('\\' :: 'u' :: more) =
      readString opening fuel (x :: done) left := by
  rw [readString.eq_def]
  dsimp only
  rw [if_neg (by decide), if_pos rfl, if_pos rfl, code]

/-- A written character is read with one step. -/
theorem readString_escapeChar (c e : Char) :
    readString opening (fuel + 1) done (escapeChar c ++ e :: rest) =
      readString opening fuel (.char c :: done) (e :: rest) := by
  unfold escapeChar
  split
  next same => subst same; rfl
  next quote =>
    split
    next same => subst same; rfl
    next backslash =>
      split
      next same => subst same; rfl
      split
      next same => subst same; rfl
      split
      next same => subst same; rfl
      split
      next same => subst same; rfl
      split
      next same => subst same; rfl
      split
      next printable => exact readString_plain quote backslash printable.1
      split
      next basic =>
        have valid := toNat_valid c
        have single : isHighSurrogate c.toNat = false := by
          simp only [isHighSurrogate, Bool.and_eq_false_iff, decide_eq_false_iff_not]
          omega
        have code := codeEscape?_unit basic single e rest
        rw [ofNat_toNat] at code
        exact readString_code code
      next beyond =>
        have valid := toNat_valid c
        have code := codeEscape?_pair (show 0xD800 ≤ 0xD800 + (c.toNat - 0x10000) / 0x400 ∧ _ by omega)
          (show 0xDC00 ≤ 0xDC00 + (c.toNat - 0x10000) % 0x400 ∧ _ by omega) e rest
        rw [pairChar_halves (Nat.not_lt.mp beyond)] at code
        rw [List.append_assoc]
        exact readString_code code

/-! ## Strings -/

/-- The characters of a written string are read one by one, up to its closing quote. -/
theorem readString_flatMap {cs : List Char} (enough : cs.length < fuel) :
    readString opening fuel done (cs.flatMap escapeChar ++ '"' :: rest) =
      .ok (.ofCodes (done.reverse ++ cs.map .char), rest) := by
  induction cs generalizing fuel done with
  | nil =>
      obtain ⟨fuel, rfl⟩ := Nat.exists_eq_add_one_of_ne_zero (Nat.ne_zero_of_lt enough)
      rw [List.flatMap_nil, List.nil_append, List.map_nil, List.append_nil]
      rfl
  | cons c cs ih =>
      obtain ⟨fuel, rfl⟩ := Nat.exists_eq_add_one_of_ne_zero (Nat.ne_zero_of_lt enough)
      have next : ∃ e more, cs.flatMap escapeChar ++ '"' :: rest = e :: more := by
        cases both : cs.flatMap escapeChar ++ '"' :: rest with
        | nil => exact absurd both (by simp)
        | cons e more => exact ⟨e, more, rfl⟩
      obtain ⟨e, more, split⟩ := next
      rw [List.flatMap_cons, List.append_assoc, split,
        readString_escapeChar c e, ← split, ih (Nat.lt_of_succ_lt_succ enough),
        List.reverse_cons, List.append_assoc, List.singleton_append, List.map_cons]

theorem escapeChar_ne_nil (c : Char) : escapeChar c ≠ [] := by
  unfold escapeChar
  repeat' split
  all_goals exact List.cons_ne_nil _ _

theorem length_le_flatMap_escapeChar (cs : List Char) :
    cs.length ≤ (cs.flatMap escapeChar).length := by
  induction cs with
  | nil => exact Nat.le_refl _
  | cons c cs ih =>
      have some := List.length_pos_iff.mpr (escapeChar_ne_nil c)
      rw [List.flatMap_cons, List.length_append, List.length_cons]
      omega

theorem stringChars_append (s : RawText) (rest : List Char) :
    stringChars s ++ rest = '"' :: (s.codes.flatMap escapeCode ++ '"' :: rest) := by
  simp only [stringChars, List.cons_append, List.append_assoc, List.nil_append]

/-- A written string is read again. -/
theorem readStringAt_stringChars {s : RawText} (whole : s.isTorn = false) (rest : List Char) :
    readStringAt (stringChars s ++ rest) = .ok (s, rest) := by
  obtain ⟨s, rfl⟩ := RawText.isTorn_eq_false_iff.mp whole
  have written : (RawText.whole s).codes.flatMap escapeCode = s.toList.flatMap escapeChar := by
    rw [RawText.codes_whole, List.flatMap_map]
    rfl
  have enough : s.toList.length < ('"' :: (s.toList.flatMap escapeChar ++ '"' :: rest)).length := by
    have := length_le_flatMap_escapeChar s.toList
    rw [List.length_cons, List.length_append]
    omega
  rw [stringChars_append, written, readStringAt, List.drop_one, List.tail_cons,
    readString_flatMap enough, List.reverse_nil, List.nil_append, RawText.ofCodes_map_char,
    String.ofList_toList]

end LessonCalc.Json
