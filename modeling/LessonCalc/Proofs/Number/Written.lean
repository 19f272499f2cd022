import LessonCalc.Proofs.Number.Sign
import LessonCalc.Proofs.Number.Typed

/-!
# Written numbers are read again

A number is written with its shortest decimal, and a whole number also as an integer.  Both are texts of the
number that was written, down to the last bit; only the integer text of a zero has no sign.

* `numberText_numeral`: a numeral behind its sign is the text of the literal that it spells.
* `numberText_plainText`: the text of a finite number is one of that number.
* `numberText_integer`, `numberText_intText`: so is the integer text of a whole number, with zero for either
  zero.
-/

namespace LessonCalc.Number

open Json (signChars)

/-- A number, with the positive zero for either zero. -/
def unsignedZero (x : Float) : Float :=
  if x == 0.0 then 0.0 else x

variable {x : Float}

/-- A number equals itself. -/
theorem beq_self (number : x.isNaN = false) : (x == x) = true := by
  have unfolded : (x == x) = (x.toModel.unpack.compare x.toModel.unpack == some .eq) := rfl
  have number' : x.toModel.unpack.isNaN = false := number
  rw [unfolded]
  cases parts : x.toModel.unpack with
  | notANumber => rw [parts] at number'; cases number'
  | infinity s => cases s <;> rfl
  | zero s => rfl
  | finite s m e positive =>
      cases s <;> simp [Float.Model.UnpackedFloat.compare, Ordering.then]

/-- The sign of zero does not tell numbers apart. -/
theorem beq_unsignedZero (number : x.isNaN = false) : (unsignedZero x == x) = true := by
  have alike : Alike (unsignedZero x) x := by
    unfold unsignedZero
    split
    next zero => exact .inr ⟨rfl, zero⟩
    next => exact .refl x
  rw [beq_congr alike (.refl x)]
  exact beq_self number

/-- A number that does not have a property of both zeros is neither of them. -/
theorem unsignedZero_eq_self {holds : Float → Bool} (positive : holds 0.0 = true)
    (negative : holds (-0.0) = true) (fails : holds x ≠ true) : unsignedZero x = x := by
  refine if_neg fun zero => fails ?_
  have same := eq_signed_zero (isFinite_of_zero zero) (mantissa_of_zero zero)
  rw [← same]
  cases isSigned x with
  | true => exact negative
  | false => exact positive

/-! ## Numerals -/

/-- A numeral behind its sign is the text of the literal that it spells. -/
theorem numberText_numeral {t : Numeral} (spelled : t.Spelled) (negative : Bool) :
    NumberText (signed negative t.literal.toFloat) (signChars negative ++ t.chars) := by
  have signs : SignText negative (signChars negative) := by
    cases negative with
    | true => exact .minus
    | false => exact .none
  have plain := plainText_numeral spelled
  refine .literal signs ?_
  rw [Numeral.chars, Numeral.literal, ← List.append_assoc]
  cases exponent : t.exponent? with
  | none =>
      rw [exponentChars, List.append_nil]
      exact .plain plain
  | some e =>
      obtain ⟨nonempty, inside⟩ := spelled.exponent e exponent
      have signs : SignText e.1 [if e.1 then '-' else '+'] := by
        cases e.1 with
        | true => exact .minus
        | false => exact .plus
      exact .scaled plain (.mk (.inl rfl) signs nonempty inside)

/-- The text of a finite number is one of that number. -/
theorem numberText_plainText (finite : x.isFinite = true) : NumberText x (plainText x).toList := by
  obtain ⟨t, chars, spelled, value⟩ := exists_numeral_plainText finite
  have whole := numberText_numeral spelled (isSigned x)
  rwa [signed_toFloat_literal finite value, ← chars] at whole

/-! ## Integers -/

/-- The size of the integer part of a number. -/
theorem natAbs_truncate (x : Float) :
    (truncate x).natAbs = (magnitude x).mantissa * 2 ^ (magnitude x).exponent.toNat /
      2 ^ (-(magnitude x).exponent).toNat := by
  unfold truncate
  dsimp only
  split
  · exact Int.natAbs_neg _
  · rfl

/-- The integer part of a whole number has the size of its magnitude. -/
theorem natAbs_truncate_of_isWhole (whole : isWhole x = true) :
    ((truncate x).natAbs : ℚ) = (magnitude x).value := by
  have none : (magnitude x).mantissa % 2 ^ (-(magnitude x).exponent).toNat = 0 :=
    of_decide_eq_true (Bool.and_eq_true_iff.mp whole).2
  have divides : 2 ^ (-(magnitude x).exponent).toNat ∣
      (magnitude x).mantissa * 2 ^ (magnitude x).exponent.toNat :=
    Dvd.dvd.mul_right (Nat.dvd_of_mod_eq_zero none) _
  rw [natAbs_truncate, Nat.cast_div divides (by positivity), Dyadic.value, zpow_eq_div two_ne_zero]
  push_cast
  exact mul_div_assoc _ _ _

/-- The integer part of a whole number is zero only if the number is. -/
theorem truncate_eq_zero_iff (whole : isWhole x = true) :
    truncate x = 0 ↔ (magnitude x).mantissa = 0 := by
  have size := natAbs_truncate_of_isWhole whole
  have power : (2 : ℚ) ^ (magnitude x).exponent ≠ 0 := zpow_ne_zero _ two_ne_zero
  rw [Dyadic.value] at size
  calc truncate x = 0 ↔ ((truncate x).natAbs : ℚ) = 0 := by simp
    _ ↔ (magnitude x).mantissa = 0 := by simp [size, power]

/-- The integer part has the sign of the number, if it is not zero. -/
theorem truncate_lt_zero_iff (nonzero : truncate x ≠ 0) : truncate x < 0 ↔ isSigned x = true := by
  unfold truncate at nonzero ⊢
  dsimp only at nonzero ⊢
  generalize (magnitude x).mantissa * Nat.pow 2 (magnitude x).exponent.toNat /
    Nat.pow 2 (-(magnitude x).exponent).toNat = w at nonzero ⊢
  cases negative : isSigned x with
  | true =>
      rw [negative, if_pos rfl] at nonzero
      rw [if_pos rfl]
      exact iff_of_true (by omega) rfl
  | false =>
      rw [if_neg Bool.false_ne_true]
      exact iff_of_false (by omega) Bool.false_ne_true

/-- The text of an integer is one of the number nearest to it. -/
theorem numberText_integer (n : Int) :
    NumberText (signed (decide (n < 0)) (Decimal.toFloat ⟨n.natAbs, 0⟩)) (intText n).toList := by
  have spelled := numberText_numeral (@spelled_natChars n.natAbs [] (by simp)) (decide (n < 0))
  have digits : (Numeral.literal ⟨natChars n.natAbs, [], none⟩).decimal = ⟨n.natAbs, 0⟩ := by
    rw [Numeral.literal, Literal.decimal, List.append_nil, ofDigitChars_natChars]
    rfl
  have chars : (intText n).toList =
      signChars (decide (n < 0)) ++ Numeral.chars ⟨natChars n.natAbs, [], none⟩ := by
    rw [intText, String.toList_ofList, Json.intChars_eq, Numeral.chars]
    simp [pointChars, exponentChars]
  rwa [Literal.toFloat, digits, ← chars] at spelled

/-- The integer text of a whole number is one of that number, with zero for either zero. -/
theorem numberText_intText (whole : isWhole x = true) :
    NumberText (unsignedZero x) (intText (truncate x)).toList := by
  have finite : x.isFinite = true := (Bool.and_eq_true_iff.mp whole).1
  have spelled := numberText_integer (truncate x)
  by_cases zero : (magnitude x).mantissa = 0
  · rw [(truncate_eq_zero_iff whole).mpr zero] at spelled ⊢
    rw [unsignedZero, if_pos ((beq_zero_iff_mantissa finite).mpr zero)]
    exact spelled
  · have canonical := canonical_magnitude finite zero
    have admits : (magnitude x).Admits (Decimal.value ⟨(truncate x).natAbs, 0⟩) := by
      rw [Decimal.value, zpow_zero, mul_one, natAbs_truncate_of_isWhole whole]
      exact Dyadic.admits_value _
    have sign : decide (truncate x < 0) = isSigned x := by
      rw [Bool.eq_iff_iff, decide_eq_true_iff]
      exact truncate_lt_zero_iff (mt (truncate_eq_zero_iff whole).mp zero)
    rw [Decimal.toFloat_of_admits canonical admits, sign, eq_signed_ofParts finite zero] at spelled
    rwa [unsignedZero, if_neg (mt (beq_zero_iff_mantissa finite).mp zero)]

end LessonCalc.Number
