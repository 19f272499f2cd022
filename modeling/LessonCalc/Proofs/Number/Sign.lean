import LessonCalc.Proofs.Number.Range
import LessonCalc.Proofs.Number.Zeros

/-!
# Signs

A finite number is negative if its sign bit is set and its magnitude is not zero.  Negating a number that
is not zero turns its sign bit over and leaves its magnitude.

* `beq_zero_iff_mantissa`, `lt_zero_iff`: zeros and negative numbers, told by their parts.
* `isSigned_neg`, `magnitude_neg`: the parts of the negation of a number.
-/

namespace LessonCalc.Number

open Float.Model Float.Model.UnpackedFloat

variable {x : Float}

/-- A finite number is zero if its magnitude is. -/
theorem beq_zero_iff_mantissa (finite : x.isFinite = true) :
    (x == 0.0) = true ↔ (magnitude x).mantissa = 0 := by
  refine ⟨mantissa_of_zero, fun zero => beq_zero_iff.mpr ⟨signOf x, ?_⟩⟩
  rw [unpack_eq finite, dif_pos zero]

/-- A number is negative if it has the sign of one and is not zero. -/
theorem lt_zero_iff (finite : x.isFinite = true) :
    x < 0.0 ↔ isSigned x = true ∧ (magnitude x).mantissa ≠ 0 := by
  have unfolded : x < 0.0 ↔
      (x.toModel.unpack.compare (.zero .positive) == some .lt) = true := decide_eq_true_iff
  rw [unfolded, unpack_eq finite, signOf]
  by_cases zero : (magnitude x).mantissa = 0
  · rw [dif_pos zero]
    cases isSigned x <;> simp [UnpackedFloat.compare, zero]
  · rw [dif_neg zero]
    cases isSigned x <;> simp [UnpackedFloat.compare, zero]

/-- A negated number is unpacked to the negated parts. -/
theorem unpack_neg (finite : x.isFinite = true) (nonzero : (magnitude x).mantissa ≠ 0) :
    (-x).toModel.unpack = .finite (-signOf x) (magnitude x).mantissa (magnitude x).exponent
      (Nat.pos_of_ne_zero nonzero) := by
  have negated : (-x).toModel.unpack = (Float.Model.pack x.toModel.unpack.neg).unpack := rfl
  have canonical := canonical_magnitude finite nonzero
  rw [negated, unpack_eq finite, dif_neg nonzero]
  exact unpack_pack_finite (-signOf x) canonical

theorem parts_neg (finite : x.isFinite = true) (nonzero : (magnitude x).mantissa ≠ 0) :
    signOf (-x) = -signOf x ∧ magnitude (-x) = magnitude x := by
  have parts := unpack_neg finite nonzero
  rw [unpack_eq ((isFinite_neg x).trans finite)] at parts
  split at parts
  next => cases parts
  next =>
    obtain ⟨sign, mantissa, exponent⟩ := UnpackedFloat.finite.inj parts
    exact ⟨sign, congrArg₂ Dyadic.mk mantissa exponent⟩

theorem isSigned_neg (finite : x.isFinite = true) (nonzero : (magnitude x).mantissa ≠ 0) :
    isSigned (-x) = !isSigned x := by
  have sign := (parts_neg finite nonzero).1
  unfold signOf at sign
  cases negative : isSigned x <;> cases negative' : isSigned (-x) <;> rw [negative, negative'] at sign
  · cases sign
  · rfl
  · rfl
  · cases sign

theorem magnitude_neg (finite : x.isFinite = true) (nonzero : (magnitude x).mantissa ≠ 0) :
    magnitude (-x) = magnitude x :=
  (parts_neg finite nonzero).2

end LessonCalc.Number
