import LessonCalc.Number.Binary64
import Mathlib

/-!
# Facts about the 64-bit binary format

The core library describes a floating-point number by its bits, and its operations on an unpacked form
with a case for each kind of number.  What is needed of them here is little.  That packing undoes
unpacking is known in Batteries, in a part that only Mathlib as a whole brings along.

* `pack_unpack`: taking a number apart and putting it together again changes nothing.
* `add_zero_of_isFinite`: so adding zero to a finite number changes nothing but the sign of zero.
* `log2_of_ofInt?`: an integer with a nearest number has at most 1024 binary digits.
-/

namespace LessonCalc.Number

open Float.Model Float.Model.UnpackedFloat

/-! ## Finite numbers -/

/-- Taking a number apart and putting it together again changes nothing. -/
theorem pack_unpack (x : Float.Model) : Float.Model.pack x.unpack = x := by
  obtain ⟨⟨b⟩, valid⟩ := x
  simp only [Float.Model.pack, Float.Model.unpack, pack_unpack_of_valid valid]

theorem isNaN_of_isFinite {x : Float} (finite : x.isFinite = true) : x.isNaN = false := by
  have finite' : x.toModel.unpack.isFinite = true := finite
  have same : x.isNaN = x.toModel.unpack.isNaN := rfl
  rw [same]
  cases parts : x.toModel.unpack <;> rw [parts] at finite' <;> first | rfl | cases finite'

theorem isInf_of_isFinite {x : Float} (finite : x.isFinite = true) : x.isInf = false := by
  have finite' : x.toModel.unpack.isFinite = true := finite
  have same : x.isInf = x.toModel.unpack.isInf := rfl
  rw [same]
  cases parts : x.toModel.unpack <;> rw [parts] at finite' <;> first | rfl | cases finite'

/-- Adding zero to a finite number changes nothing but the sign of zero. -/
theorem add_zero_of_isFinite {x : Float} (finite : x.isFinite = true) :
    x + 0.0 = if x == 0.0 then 0.0 else x := by
  have sum : x + 0.0 = .ofModel (.pack (UnpackedFloat.add Format.binary64 x.toModel.unpack
    (.zero .positive))) := rfl
  have same : (x == 0.0) = x.toModel.unpack.beq (.zero .positive) := rfl
  have finite' : x.toModel.unpack.isFinite = true := finite
  have whole := pack_unpack x.toModel
  rw [sum, same]
  cases parts : x.toModel.unpack with
  | infinity s => rw [parts] at finite'; cases finite'
  | notANumber => rw [parts] at finite'; cases finite'
  | zero s => cases s <;> rfl
  | finite s m e positive =>
      rw [parts] at whole
      simp only [UnpackedFloat.add, whole]
      cases s <;> rfl

/-! ## Numbers out of range -/

theorem mantissa_shiftRight (em : ExtendedMantissa) (k : Nat) :
    (em >>> k).mantissa = em.mantissa / 2 ^ k := by
  induction k with
  | zero => simp [HShiftRight.hShiftRight, Nat.repeat]
  | succ k ih =>
      have step : (em >>> (k + 1)).mantissa = (em >>> k).mantissa / 2 := rfl
      rw [step, ih, Nat.div_div_eq_div_mul, Nat.pow_succ]

theorem mantissa_le_roundedMantissa (em : ExtendedMantissa) :
    em.mantissa ≤ em.roundedMantissa := by
  rcases em with ⟨m, round, sticky⟩
  cases round <;> cases sticky <;>
    simp [ExtendedMantissa.roundedMantissa, ExtendedMantissa.accuracy, Accuracy.roundToNearestEven]

/-- Shifting a mantissa to its target keeps its leading digit, and does not lower the exponent. -/
theorem shiftToTargetExponent_spec {m : Nat} {e : Int} (positive : m ≠ 0) (least : -1074 ≤ e) :
    (shiftToTargetExponent Format.binary64 m e .exact).1.mantissa ≠ 0 ∧
      e ≤ (shiftToTargetExponent Format.binary64 m e .exact).2 ∧
      m.log2 + e - 52 ≤ (shiftToTargetExponent Format.binary64 m e .exact).2 := by
  have target : Format.binary64.targetExponent (totalExponent m e) =
      max (m.log2 + 1 + e - 53) (-1074) := rfl
  simp only [shiftToTargetExponent, shiftToExponent, target, mantissa_shiftRight,
    ExtendedMantissa.ofMantissaAndAccuracy]
  refine ⟨?_, by omega, by omega⟩
  have few : (max ((m.log2 : Int) + 1 + e - 53) (-1074) - e).toNat ≤ m.log2 := by omega
  have power := Nat.pow_le_pow_right (n := 2) (by decide) few
  have whole := Nat.log2_self_le positive
  exact Nat.ne_of_gt (Nat.div_pos (Nat.le_trans power whole) (Nat.two_pow_pos _))

/-- A number whose leading digit is too high is packed as infinity. -/
theorem pack_roundWithAccuracy {s : Sign} {m : Nat} {e : Int} (positive : m ≠ 0) (least : -1074 ≤ e)
    (high : 1024 ≤ m.log2 + e) :
    UnpackedFloat.pack Format.binary64 (roundWithAccuracy Format.binary64 s m e .exact) =
      packedInfinity Format.binary64 s := by
  obtain ⟨nonzero, _, first⟩ := shiftToTargetExponent_spec positive least
  have rounded : (shiftToTargetExponent Format.binary64 m e .exact).1.roundedMantissa ≠ 0 :=
    fun zero => nonzero (Nat.le_zero.mp (zero ▸ mantissa_le_roundedMantissa _))
  have least' : -1074 ≤ (shiftToTargetExponent Format.binary64 m e .exact).2 := by omega
  obtain ⟨nonzero', second, _⟩ := shiftToTargetExponent_spec rounded least'
  unfold roundWithAccuracy
  dsimp only
  rw [dif_neg nonzero']
  simp only [UnpackedFloat.pack]
  refine if_pos ?_
  simp only [Format.exponentBias]
  omega

theorem log2_shiftLeft {n : Nat} (positive : n ≠ 0) (k : Nat) : (n <<< k).log2 = n.log2 + k := by
  have low := Nat.log2_self_le positive
  have high := Nat.lt_log2_self (n := n)
  rw [Nat.shiftLeft_eq]
  refine (Nat.log2_eq_iff (by simp [positive])).mpr ⟨?_, ?_⟩
  · rw [Nat.pow_add]
    exact Nat.mul_le_mul_right _ low
  · rw [Nat.add_right_comm, Nat.pow_add]
    exact Nat.mul_lt_mul_of_pos_right high (Nat.two_pow_pos _)

/-- A natural number is read as a product, with as many digits behind its last one as a mantissa has. -/
theorem ofScientific_zero {n : Nat} (positive : n ≠ 0) :
    UnpackedFloat.ofScientific Format.binary64 n (Int.ofNat 0) =
      roundWithAccuracy Format.binary64 .positive (n <<< 53 * 10 ^ 0) (-53 + 0) .exact := by
  have notSmall : ¬Int.ofNat 0 < -((2 : Int) ^ 11 + n.log2) := by
    simp only [Int.ofNat_eq_natCast]
    omega
  rw [UnpackedFloat.ofScientific, dif_neg positive, if_neg (by decide), if_neg notSmall,
    if_pos (by decide)]
  rfl

/-- A natural number that is too large is nearest to infinity. -/
theorem ofNat_eq_infinity {n : Nat} (large : 1024 ≤ n.log2) :
    Float.ofNat n = .ofModel (.pack (.infinity .positive)) := by
  have positive : n ≠ 0 := fun zero => by
    rw [zero] at large
    exact absurd large (by decide)
  have slow : ¬(n < 2 ^ 53 ∧ 0 ≤ 22) := fun small => by
    have bits := (Nat.log2_lt positive).mpr small.1
    omega
  have unfolded : Float.ofNat n = Float.ofScientific n false 0 := rfl
  have bits : (n <<< 53 * 10 ^ 0).log2 = n.log2 + 53 := by
    rw [Nat.pow_zero, Nat.mul_one, log2_shiftLeft positive]
  have nonzero : n <<< 53 * 10 ^ 0 ≠ 0 := by
    intro zero
    rw [zero, Nat.log2_zero] at bits
    omega
  rw [unfolded, Float.ofScientific, dif_neg slow]
  simp only [Bool.false_eq_true, ↓reduceIte, Float.Model.ofScientific, ofScientific_zero positive,
    Float.Model.pack,
    pack_roundWithAccuracy nonzero (by decide : (-1074 : Int) ≤ -53 + 0) (by omega)]
  rfl

/-- An integer that has a nearest number has at most 1024 binary digits. -/
theorem log2_of_ofInt? {n : Int} {x : Float} (near : ofInt? n = some x) : n.natAbs.log2 < 1024 := by
  refine Nat.lt_of_not_le fun large => ?_
  have far : (Float.ofInt n).isFinite = false := by
    cases n with
    | ofNat n =>
        have same : Float.ofInt (Int.ofNat n) = Float.ofNat n := rfl
        have large' : 1024 ≤ n.log2 := large
        rw [same, ofNat_eq_infinity large']
        rfl
    | negSucc n =>
        have same : Float.ofInt (Int.negSucc n) = Float.neg (Float.ofNat (n + 1)) := rfl
        have large' : 1024 ≤ (n + 1).log2 := large
        rw [same, ofNat_eq_infinity large']
        rfl
  simp [ofInt?, far] at near

end LessonCalc.Number
