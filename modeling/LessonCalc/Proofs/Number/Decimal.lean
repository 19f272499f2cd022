import LessonCalc.Proofs.Number.Scientific

/-!
# Decimals are numbers

Whatever its digits and its exponent, a decimal is read as a number: infinity or zero where it is far out of
range, and otherwise what a product or a quotient of two positive numbers is rounded to.

* `isNaN_pack`: what is packed is a number if it was one before.
* `Decimal.isNaN_toFloat`: so a decimal is read as a number.
* `isNaN_signed`: a sign changes nothing about that.
-/

namespace LessonCalc.Number

open Float.Model Float.Model.UnpackedFloat

/-! ## Unpacked numbers -/

section Unpacked

variable {u : UnpackedFloat}

/-- Stored parts are those of a number unless all bits of the exponent are set. -/
theorem isNaN_packComponents (s : Sign) {exponent : BitVec 11} (mantissa : BitVec 52)
    (notAll : exponent ≠ -1#11) :
    (UnpackedFloat.unpack Format.binary64 (packComponents Format.binary64 s exponent mantissa)).isNaN =
      false := by
  unfold UnpackedFloat.unpack
  simp only [unpackExponent_packComponents, if_neg notAll]
  split
  · split <;> rfl
  · rfl

/-- What is packed is a number if it was one before. -/
theorem isNaN_pack (number : u.isNaN = false) : (Float.ofModel (.pack u)).isNaN = false := by
  have unfolded : (Float.ofModel (.pack u)).isNaN =
    (UnpackedFloat.unpack Format.binary64 (UnpackedFloat.pack Format.binary64 u)).isNaN := rfl
  have infinite : ∀ s, (UnpackedFloat.unpack Format.binary64 (packedInfinity Format.binary64 s)).isNaN =
      false := by
    intro s
    cases s <;> rfl
  rw [unfolded]
  cases u with
  | notANumber => cases number
  | infinity s => exact infinite s
  | zero s => cases s <;> rfl
  | finite s m e positive =>
      simp only [UnpackedFloat.pack]
      split
      next => exact infinite s
      next inside =>
        have bits : 2 ^ Format.binary64.exponentBits = 2048 := by decide
        rw [bits] at inside
        generalize (e + Format.binary64.exponentBias +
          Format.binary64.mantissaBitsWithoutImplicit).toNat = biased at inside
        split
        next =>
          refine isNaN_packComponents s _ fun all => ?_
          have stored := congrArg BitVec.toNat all
          have greatest : (-1#11 : BitVec 11).toNat = 2047 := by decide
          rw [BitVec.toNat_ofNat, greatest] at stored
          omega
        next => exact isNaN_packComponents s _ (by decide)

/-- Rounding gives a number. -/
theorem isNaN_roundWithAccuracy (s : Sign) (m : Nat) (e : Int) (a : Accuracy) :
    (roundWithAccuracy Format.binary64 s m e a).isNaN = false := by
  unfold roundWithAccuracy
  dsimp only
  split <;> rfl

theorem isNaN_mul_finite (s s' : Sign) {m m' : Nat} (e e' : Int) (positive : 0 < m)
    (positive' : 0 < m') :
    (UnpackedFloat.mul Format.binary64 (.finite s m e positive) (.finite s' m' e' positive')).isNaN =
      false :=
  isNaN_roundWithAccuracy _ _ _ _

theorem isNaN_div_finite (s s' : Sign) {m m' : Nat} (e e' : Int) (positive : 0 < m)
    (positive' : 0 < m') :
    (UnpackedFloat.div Format.binary64 (.finite s m e positive) (.finite s' m' e' positive')).isNaN =
      false :=
  isNaN_roundWithAccuracy _ _ _ _

theorem isNaN_ofScientific_unpacked (n : Nat) (k : Int) :
    (UnpackedFloat.ofScientific Format.binary64 n k).isNaN = false := by
  unfold UnpackedFloat.ofScientific
  split
  · rfl
  · split
    · rfl
    · split
      · rfl
      · split
        · exact isNaN_mul_finite _ _ _ _ _ _
        · exact isNaN_div_finite _ _ _ _ _ _

end Unpacked

/-! ## Decimals -/

/-- A positive number with an exponent is read as a number, on the fast way and on the slow one. -/
theorem isNaN_ofScientific {n : Nat} (nonzero : n ≠ 0) (negative : Bool) (k : Nat) :
    (OfScientific.ofScientific n negative k : Float).isNaN = false := by
  have unfolded : (OfScientific.ofScientific n negative k : Float) = Float.ofScientific n negative k := rfl
  rw [unfolded, Float.ofScientific]
  split
  next fast =>
    obtain ⟨m, e, positive, right, -⟩ :=
      exists_powerOfTen (j := k) (Nat.lt_succ_of_le fast.2)
    have left := unpack_toFloat nonzero fast.1
    dsimp only
    split
    · refine isNaN_pack (u := UnpackedFloat.div _ _ _) ?_
      rw [left]
      exact right ▸ isNaN_div_finite _ _ _ _ _ _
    · refine isNaN_pack (u := UnpackedFloat.mul _ _ _) ?_
      rw [left]
      exact right ▸ isNaN_mul_finite _ _ _ _ _ _
  next slow => exact isNaN_pack (isNaN_ofScientific_unpacked _ _)

/-- A decimal is read as a number. -/
theorem Decimal.isNaN_toFloat (d : Decimal) : d.toFloat.isNaN = false := by
  unfold Decimal.toFloat
  split
  · rfl
  next nonzero =>
    dsimp only
    split
    · rfl
    · split
      · rfl
      · exact isNaN_ofScientific nonzero _ _

/-- A number is one whatever its sign. -/
theorem isNaN_signed (negative : Bool) {x : Float} (number : x.isNaN = false) :
    (signed negative x).isNaN = false := by
  have unfolded : x.isNaN = x.toModel.unpack.isNaN := rfl
  have negated : -x = .ofModel (.pack x.toModel.unpack.neg) := rfl
  cases negative with
  | false => exact number
  | true =>
      rw [signed, if_pos rfl, negated]
      refine isNaN_pack ?_
      rw [unfolded] at number
      cases parts : x.toModel.unpack <;> rw [parts] at number <;> first | rfl | cases number

end LessonCalc.Number
