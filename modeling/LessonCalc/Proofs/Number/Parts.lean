import LessonCalc.Number.Literal
import LessonCalc.Proofs.Number.Rounding

/-!
# The parts of a number

A finite number of the format is its sign and its magnitude, which are read off its bits.

* `canonical_magnitude`: the magnitude of a finite number other than zero is a canonical dyadic.
* `ofParts`, `unpack_pack_finite`: the positive number of a canonical dyadic, which can be taken apart again.
* `eq_signed_ofParts`: a finite number is the number of its magnitude with its sign.
-/

namespace LessonCalc.Number

open Float.Model Float.Model.UnpackedFloat

/-! ## Bits -/

section Bits

variable (b : BitVec 64)

theorem toNat_unpackMantissa :
    (@unpackMantissa Format.binary64 b).toNat = b.toNat % 2 ^ 52 := by
  simp [unpackMantissa]

theorem toNat_unpackExponent :
    (@unpackExponent Format.binary64 b).toNat = b.toNat / 2 ^ 52 % 2 ^ 11 := by
  simp [unpackExponent, Nat.shiftRight_eq_div_pow]

theorem toNat_unpackSign :
    (@unpackSign Format.binary64 b).toNat = b.toNat / 2 ^ 63 % 2 := by
  simp [unpackSign, Nat.shiftRight_eq_div_pow]

theorem toNat_one_append (m : BitVec 52) : (1#1 ++ m).toNat = 2 ^ 52 + m.toNat := by
  rw [BitVec.toNat_append, Nat.shiftLeft_eq]
  exact (Nat.two_pow_add_eq_or_of_lt m.isLt 1).symm

variable {b}

theorem exponentBias_eq : (Format.binary64.exponentBias : Int) = 1023 := by
  decide

/-- A number whose exponent is stored as zero has the least one. -/
theorem unpack_of_exponent_eq_zero (least : @unpackExponent Format.binary64 b = 0#11)
    (nonzero : @unpackMantissa Format.binary64 b ≠ 0#52) :
    UnpackedFloat.unpack Format.binary64 b =
      .finite (.ofBitVec (@unpackSign Format.binary64 b))
        (@unpackMantissa Format.binary64 b).toNat (-1074)
        (by simpa [BitVec.toNat_pos, BitVec.pos_iff_ne_zero] using nonzero) := by
  unfold UnpackedFloat.unpack
  dsimp only
  rw [if_neg (by rw [least]; decide), if_pos least, dif_neg nonzero]
  simp only [exponentBias_eq, least]
  rfl

/-- A number of another exponent has a leading bit that is not stored. -/
theorem unpack_of_exponent_ne (some : @unpackExponent Format.binary64 b ≠ 0#11)
    (notAll : @unpackExponent Format.binary64 b ≠ -1#11) :
    UnpackedFloat.unpack Format.binary64 b =
      .finite (.ofBitVec (@unpackSign Format.binary64 b))
        (2 ^ 52 + (@unpackMantissa Format.binary64 b).toNat)
        ((@unpackExponent Format.binary64 b).toNat - 1075) (by positivity) := by
  unfold UnpackedFloat.unpack
  dsimp only
  rw [if_neg notAll, if_neg some]
  simp only [exponentBias_eq, toNat_one_append]
  rfl

end Bits

/-- The sign of a number. -/
def signOf (x : Float) : Sign :=
  if isSigned x then .negative else .positive

variable {x : Float}

theorem ofBitVec_unpackSign (x : Float) :
    Sign.ofBitVec (@unpackSign Format.binary64 x.toBits.toBitVec) = signOf x := by
  have small : x.toBits.toNat < 2 ^ 64 := x.toBits.toNat_lt
  have bit := toNat_unpackSign x.toBits.toBitVec
  rw [UInt64.toNat_toBitVec] at bit
  have clear : @unpackSign Format.binary64 x.toBits.toBitVec = 0#1 ↔
      isSigned x = false := by
    rw [← BitVec.toNat_inj, bit, isSigned, decide_eq_false_iff_not]
    simp only [Nat.pow_eq, BitVec.toNat_zero]
    omega
  unfold Sign.ofBitVec signOf
  cases signed : isSigned x with
  | false => rw [if_pos (clear.mpr signed), if_neg Bool.false_ne_true]
  | true =>
      rw [if_neg fun zero => Bool.false_ne_true ((clear.mp zero).symm.trans signed), if_pos rfl]

/-- The exponent of a number as it is stored. -/
def storedExponent (x : Float) : Nat :=
  x.toBits.toNat / 2 ^ 52 % 2 ^ 11

/-- The mantissa of a number as it is stored. -/
def storedMantissa (x : Float) : Nat :=
  x.toBits.toNat % 2 ^ 52

theorem magnitude_eq (x : Float) :
    magnitude x = if storedExponent x = 0 then ⟨storedMantissa x, -1074⟩
      else ⟨2 ^ 52 + storedMantissa x, storedExponent x - 1075⟩ := by
  have exponent : x.toBits.toNat % Nat.pow 2 63 / hiddenBit = storedExponent x := by
    simp only [storedExponent, hiddenBit, Nat.pow_eq]
    omega
  have mantissa : x.toBits.toNat % Nat.pow 2 63 % hiddenBit = storedMantissa x := by
    simp only [storedMantissa, hiddenBit, Nat.pow_eq]
    omega
  simp only [magnitude, exponent, mantissa]
  split
  · rfl
  · congr 1
    simp only [leastExponent]
    omega

theorem toModel_unpack (x : Float) :
    x.toModel.unpack = UnpackedFloat.unpack Format.binary64 x.toBits.toBitVec :=
  rfl

theorem unpackExponent_eq_iff (x : Float) (e : BitVec 11) :
    @unpackExponent Format.binary64 x.toBits.toBitVec = e ↔
      storedExponent x = e.toNat := by
  rw [← BitVec.toNat_inj, toNat_unpackExponent, UInt64.toNat_toBitVec, storedExponent]

theorem unpackMantissa_eq_zero_iff (x : Float) :
    @unpackMantissa Format.binary64 x.toBits.toBitVec = 0#52 ↔ storedMantissa x = 0 := by
  rw [← BitVec.toNat_inj, toNat_unpackMantissa, UInt64.toNat_toBitVec, storedMantissa]
  rfl

/-- The exponent of a finite number is stored with some bit that is not set. -/
theorem storedExponent_of_isFinite (finite : x.isFinite = true) : storedExponent x < 2047 := by
  have small : storedExponent x < 2 ^ 11 := Nat.mod_lt _ (by decide)
  refine lt_of_le_of_ne (by omega) fun all => ?_
  have all' := (unpackExponent_eq_iff x (-1#11)).mpr all
  have unfolded : x.isFinite = (UnpackedFloat.unpack Format.binary64 x.toBits.toBitVec).isFinite := rfl
  rw [unfolded, UnpackedFloat.unpack] at finite
  dsimp only at finite
  rw [if_pos all'] at finite
  split at finite <;> cases finite

/-- The unpacked form of a finite number is its sign and its magnitude. -/
theorem unpack_eq (finite : x.isFinite = true) :
    x.toModel.unpack =
      if h : (magnitude x).mantissa = 0 then .zero (signOf x)
      else .finite (signOf x) (magnitude x).mantissa (magnitude x).exponent
        (Nat.pos_of_ne_zero h) := by
  have some := storedExponent_of_isFinite finite
  have notAll : @unpackExponent Format.binary64 x.toBits.toBitVec ≠ -1#11 := fun all =>
    absurd ((unpackExponent_eq_iff x (-1#11)).mp all) (by
      have : (-1#11 : BitVec 11).toNat = 2047 := by decide
      omega)
  have exponent : (@unpackExponent Format.binary64 x.toBits.toBitVec).toNat =
      storedExponent x := by
    rw [toNat_unpackExponent, UInt64.toNat_toBitVec, storedExponent]
  have mantissa : (@unpackMantissa Format.binary64 x.toBits.toBitVec).toNat =
      storedMantissa x := by
    rw [toNat_unpackMantissa, UInt64.toNat_toBitVec, storedMantissa]
  have zero := unpackExponent_eq_iff x 0#11
  rw [toModel_unpack]
  by_cases subnormal : storedExponent x = 0
  · have parts : magnitude x = ⟨storedMantissa x, -1074⟩ := by rw [magnitude_eq, if_pos subnormal]
    by_cases none : storedMantissa x = 0
    · rw [dif_pos (by rw [parts]; exact none), UnpackedFloat.unpack]
      dsimp only
      rw [if_neg notAll, if_pos (zero.mpr subnormal),
        dif_pos ((unpackMantissa_eq_zero_iff x).mpr none), ofBitVec_unpackSign]
    · rw [dif_neg (by rw [parts]; exact none), unpack_of_exponent_eq_zero (zero.mpr subnormal)
        (mt (unpackMantissa_eq_zero_iff x).mp none)]
      simp only [parts, mantissa, ofBitVec_unpackSign]
  · have parts : magnitude x = ⟨2 ^ 52 + storedMantissa x, storedExponent x - 1075⟩ := by
      rw [magnitude_eq, if_neg subnormal]
    rw [dif_neg (by rw [parts]; exact Nat.ne_of_gt (by positivity)),
      unpack_of_exponent_ne (mt zero.mp subnormal) notAll]
    simp only [parts, mantissa, exponent, ofBitVec_unpackSign]

/-- The magnitude of a finite number other than zero is a canonical dyadic. -/
theorem canonical_magnitude (finite : x.isFinite = true) (positive : (magnitude x).mantissa ≠ 0) :
    (magnitude x).Canonical := by
  have some := storedExponent_of_isFinite finite
  have small : storedMantissa x < 2 ^ 52 := Nat.mod_lt _ (by decide)
  rw [magnitude_eq] at positive ⊢
  split at positive
  next subnormal =>
    rw [if_pos subnormal]
    constructor <;> dsimp only at positive ⊢ <;> omega
  next normal =>
    rw [if_neg normal]
    constructor <;> dsimp only <;> omega

/-! ## Putting parts together -/

/-- The positive number of a canonical dyadic. -/
def ofParts (d : Dyadic) (canonical : d.Canonical) : Float :=
  .ofModel (.pack (.finite .positive d.mantissa d.exponent canonical.positive))

section Pack

variable {d : Dyadic} (s : Sign)

/-- The stored parts of a number with its leading bit. -/
theorem unpack_packComponents_normal {m k : Nat} (positive : 0 < m) (full : 2 ^ 52 ≤ m)
    (few : m < 2 ^ 53) (stored : 0 < k) (finite : k < 2047) :
    UnpackedFloat.unpack Format.binary64
        (packComponents Format.binary64 s (BitVec.ofNat 11 k) (BitVec.ofNat 52 m)) =
      .finite s m (k - 1075) positive := by
  have exponent : (BitVec.ofNat 11 k).toNat = k := Nat.mod_eq_of_lt (by omega)
  have mantissa : (BitVec.ofNat 52 m).toNat = m - 2 ^ 52 := by
    rw [BitVec.toNat_ofNat]
    omega
  rw [unpack_of_exponent_ne]
  · simp only [unpackExponent_packComponents, unpackMantissa_packComponents,
      unpackSign_packComponents, Sign.ofBitVec_toBitVec, exponent, mantissa,
      UnpackedFloat.finite.injEq, true_and, and_true]
    omega
  · rw [unpackExponent_packComponents]
    intro zero
    rw [zero] at exponent
    have : (0#11).toNat = 0 := rfl
    omega
  · rw [unpackExponent_packComponents]
    intro all
    rw [all] at exponent
    have : (-1#11 : BitVec 11).toNat = 2047 := by decide
    omega

/-- The stored parts of a number without its leading bit. -/
theorem unpack_packComponents_subnormal {m : Nat} (positive : 0 < m) (few : m < 2 ^ 52) :
    UnpackedFloat.unpack Format.binary64
        (packComponents Format.binary64 s 0#11 (BitVec.ofNat 52 m)) =
      .finite s m (-1074) positive := by
  have mantissa : (BitVec.ofNat 52 m).toNat = m := by
    rw [BitVec.toNat_ofNat]
    omega
  rw [unpack_of_exponent_eq_zero]
  · simp only [unpackMantissa_packComponents, unpackSign_packComponents,
      Sign.ofBitVec_toBitVec, mantissa]
  · rw [unpackExponent_packComponents]
  · rw [unpackMantissa_packComponents]
    intro zero
    rw [zero] at mantissa
    have : (0#52).toNat = 0 := rfl
    omega

/-- A canonical dyadic is packed without loss. -/
theorem unpack_pack_finite (canonical : d.Canonical) :
    (Float.Model.pack (.finite s d.mantissa d.exponent canonical.positive)).unpack =
      .finite s d.mantissa d.exponent canonical.positive := by
  obtain ⟨m, e⟩ := d
  obtain ⟨positive, few, least, greatest, full⟩ := canonical
  dsimp only at positive few least greatest full ⊢
  have biased : e + Format.binary64.exponentBias + Format.binary64.mantissaBitsWithoutImplicit =
      e + 1075 := by
    rw [exponentBias_eq]
    ring
  have notInfinite : ¬2 ^ Format.binary64.exponentBits ≤ (e + 1075).toNat + 1 := by
    have : 2 ^ Format.binary64.exponentBits = 2048 := by decide
    omega
  have digits : Format.binary64.mantissaBits = 53 := by decide
  simp only [Float.Model.pack, Float.Model.unpack, UnpackedFloat.pack, biased, notInfinite,
    ↓reduceIte, digits]
  by_cases normal : m.log2 + 1 = 53
  · have leading : 2 ^ 52 ≤ m := (Nat.le_log2 positive.ne').mp (by omega)
    have exponent : ((e + 1075).toNat : Int) - 1075 = e := by omega
    have whole := unpack_packComponents_normal s positive leading few
      (k := (e + 1075).toNat) (by omega) (by omega)
    rw [exponent] at whole
    rw [if_pos normal]
    exact whole
  · have few' : m < 2 ^ 52 := by
      have := (Nat.log2_lt positive.ne').mpr few
      exact (Nat.log2_lt positive.ne').mp (by omega)
    obtain rfl : e = -1074 := full.resolve_left (by omega)
    rw [if_neg normal]
    exact unpack_packComponents_subnormal s positive few'

end Pack

/-- A finite number other than zero is the number of its magnitude, with its sign. -/
theorem eq_signed_ofParts (finite : x.isFinite = true) (nonzero : (magnitude x).mantissa ≠ 0) :
    signed (isSigned x) (ofParts (magnitude x) (canonical_magnitude finite nonzero)) = x := by
  have parts := unpack_eq finite
  rw [dif_neg nonzero] at parts
  have whole := pack_unpack x.toModel
  have negated : ∀ y : Float, -y = .ofModel (.pack y.toModel.unpack.neg) := fun _ => rfl
  unfold signOf at parts
  cases negative : isSigned x with
  | false =>
      rw [negative, if_neg Bool.false_ne_true] at parts
      rw [parts] at whole
      rw [signed, if_neg Bool.false_ne_true, ofParts, whole]
  | true =>
      rw [negative, if_pos rfl] at parts
      rw [parts] at whole
      rw [signed, if_pos rfl, negated, ofParts,
        unpack_pack_finite _ (canonical_magnitude finite nonzero)]
      exact congrArg Float.ofModel whole

/-- A zero is zero with its sign. -/
theorem eq_signed_zero (finite : x.isFinite = true) (zero : (magnitude x).mantissa = 0) :
    signed (isSigned x) 0.0 = x := by
  have parts := unpack_eq finite
  rw [dif_pos zero] at parts
  have whole := pack_unpack x.toModel
  unfold signOf at parts
  cases negative : isSigned x with
  | false =>
      rw [negative, if_neg Bool.false_ne_true] at parts
      rw [parts] at whole
      exact congrArg Float.ofModel whole
  | true =>
      rw [negative, if_pos rfl] at parts
      rw [parts] at whole
      exact congrArg Float.ofModel whole

end LessonCalc.Number
