import LessonCalc.Number.Decimal
import LessonCalc.Proofs.Number.Parts

/-!
# Products, quotients and decimals

A product, a quotient and a decimal are each rounded to the number of the format that stands for their
exact value.

* `mul_finite`, `div_finite`: products and quotients of unpacked numbers.
* `ofScientific_of_admits`: a natural number times a power of ten, through either of the two ways in which
  the core library computes it.
* `Decimal.toFloat_of_admits`: a decimal is read as the number that stands for it.
-/

namespace LessonCalc.Number

open Float.Model Float.Model.UnpackedFloat

variable {d : Dyadic}

/-! ## Values of numbers of the format -/

variable {v : ℚ}

/-- A number stands for what lies less than a quarter of the gap above it below it. -/
theorem Dyadic.admits_of_lt (low : 4 * d.mantissa - 1 < 4 * (v / 2 ^ d.exponent))
    (high : v / 2 ^ d.exponent ≤ d.mantissa) : d.Admits v := by
  have some : (1 : ℚ) ≤ d.reachBelow := by exact_mod_cast Dyadic.one_le_reachBelow
  unfold Dyadic.Admits
  dsimp only
  split <;> constructor <;> linarith

/-- A number stands for itself. -/
theorem Dyadic.admits_value (d : Dyadic) : d.Admits d.value := by
  have scaled : d.value / 2 ^ d.exponent = d.mantissa :=
    mul_div_cancel_right₀ _ (by positivity)
  refine Dyadic.admits_of_lt ?_ ?_ <;> rw [scaled]
  linarith

/-- What a number other than zero stands for is not near zero. -/
theorem Dyadic.Admits.zpow_le (canonical : d.Canonical) (admits : d.Admits v) :
    (2 : ℚ) ^ (-1075 : Int) ≤ v := by
  have below : (d.reachBelow : ℚ) ≤ 2 := by exact_mod_cast Dyadic.reachBelow_le
  have one : (1 : ℚ) ≤ d.mantissa := by exact_mod_cast canonical.positive
  have unit : (0 : ℚ) < 2 ^ d.exponent := by positivity
  have half : (1 / 2 : ℚ) ≤ v / 2 ^ d.exponent := by linarith [admits.bounds.1]
  calc (2 : ℚ) ^ (-1075 : Int) ≤ 2 ^ (-1 + d.exponent) :=
        zpow_le_zpow_right₀ one_le_two (by linarith [canonical.least])
    _ = 1 / 2 * 2 ^ d.exponent := by
        rw [zpow_add₀ two_ne_zero]
        norm_num
    _ ≤ v := (le_div_iff₀ unit).mp half

/-- What a finite number stands for is not out of range. -/
theorem Dyadic.Admits.lt_zpow (canonical : d.Canonical) (admits : d.Admits v) :
    v < (2 : ℚ) ^ (1024 : Int) :=
  (admits.lt canonical).trans_le
    (zpow_le_zpow_right₀ one_le_two (by linarith [canonical.greatest]))

/-! ## Operations -/

section Operations

variable {m m' : Nat} {e e' : Int} {positive : 0 < m} {positive' : 0 < m'} {s s' : Sign}

/-- A product with enough digits is rounded to the number that stands for it. -/
theorem mul_finite (canonical : d.Canonical) (admits : d.Admits (m * 2 ^ e * (m' * 2 ^ e')))
    (enough : 2 ^ 52 ≤ m * m') :
    UnpackedFloat.mul Format.binary64 (.finite s m e positive) (.finite s' m' e' positive') =
      .finite (s * s') d.mantissa d.exponent canonical.positive := by
  refine roundWithAccuracy_eq canonical ?_ (.inl enough) admits
  have product : (m * 2 ^ e * (m' * 2 ^ e') / 2 ^ (e + e') : ℚ) = (m * m' : Nat) := by
    rw [zpow_add₀ two_ne_zero]
    push_cast
    field_simp
  rw [product]
  exact tells_ofMantissaAndAccuracy_exact _

/-- A quotient is rounded to the number that stands for it. -/
theorem div_finite (canonical : d.Canonical) (admits : d.Admits (m * 2 ^ e / (m' * 2 ^ e'))) :
    UnpackedFloat.div Format.binary64 (.finite s m e positive) (.finite s' m' e' positive') =
      .finite (s / s') d.mantissa d.exponent canonical.positive := by
  have target : Format.binary64.targetExponent (totalExponent m e - totalExponent m' e') =
      max (m.log2 + 1 + e - (m'.log2 + 1 + e') - 53) (-1074) := rfl
  simp only [UnpackedFloat.div, divCore, target]
  generalize common : min (e - e')
    (max (m.log2 + 1 + e - (m'.log2 + 1 + e') - 53) (-1074) : Int) = t
  have shift : ((e - e' - t).toNat : Int) = e - e' - t := Int.toNat_of_nonneg (by omega)
  generalize (e - e' - t).toNat = k at shift ⊢
  rw [Nat.shiftLeft_eq]
  refine roundWithAccuracy_eq canonical ?_ ?_ admits
  · have power : (2 : ℚ) ^ k = 2 ^ e / 2 ^ e' / 2 ^ t := by
      rw [← zpow_natCast, shift, zpow_sub₀ two_ne_zero, zpow_sub₀ two_ne_zero]
    have shifted : (m * 2 ^ e / (m' * 2 ^ e') / 2 ^ t : ℚ) = (m * 2 ^ k : Nat) / m' := by
      push_cast
      rw [power]
      field_simp
    rw [shifted]
    exact tells_accuracyOfFraction positive'
  · rw [or_iff_not_imp_right]
    intro above
    rw [Nat.le_div_iff_mul_le positive']
    have digits : 52 + (m'.log2 + 1) ≤ m.log2 + k := by omega
    calc 2 ^ 52 * m' ≤ 2 ^ 52 * 2 ^ (m'.log2 + 1) :=
          Nat.mul_le_mul_left _ Nat.lt_log2_self.le
      _ = 2 ^ (52 + (m'.log2 + 1)) := (Nat.pow_add _ _ _).symm
      _ ≤ 2 ^ (m.log2 + k) := Nat.pow_le_pow_right (by decide) digits
      _ = 2 ^ m.log2 * 2 ^ k := Nat.pow_add _ _ _
      _ ≤ m * 2 ^ k := Nat.mul_le_mul_right _ (Nat.log2_self_le positive.ne')

end Operations

/-! ## Powers of ten -/

variable {n : Nat} {k : Int}

/-- A power of ten is no smaller than the power of two, if the exponent is not negative. -/
theorem two_zpow_le_ten_zpow (positive : 0 ≤ k) : (2 : ℚ) ^ k ≤ 10 ^ k :=
  zpow_le_zpow_left₀ positive (by norm_num) (by norm_num)

/-- A power of ten is no greater than the power of two, if the exponent is not positive. -/
theorem ten_zpow_le_two_zpow (negative : k ≤ 0) : (10 : ℚ) ^ k ≤ 2 ^ k := by
  have inverse := two_zpow_le_ten_zpow (k := -k) (by omega)
  rw [zpow_neg, zpow_neg] at inverse
  exact (inv_le_inv₀ (by positivity) (by positivity)).mp inverse

/-- The powers of ten in the decimals of a number are in range. -/
theorem Dyadic.Admits.le_of_mul_zpow (canonical : d.Canonical) (nonzero : n ≠ 0)
    (admits : d.Admits (n * 10 ^ k)) : k < 1024 := by
  have one : (1 : ℚ) ≤ n := by exact_mod_cast Nat.one_le_iff_ne_zero.mpr nonzero
  by_contra high
  have power : (2 : ℚ) ^ k < 2 ^ (1024 : Int) :=
    calc (2 : ℚ) ^ k ≤ 10 ^ k := two_zpow_le_ten_zpow (by omega)
      _ ≤ n * 10 ^ k := le_mul_of_one_le_left (by positivity) one
      _ < 2 ^ (1024 : Int) := admits.lt_zpow canonical
  exact high ((zpow_lt_zpow_iff_right₀ one_lt_two).mp power)

theorem Dyadic.Admits.ge_of_mul_zpow (canonical : d.Canonical)
    (admits : d.Admits (n * 10 ^ k)) : -1076 ≤ n.log2 + k := by
  have top : (n : ℚ) < 2 ^ (n.log2 + 1 : Int) := by
    have top' : n < 2 ^ (n.log2 + 1) := Nat.lt_log2_self
    exact_mod_cast top'
  by_contra low
  have power : (2 : ℚ) ^ (-1075 : Int) < 2 ^ (n.log2 + 1 + k) :=
    calc (2 : ℚ) ^ (-1075 : Int) ≤ n * 10 ^ k := admits.zpow_le canonical
      _ ≤ n * 2 ^ k := by
          gcongr
          exact ten_zpow_le_two_zpow (by omega)
      _ < 2 ^ (n.log2 + 1 : Int) * 2 ^ k := by gcongr
      _ = 2 ^ (n.log2 + 1 + k) := (zpow_add₀ two_ne_zero _ _).symm
  have := (zpow_lt_zpow_iff_right₀ one_lt_two).mp power
  omega

/-- A decimal is computed as a product or a quotient of natural numbers. -/
theorem ofScientific_of_admits (canonical : d.Canonical) (nonzero : n ≠ 0)
    (admits : d.Admits (n * 10 ^ k)) :
    UnpackedFloat.ofScientific Format.binary64 n k =
      .finite .positive d.mantissa d.exponent canonical.positive := by
  have high := admits.le_of_mul_zpow canonical nonzero
  have low := admits.ge_of_mul_zpow canonical
  have bits : (2 : Int) ^ Format.binary64.exponentBits = 2048 := by decide
  rw [UnpackedFloat.ofScientific, dif_neg nonzero, if_neg (by omega), if_neg (by omega)]
  split
  next whole =>
    have power : (10 : ℚ) ^ k = (10 ^ k.toNat : Nat) := by
      conv_lhs => rw [← Int.toNat_of_nonneg whole]
      rw [zpow_natCast]
      norm_cast
    refine mul_finite canonical ?_ ?_
    · have product : ((n <<< Format.binary64.mantissaBits : Nat) *
          2 ^ (-Format.binary64.mantissaBits : Int) * ((10 ^ k.toNat : Nat) * 2 ^ (0 : Int)) : ℚ) =
          n * 10 ^ k := by
        rw [Nat.shiftLeft_eq, power, zpow_neg, zpow_natCast, zpow_zero]
        push_cast
        field_simp
      rw [product]
      exact admits
    · have digits : Format.binary64.mantissaBits = 53 := by decide
      rw [digits, Nat.shiftLeft_eq]
      calc 2 ^ 52 ≤ 1 * 2 ^ 53 * 1 := by norm_num
        _ ≤ n * 2 ^ 53 * 10 ^ k.toNat := by
            gcongr
            · omega
            · exact Nat.one_le_pow _ _ (by decide)
  next fraction =>
    have power : (10 : ℚ) ^ k = 1 / (10 ^ (-k).toNat : Nat) := by
      have opposite : ((-k).toNat : Int) = -k := Int.toNat_of_nonneg (by omega)
      have inverse : (10 : ℚ) ^ k = ((10 : ℚ) ^ (-k))⁻¹ := by rw [zpow_neg, inv_inv]
      rw [inverse, ← opposite, zpow_natCast, one_div]
      norm_cast
    refine div_finite canonical ?_
    have quotient : (n * 2 ^ (0 : Int) / ((10 ^ (-k).toNat : Nat) * 2 ^ (0 : Int)) : ℚ) =
        n * 10 ^ k := by
      rw [power, zpow_zero]
      ring
    rw [quotient]
    exact admits

/-! ## Small decimals -/

/-- A natural number of at most 53 digits as a canonical dyadic. -/
def ofSmall (n : Nat) : Dyadic :=
  ⟨n * 2 ^ (52 - n.log2), n.log2 - 52⟩

theorem log2_le_of_small (nonzero : n ≠ 0) (small : n < 2 ^ 53) : n.log2 ≤ 52 := by
  have := (Nat.log2_lt nonzero).mpr small
  omega

theorem two_pow_le_ofSmall (nonzero : n ≠ 0) (small : n < 2 ^ 53) :
    2 ^ 52 ≤ (ofSmall n).mantissa := by
  have digits := log2_le_of_small nonzero small
  calc 2 ^ 52 = 2 ^ n.log2 * 2 ^ (52 - n.log2) := by rw [← Nat.pow_add]; congr 1; omega
    _ ≤ n * 2 ^ (52 - n.log2) := Nat.mul_le_mul_right _ (Nat.log2_self_le nonzero)

theorem canonical_ofSmall (nonzero : n ≠ 0) (small : n < 2 ^ 53) : (ofSmall n).Canonical := by
  have digits := log2_le_of_small nonzero small
  have low := two_pow_le_ofSmall nonzero small
  have high : n * 2 ^ (52 - n.log2) < 2 ^ 53 :=
    calc n * 2 ^ (52 - n.log2) < 2 ^ (n.log2 + 1) * 2 ^ (52 - n.log2) :=
          Nat.mul_lt_mul_of_pos_right Nat.lt_log2_self (Nat.two_pow_pos _)
      _ = 2 ^ 53 := by rw [← Nat.pow_add]; congr 1; omega
  refine ⟨by omega, high, ?_, ?_, .inl low⟩ <;> simp only [ofSmall] <;> omega

theorem value_ofSmall (digits : n.log2 ≤ 52) : (ofSmall n).value = n := by
  have exponent : (n.log2 - 52 : Int) = -((52 - n.log2 : Nat) : Int) := by omega
  simp only [Dyadic.value, ofSmall, exponent, zpow_neg, zpow_natCast]
  push_cast
  field_simp

/-- A natural number of at most 53 digits is converted without loss. -/
theorem unpack_toFloat (nonzero : n ≠ 0) (small : n < 2 ^ 53) :
    n.toUInt64.toFloat.toModel.unpack =
      .finite .positive (ofSmall n).mantissa (ofSmall n).exponent
        (canonical_ofSmall nonzero small).positive := by
  have digits := log2_le_of_small nonzero small
  have same : n.toUInt64.toNat = n := by
    rw [Nat.toUInt64_eq, UInt64.toNat_ofNat']
    omega
  have unfolded : n.toUInt64.toFloat.toModel =
    .pack (UnpackedFloat.normalize Format.binary64 (n.toUInt64.toNat : Int) 0 .positive) := rfl
  have positive : compare (n : Int) 0 = .gt := by
    rw [Int.compare_eq_gt]
    omega
  have target : Format.binary64.targetExponent (totalExponent n 0) = n.log2 - 52 := by
    have spelled : Format.binary64.targetExponent (totalExponent n 0) =
      max ((n.log2 : Int) + 1 + 0 - 53) (-1074) := rfl
    rw [spelled]
    omega
  have room : (0 - (n.log2 - 52 : Int)).toNat = 52 - n.log2 := by omega
  have exponent : (0 - ((52 - n.log2 : Nat) : Int)) = n.log2 - 52 := by omega
  have canonical := canonical_ofSmall nonzero small
  have rounded : UnpackedFloat.normalize Format.binary64 (n : Int) 0 .positive =
      .finite .positive (ofSmall n).mantissa (ofSmall n).exponent canonical.positive := by
    simp only [UnpackedFloat.normalize, positive, UnpackedFloat.round, Int.toNat_natCast, target,
      decreaseExponent, room, exponent, Nat.shiftLeft_eq]
    refine roundWithAccuracy_eq canonical ?_ ?_ (Dyadic.admits_value _)
    · have scaled : (ofSmall n).value / 2 ^ (n.log2 - 52 : Int) = (n * 2 ^ (52 - n.log2) : Nat) :=
        mul_div_cancel_right₀ _ (by positivity)
      rw [scaled]
      exact tells_ofMantissaAndAccuracy_exact _
    · exact canonical.full.imp_right Int.le_of_eq
  rw [unfolded, same, rounded, unpack_pack_finite _ canonical]

/-- Whether an unpacked number is a natural number. -/
def isNatural (n : Nat) : UnpackedFloat → Bool
  | .finite .positive m e _ => m * 2 ^ e.toNat == n * 2 ^ (-e).toNat
  | _ => false

theorem exists_of_isNatural {u : UnpackedFloat} (natural : isNatural n u = true) :
    ∃ m e, ∃ positive : 0 < m, u = .finite .positive m e positive ∧ (m * 2 ^ e : ℚ) = n := by
  unfold isNatural at natural
  split at natural
  next m e positive =>
    refine ⟨m, e, positive, rfl, ?_⟩
    have same : (m * 2 ^ e.toNat : ℚ) = n * 2 ^ (-e).toNat := by
      exact_mod_cast beq_iff_eq.mp natural
    rw [zpow_eq_div two_ne_zero, ← mul_div_assoc, same]
    field_simp
  next => cases natural

/-- The powers of ten that the core library keeps are exact. -/
theorem isNatural_powersOfTen : ∀ k : Fin 23,
    isNatural (10 ^ k.val) Float.exactlyRepresentablePowersOfTen[k].toModel.unpack = true := by
  decide +kernel

/-! ## Decimals -/

/-- The powers of ten that the core library keeps, by their parts. -/
theorem exists_powerOfTen {j : Nat} (kept : j < Float.exactlyRepresentablePowersOfTen.size) :
    ∃ m e, ∃ positive : 0 < m,
      Float.exactlyRepresentablePowersOfTen[j].toModel.unpack = .finite .positive m e positive ∧
        (m * 2 ^ e : ℚ) = 10 ^ j := by
  obtain ⟨m, e, positive, parts, power⟩ := exists_of_isNatural (isNatural_powersOfTen ⟨j, kept⟩)
  refine ⟨m, e, positive, parts, ?_⟩
  rw [power]
  exact_mod_cast rfl

/-- A small natural number times a power of ten that the core library keeps. -/
theorem mul_powerOfTen (canonical : d.Canonical) (nonzero : n ≠ 0) (small : n < 2 ^ 53) {j : Nat}
    (kept : j < Float.exactlyRepresentablePowersOfTen.size) (admits : d.Admits (n * 10 ^ j)) :
    n.toUInt64.toFloat * Float.exactlyRepresentablePowersOfTen[j] = ofParts d canonical := by
  obtain ⟨m, e, positive, right, power⟩ := exists_powerOfTen kept
  have value := value_ofSmall (log2_le_of_small nonzero small)
  have product : ∀ x y : Float, x * y = .ofModel (.pack
    (UnpackedFloat.mul Format.binary64 x.toModel.unpack y.toModel.unpack)) := fun _ _ => rfl
  rw [product, unpack_toFloat nonzero small, right, mul_finite canonical]
  · rfl
  · rw [power, show ((ofSmall n).mantissa * 2 ^ (ofSmall n).exponent : ℚ) = n from value]
    exact admits
  · exact Nat.le_mul_of_pos_right _ positive |>.trans' (two_pow_le_ofSmall nonzero small)

/-- A small natural number through a power of ten that the core library keeps. -/
theorem div_powerOfTen (canonical : d.Canonical) (nonzero : n ≠ 0) (small : n < 2 ^ 53) {j : Nat}
    (kept : j < Float.exactlyRepresentablePowersOfTen.size) (admits : d.Admits (n / 10 ^ j)) :
    n.toUInt64.toFloat / Float.exactlyRepresentablePowersOfTen[j] = ofParts d canonical := by
  obtain ⟨m, e, positive, right, power⟩ := exists_powerOfTen kept
  have value := value_ofSmall (log2_le_of_small nonzero small)
  have quotient : ∀ x y : Float, x / y = .ofModel (.pack
    (UnpackedFloat.div Format.binary64 x.toModel.unpack y.toModel.unpack)) := fun _ _ => rfl
  rw [quotient, unpack_toFloat nonzero small, right, div_finite canonical]
  · rfl
  · rw [power, show ((ofSmall n).mantissa * 2 ^ (ofSmall n).exponent : ℚ) = n from value]
    exact admits

/-- A natural number times a power of ten is rounded to the number that stands for it. -/
theorem ofScientific_eq_ofParts (canonical : d.Canonical) (nonzero : n ≠ 0)
    (admits : d.Admits (n * 10 ^ k)) :
    OfScientific.ofScientific n (k < 0) k.natAbs = ofParts d canonical := by
  have unfolded : (OfScientific.ofScientific n (k < 0) k.natAbs : Float) =
    Float.ofScientific n (k < 0) k.natAbs := rfl
  rw [unfolded, Float.ofScientific]
  rcases lt_or_ge k 0 with negative | positive
  · have exponent : k = -(k.natAbs : Int) := by omega
    have signed : Int.negOfNat k.natAbs = k := by
      rw [Int.negOfNat_eq]
      simp only [Int.ofNat_eq_natCast]
      omega
    simp only [negative, decide_true, ↓reduceIte, signed]
    split
    next fast =>
      rw [exponent, zpow_neg, zpow_natCast, ← div_eq_mul_inv] at admits
      exact div_powerOfTen canonical nonzero fast.1 (Nat.lt_succ_of_le fast.2) admits
    next slow =>
      simp only [Float.Model.ofScientific, ofScientific_of_admits canonical nonzero admits]
      rfl
  · have exponent : k = (k.natAbs : Int) := by omega
    simp only [not_lt.mpr positive, decide_false, Bool.false_eq_true, ↓reduceIte,
      Int.ofNat_eq_natCast, ← exponent]
    split
    next fast =>
      rw [exponent, zpow_natCast] at admits
      exact mul_powerOfTen canonical nonzero fast.1 (Nat.lt_succ_of_le fast.2) admits
    next slow =>
      simp only [Float.Model.ofScientific, ofScientific_of_admits canonical nonzero admits]
      rfl

theorem lt_pow_digitCount (nonzero : n ≠ 0) : n < 10 ^ digitCount n := by
  rw [digitCount, if_neg nonzero]
  exact (Nat.length_toDigits_le_iff (by decide) Nat.length_toDigits_pos).mp le_rfl

theorem pow_digitCount_le (nonzero : n ≠ 0) : 10 ^ (digitCount n - 1) ≤ n := by
  rw [digitCount, if_neg nonzero]
  by_cases one : (Nat.toDigits 10 n).length - 1 = 0
  · rw [one]
    exact Nat.one_le_iff_ne_zero.mpr nonzero
  · refine Nat.le_of_not_lt fun less => ?_
    have := (Nat.length_toDigits_le_iff (by decide) (Nat.pos_of_ne_zero one)).mpr less
    omega

/-- A decimal is read as the number that stands for it. -/
theorem Decimal.toFloat_of_admits {x : Decimal} (canonical : d.Canonical)
    (admits : d.Admits x.value) : x.toFloat = ofParts d canonical := by
  obtain ⟨n, k⟩ := x
  have nonzero : n ≠ 0 := by
    rintro rfl
    have low := admits.zpow_le canonical
    simp only [Decimal.value, Nat.cast_zero, zero_mul] at low
    exact absurd low (not_le.mpr (by positivity))
  simp only [Decimal.value] at admits
  have exponents : ∀ {i j : Int}, (10 : ℚ) ^ i < 10 ^ j → i < j :=
    fun less => (zpow_lt_zpow_iff_right₀ (by norm_num)).mp less
  have notHigh : ¬overflowOrder < digitCount n + k := by
    have bound : (10 : ℚ) ^ ((digitCount n - 1 : Nat) + k) < 10 ^ (309 : Int) :=
      calc (10 : ℚ) ^ ((digitCount n - 1 : Nat) + k) = (10 ^ (digitCount n - 1) : Nat) * 10 ^ k := by
            rw [zpow_add₀ (by norm_num), zpow_natCast]
            norm_cast
        _ ≤ n * 10 ^ k := by
            gcongr
            exact pow_digitCount_le nonzero
        _ < 2 ^ (1024 : Int) := admits.lt_zpow canonical
        _ < 10 ^ (309 : Int) := by exact_mod_cast (by decide +kernel : 2 ^ 1024 < 10 ^ 309)
    have := exponents bound
    rw [overflowOrder]
    omega
  have notLow : ¬digitCount n + k < underflowOrder := by
    have bound : (10 : ℚ) ^ (-324 : Int) < 10 ^ (digitCount n + k) :=
      calc (10 : ℚ) ^ (-324 : Int) < 2 ^ (-1075 : Int) := by
            rw [zpow_neg, zpow_neg, inv_lt_inv₀ (by positivity) (by positivity)]
            exact_mod_cast (by decide +kernel : 2 ^ 1075 < 10 ^ 324)
        _ ≤ n * 10 ^ k := admits.zpow_le canonical
        _ < (10 ^ digitCount n : Nat) * 10 ^ k := by
            gcongr
            exact lt_pow_digitCount nonzero
        _ = 10 ^ (digitCount n + k) := by
            rw [zpow_add₀ (by norm_num), zpow_natCast]
            norm_cast
    have := exponents bound
    rw [underflowOrder]
    omega
  simp only [Decimal.toFloat, nonzero, notHigh, notLow, ↓reduceIte]
  exact ofScientific_eq_ofParts canonical nonzero admits

end LessonCalc.Number
