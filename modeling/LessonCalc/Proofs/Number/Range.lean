import LessonCalc.Proofs.Number.Scientific

/-!
# The range of the format

An integer has a nearest number of the format unless it lies so far out that the nearest one is infinite.
The bound is half a unit beyond the greatest number, and the integer that lies right there is out of range
too, since a half goes to the even mantissa.

* `exists_admits`: a positive rational below the bound has a number that stands for it.
* `ofInt?_eq_none_iff`: an integer has no nearest number exactly if its size reaches the bound.
-/

namespace LessonCalc.Number

open Float.Model Float.Model.UnpackedFloat

/-- The least natural number that is out of range: half a unit beyond the greatest number. -/
def rangeBound : Nat :=
  (2 ^ 54 - 1) * 2 ^ 970

theorem rangeBound_eq : (rangeBound : ℚ) = (2 ^ 54 - 1) * 2 ^ (970 : Int) := by
  have positive : 1 ≤ 2 ^ 54 := by decide
  rw [rangeBound, Nat.cast_mul, Nat.cast_sub positive, zpow_ofNat]
  simp only [Nat.cast_pow, Nat.cast_ofNat, Nat.cast_one]

/-- The bound in halves of the unit of the greatest number. -/
theorem two_mul_div_eq (v : ℚ) : 2 * (v / 2 ^ (971 : Int)) = v / 2 ^ (970 : Int) := by
  rw [show (971 : Int) = 970 + 1 from rfl, zpow_add_one₀ two_ne_zero]
  field_simp

/-! ## Numbers in range -/

section Inside

variable {d : Dyadic} {v : ℚ} {e : Int} {q : Nat}

/-- A rational at most half a unit above a mantissa, which is even at the half, is rounded down. -/
theorem Dyadic.admits_below (low : q ≤ v / 2 ^ e)
    (down : 2 * (v / 2 ^ e) < 2 * q + 1 ∨ 2 * (v / 2 ^ e) = 2 * q + 1 ∧ q % 2 = 0) :
    (⟨q, e⟩ : Dyadic).Admits v := by
  have some : (1 : ℚ) ≤ (⟨q, e⟩ : Dyadic).reachBelow := by exact_mod_cast Dyadic.one_le_reachBelow
  unfold Dyadic.Admits
  dsimp only
  split
  next => rcases down with less | ⟨same, _⟩ <;> constructor <;> linarith
  next odd =>
    have less := down.resolve_right fun half => odd half.2
    constructor <;> linarith

/-- A rational at least half a unit above a mantissa, which is odd at the half, is rounded up. -/
theorem Dyadic.admits_above (full : 2 ^ 52 ≤ q) (high : v / 2 ^ e < q + 1)
    (up : 2 * q + 1 < 2 * (v / 2 ^ e) ∨ 2 * (v / 2 ^ e) = 2 * q + 1 ∧ q % 2 = 1) :
    (⟨q + 1, e⟩ : Dyadic).Admits v := by
  have reach : (⟨q + 1, e⟩ : Dyadic).reachBelow = 2 := by
    refine if_neg fun hidden => ?_
    have same : q + 1 = 2 ^ 52 := hidden.1
    omega
  unfold Dyadic.Admits
  dsimp only
  rw [reach]
  push_cast
  split
  next => rcases up with more | ⟨same, _⟩ <;> constructor <;> linarith
  next odd =>
    have more := up.resolve_right fun half => odd (by omega)
    constructor <;> linarith

/-- A rational at least half a unit above the last mantissa goes to the next power of two. -/
theorem Dyadic.admits_next (least : -1074 ≤ e) (high : v / 2 ^ e < 2 ^ 53)
    (up : 2 ^ 54 - 1 ≤ 2 * (v / 2 ^ e)) : (⟨2 ^ 52, e + 1⟩ : Dyadic).Admits v := by
  have reach : (⟨2 ^ 52, e + 1⟩ : Dyadic).reachBelow = 1 :=
    if_pos ⟨rfl, by simp only [leastExponent]; omega⟩
  have unit : v / 2 ^ (e + 1) = v / 2 ^ e / 2 := by
    rw [zpow_add_one₀ two_ne_zero, div_div]
  unfold Dyadic.Admits
  dsimp only
  rw [reach, unit, if_pos (by decide)]
  push_cast
  constructor <;> linarith

/-- A mantissa with its leading bit and an exponent of the format. -/
theorem Dyadic.canonical_of_full (full : 2 ^ 52 ≤ q) (few : q < 2 ^ 53) (least : -1074 ≤ e)
    (greatest : e ≤ 971) : (⟨q, e⟩ : Dyadic).Canonical :=
  ⟨Nat.lt_of_lt_of_le (by decide) full, few, least, greatest, .inl full⟩

/-- A rational with its leading digit in place has a number that stands for it, if the exponent is that of
a number and it does not lie beyond the greatest one. -/
theorem exists_admits (least : -1074 ≤ e) (greatest : e ≤ 971) (low : 2 ^ 52 ≤ v / 2 ^ e)
    (high : v / 2 ^ e < 2 ^ 53) (inside : e = 971 → 2 * (v / 2 ^ e) < 2 ^ 54 - 1) :
    ∃ d : Dyadic, d.Canonical ∧ d.Admits v := by
  have positive : 0 ≤ v / 2 ^ e := le_trans (by positivity) low
  have below := Nat.floor_le positive
  have above := Nat.lt_floor_add_one (v / 2 ^ e)
  generalize ⌊v / 2 ^ e⌋₊ = q at below above
  have full : 2 ^ 52 ≤ q := by
    have : (2 ^ 52 : ℚ) < q + 1 := low.trans_lt above
    exact Nat.le_of_lt_succ (by exact_mod_cast this)
  have few : q < 2 ^ 53 := by
    have : (q : ℚ) < 2 ^ 53 := below.trans_lt high
    exact_mod_cast this
  by_cases down : 2 * (v / 2 ^ e) < 2 * q + 1 ∨ 2 * (v / 2 ^ e) = 2 * q + 1 ∧ q % 2 = 0
  · exact ⟨_, Dyadic.canonical_of_full full few least greatest, Dyadic.admits_below below down⟩
  · obtain ⟨less, odd⟩ := not_or.mp down
    have up : 2 * q + 1 ≤ 2 * (v / 2 ^ e) := not_lt.mp less
    by_cases last : q + 1 = 2 ^ 53
    · have last' : (q + 1 : ℚ) = 2 ^ 53 := by exact_mod_cast last
      have room : e + 1 ≤ 971 := by
        refine Int.add_one_le_iff.mpr (lt_of_le_of_ne greatest fun top => ?_)
        linarith [inside top]
      have least' : -1074 ≤ e + 1 := by omega
      exact ⟨_, Dyadic.canonical_of_full le_rfl (by decide) least' room,
        Dyadic.admits_next least high (by linarith)⟩
    · refine ⟨_, Dyadic.canonical_of_full (by omega) (by omega) least greatest,
        Dyadic.admits_above full above ?_⟩
      rcases up.lt_or_eq with more | same
      · exact .inl more
      · exact .inr ⟨same.symm, Nat.mod_two_ne_zero.mp fun even => odd ⟨same.symm, even⟩⟩

/-- The number of a canonical dyadic is finite. -/
theorem isFinite_ofParts (canonical : d.Canonical) : (ofParts d canonical).isFinite = true := by
  have parts : (ofParts d canonical).isFinite =
    (Float.Model.pack (.finite .positive d.mantissa d.exponent canonical.positive)).unpack.isFinite := rfl
  rw [parts, unpack_pack_finite _ canonical]
  rfl

end Inside

section Naturals

variable {n : Nat}

/-- The leading digit of a natural number, in place. -/
theorem leading_div (nonzero : n ≠ 0) :
    (2 ^ 52 : ℚ) ≤ n / 2 ^ ((n.log2 : Int) - 52) ∧ (n : ℚ) / 2 ^ ((n.log2 : Int) - 52) < 2 ^ 53 := by
  have low : ((2 ^ n.log2 : Nat) : ℚ) ≤ n := by exact_mod_cast Nat.log2_self_le nonzero
  have high : (n : ℚ) < (2 ^ (n.log2 + 1) : Nat) := by exact_mod_cast Nat.lt_log2_self
  have unit : (0 : ℚ) < 2 ^ ((n.log2 : Int) - 52) := by positivity
  constructor
  · rw [le_div_iff₀ unit, ← zpow_natCast, ← zpow_add₀ two_ne_zero]
    refine le_of_eq_of_le ?_ low
    push_cast
    rw [← zpow_natCast]
    congr 1
    omega
  · rw [div_lt_iff₀ unit, ← zpow_natCast, ← zpow_add₀ two_ne_zero]
    refine high.trans_eq ?_
    push_cast
    rw [← zpow_natCast]
    congr 1
    push_cast
    omega

/-- A natural number below the bound has a nearest number. -/
theorem isFinite_ofNat (small : n < rangeBound) : (Float.ofNat n).isFinite = true := by
  rcases eq_or_ne n 0 with rfl | nonzero
  · rfl
  have digits : n.log2 < 1024 := by
    refine (Nat.log2_lt nonzero).mpr (small.trans ?_)
    decide +kernel
  obtain ⟨low, high⟩ := leading_div nonzero
  have inside : (n.log2 : Int) - 52 = 971 → 2 * ((n : ℚ) / 2 ^ ((n.log2 : Int) - 52)) < 2 ^ 54 - 1 := by
    intro top
    have small' : (n : ℚ) < rangeBound := by exact_mod_cast small
    rw [top, two_mul_div_eq, div_lt_iff₀ (by positivity), ← rangeBound_eq]
    exact small'
  obtain ⟨d, canonical, admits⟩ := exists_admits (by omega) (by omega) low high inside
  have near : (OfScientific.ofScientific n ((0 : Int) < 0) (0 : Int).natAbs : Float) =
      ofParts d canonical :=
    ofScientific_eq_ofParts canonical nonzero (by simpa using admits)
  have same : Float.ofNat n = OfScientific.ofScientific n ((0 : Int) < 0) (0 : Int).natAbs := rfl
  rw [same, near]
  exact isFinite_ofParts canonical

/-- A natural number with as many digits as the greatest number that reaches the bound is rounded up to
the next power of two. -/
theorem ofScientific_of_digits (digits : n.log2 = 1023) (large : rangeBound ≤ n) :
    UnpackedFloat.ofScientific Format.binary64 n (Int.ofNat 0) =
      .finite .positive (2 ^ 52) 972 (by decide) := by
  have nonzero : n ≠ 0 := by
    rintro rfl
    cases digits
  rw [ofScientific_zero nonzero]
  have shifted : (n <<< 53 * 10 ^ 0).log2 = 1076 := by
    rw [pow_zero, mul_one, log2_shiftLeft nonzero, digits]
  have whole : (n : ℚ) / (2 : ℚ) ^ (-53 + 0 : Int) = (n <<< 53 * 10 ^ 0 : Nat) := by
    rw [Nat.shiftLeft_eq, pow_zero, mul_one, add_zero, zpow_neg, div_inv_eq_mul, Nat.cast_mul,
      Nat.cast_pow, Nat.cast_ofNat, zpow_ofNat]
  have tells : Tells (.ofMantissaAndAccuracy (n <<< 53 * 10 ^ 0) .exact)
      ((n : ℚ) / (2 : ℚ) ^ (-53 + 0 : Int)) := by
    rw [whole]
    exact tells_ofMantissaAndAccuracy_exact _
  have nearest : IsNearest (2 ^ 53) ((n : ℚ) / 2 ^ (971 : Int)) := by
    have high := (leading_div nonzero).2
    have exponent : (n.log2 : Int) - 52 = 971 := by omega
    have low : (rangeBound : ℚ) ≤ n := by exact_mod_cast large
    rw [exponent] at high
    rw [rangeBound_eq, ← le_div_iff₀ (by positivity), ← two_mul_div_eq] at low
    generalize (n : ℚ) / 2 ^ (971 : Int) = x at high low
    rw [IsNearest, if_pos (by decide)]
    push_cast
    constructor <;> linarith
  exact roundWithAccuracy_carry tells (by rw [shifted]; rfl) (by decide) nearest

/-- A natural number that reaches the bound does not. -/
theorem isFinite_ofNat_eq_false (large : rangeBound ≤ n) : (Float.ofNat n).isFinite = false := by
  rcases Nat.lt_or_ge n.log2 1024 with few | many
  · have nonzero : n ≠ 0 := by
      rintro rfl
      exact absurd large (by decide +kernel)
    have digits : n.log2 = 1023 := by
      have power : 2 ^ 1023 ≤ n := Nat.le_trans (by decide +kernel) large
      have := (Nat.le_log2 nonzero).mpr power
      omega
    have slow : ¬(n < 2 ^ 53 ∧ 0 ≤ 22) := fun small => by
      have bits := (Nat.log2_lt nonzero).mpr small.1
      omega
    have unfolded : Float.ofNat n = Float.ofScientific n false 0 := rfl
    rw [unfolded, Float.ofScientific, dif_neg slow]
    simp only [Bool.false_eq_true, ↓reduceIte, Float.Model.ofScientific,
      ofScientific_of_digits digits large]
    rfl
  · rw [ofNat_eq_infinity many]
    rfl

end Naturals

/-- A number is finite whatever its sign. -/
theorem isFinite_neg (x : Float) : (-x).isFinite = x.isFinite := by
  have negated : (-x).isFinite = (Float.Model.pack x.toModel.unpack.neg).unpack.isFinite := rfl
  have plain : x.isFinite = x.toModel.unpack.isFinite := rfl
  rw [negated]
  cases parts : x.toModel.unpack with
  | infinity s =>
      rw [plain, parts]
      cases s <;> rfl
  | notANumber =>
      rw [plain, parts]
      rfl
  | zero s =>
      rw [plain, parts]
      cases s <;> rfl
  | finite s m e positive =>
      have finite : x.isFinite = true := by rw [plain, parts]; rfl
      have same := unpack_eq finite
      rw [parts] at same
      split at same
      · cases same
      · rename_i nonzero
        cases same
        rw [UnpackedFloat.neg, unpack_pack_finite _ (canonical_magnitude finite nonzero), finite]
        rfl

/-- An integer has no nearest number exactly if its size reaches the bound. -/
theorem ofInt?_eq_none_iff {n : Int} : ofInt? n = none ↔ rangeBound ≤ n.natAbs := by
  have finite : (Float.ofInt n).isFinite = (Float.ofNat n.natAbs).isFinite := by
    cases n with
    | ofNat n => rfl
    | negSucc n => exact isFinite_neg (Float.ofNat (n + 1))
  rw [ofInt?, finite]
  rcases Nat.lt_or_ge n.natAbs rangeBound with small | large
  · simp [isFinite_ofNat small, Nat.not_le.mpr small]
  · simp [isFinite_ofNat_eq_false large, large]

end LessonCalc.Number
