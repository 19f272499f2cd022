import LessonCalc.Proofs.Number.Scientific

/-!
# The shortest decimal of a number

A number stands for its shortest decimal, so that the decimal is read as the number.

* `Dyadic.gauge_admits_iff`: the whole-number test on a grid of decimals is the question whether the number stands
  for the decimal.
* `Dyadic.zpow_order_le`: the order of a number is that of its first digit, or less.
* `Dyadic.admits_shortest`: a number stands for its shortest decimal.
-/

namespace LessonCalc.Number

variable {d : Dyadic} {k : Int} {index : Nat}

/-! ## Grids -/

/-- A quarter of the gap above a number, in the unit of its gauge. -/
def Dyadic.gaugeUnit (d : Dyadic) (k : Int) : Nat :=
  2 ^ d.exponent.toNat * 10 ^ (-k).toNat

theorem Dyadic.gaugeUnit_pos : 0 < d.gaugeUnit k :=
  Nat.mul_pos (Nat.two_pow_pos _) (Nat.pow_pos (by decide))

theorem Dyadic.gauge_step :
    ((d.gauge k).step : ℚ) = 4 * (10 ^ k / 2 ^ d.exponent) * d.gaugeUnit k := by
  have step : (d.gauge k).step = 4 * 2 ^ (-d.exponent).toNat * 10 ^ k.toNat := rfl
  rw [step, zpow_eq_div two_ne_zero, zpow_eq_div (by norm_num) k, Dyadic.gaugeUnit]
  push_cast
  field_simp

theorem Dyadic.gauge_value : (d.gauge k).value = 4 * d.mantissa * d.gaugeUnit k :=
  rfl

theorem Dyadic.gauge_low : (d.gauge k).low = (4 * d.mantissa - d.reachBelow) * d.gaugeUnit k :=
  rfl

theorem Dyadic.gauge_high : (d.gauge k).high = (4 * d.mantissa + 2) * d.gaugeUnit k :=
  rfl

/-- A grid point in the unit of a gauge. -/
theorem Dyadic.gauge_point :
    ((index * (d.gauge k).step : Nat) : ℚ) =
      4 * (index * 10 ^ k / 2 ^ d.exponent) * d.gaugeUnit k := by
  rw [Nat.cast_mul, Dyadic.gauge_step]
  ring

/-- A grid point passes the test of a gauge exactly if the number stands for it. -/
theorem Dyadic.gauge_admits_iff (positive : 0 < d.mantissa) :
    (d.gauge k).admits index = true ↔ d.Admits (index * 10 ^ k) := by
  have unit : (0 : ℚ) < d.gaugeUnit k := by exact_mod_cast Dyadic.gaugeUnit_pos
  have reach : d.reachBelow ≤ 4 * d.mantissa := by
    have := Dyadic.reachBelow_le (d := d)
    omega
  have low : ((d.gauge k).low : ℚ) = (4 * d.mantissa - d.reachBelow) * d.gaugeUnit k := by
    rw [Dyadic.gauge_low]
    push_cast [Nat.cast_sub reach]
    ring
  have high : ((d.gauge k).high : ℚ) = (4 * d.mantissa + 2) * d.gaugeUnit k := by
    rw [Dyadic.gauge_high]
    push_cast
    ring
  have closed : (d.gauge k).closed = decide (d.mantissa % 2 = 0) := rfl
  have point := @Dyadic.gauge_point d k index
  simp only [Gauge.admits, Dyadic.Admits, closed]
  by_cases even : d.mantissa % 2 = 0
  · rw [decide_eq_true even, if_pos rfl, if_pos even, Bool.and_eq_true, decide_eq_true_eq,
      decide_eq_true_eq, ← Nat.cast_le (α := ℚ), ← Nat.cast_le (α := ℚ), point, low, high,
      mul_le_mul_iff_left₀ unit, mul_le_mul_iff_left₀ unit]
  · rw [decide_eq_false even, if_neg Bool.false_ne_true, if_neg even, Bool.and_eq_true,
      decide_eq_true_eq, decide_eq_true_eq, ← Nat.cast_lt (α := ℚ), ← Nat.cast_lt (α := ℚ), point,
      low, high, mul_lt_mul_iff_left₀ unit, mul_lt_mul_iff_left₀ unit]

/-- The grid point that is chosen passes the test. -/
theorem Gauge.admits_of_nearest? {g : Gauge} (nearest : g.nearest? = some index) :
    g.admits index = true := by
  unfold Gauge.nearest? at nearest
  dsimp only at nearest
  cases below : g.admits (g.value / g.step) <;> cases above : g.admits (g.value / g.step + 1) <;>
    simp only [below, above] at nearest
  · cases nearest
  · cases nearest
    exact above
  · cases nearest
    exact below
  · split at nearest
    · cases nearest
      exact below
    split at nearest
    · cases nearest
      exact above
    split at nearest
    · cases nearest
      exact below
    · cases nearest
      exact above

/-! ## The first digit -/

/-- The whole-number test whether a number is at least a power of ten. -/
theorem Dyadic.reaches_iff {e : Int} : d.reaches e = true ↔ 10 ^ e ≤ d.value := by
  have ten : (0 : ℚ) < 10 ^ (-e).toNat := by positivity
  have two : (0 : ℚ) < 2 ^ (-d.exponent).toNat := by positivity
  rw [Dyadic.reaches, decide_eq_true_eq, Dyadic.value, zpow_eq_div (by norm_num) e,
    zpow_eq_div two_ne_zero, ← mul_div_assoc, div_le_div_iff₀ ten two, ← Nat.cast_le (α := ℚ)]
  simp only [Nat.pow_eq]
  push_cast
  rfl

/-- Powers of two bases compare as their exponents do, once one pair of powers is known. -/
theorem pow_le_pow_of_ratio {a b p q i j : Nat} (base : a ^ p ≤ b ^ q) (ratio : q * i ≤ p * j)
    (positive : 0 < b) (nonzero : p ≠ 0) : a ^ i ≤ b ^ j := by
  refine (Nat.pow_le_pow_iff_left nonzero).mp ?_
  calc (a ^ i) ^ p = (a ^ p) ^ i := by rw [← Nat.pow_mul, ← Nat.pow_mul, Nat.mul_comm]
    _ ≤ (b ^ q) ^ i := Nat.pow_le_pow_left base i
    _ = b ^ (q * i) := (Nat.pow_mul _ _ _).symm
    _ ≤ b ^ (p * j) := Nat.pow_le_pow_right positive ratio
    _ = (b ^ j) ^ p := by rw [← Nat.pow_mul, Nat.mul_comm]

/-- The guess at the first digit is too high by one at most: 30103 : 100000 is the ratio of the
logarithms of two and ten, nearly enough for the exponents of the format. -/
theorem ten_zpow_guess_le {bits : Int} (low : -1074 ≤ bits) (high : bits ≤ 1024) :
    (10 : ℚ) ^ (bits * 30103 / 100000 - 1) ≤ 2 ^ bits := by
  generalize guess : bits * 30103 / 100000 - 1 = e
  rcases le_or_gt 0 e with positive | negative
  · obtain ⟨i, rfl⟩ := Int.eq_ofNat_of_zero_le positive
    obtain ⟨j, rfl⟩ := Int.eq_ofNat_of_zero_le (show 0 ≤ bits by omega)
    have powers : 10 ^ i ≤ 2 ^ j :=
      pow_le_pow_of_ratio (p := 59) (q := 196) (by decide) (by omega) (by decide) (by decide)
    rw [zpow_natCast, zpow_natCast]
    exact_mod_cast powers
  rcases le_or_gt 0 bits with positive | below
  · calc (10 : ℚ) ^ e ≤ 10 ^ (0 : Int) := zpow_le_zpow_right₀ (by norm_num) negative.le
      _ ≤ 2 ^ bits := by
          rw [zpow_zero]
          exact one_le_zpow₀ one_le_two positive
  · obtain ⟨i, rfl⟩ := Int.exists_eq_neg_ofNat negative.le
    obtain ⟨j, rfl⟩ := Int.exists_eq_neg_ofNat below.le
    have powers : 2 ^ j ≤ 10 ^ i :=
      pow_le_pow_of_ratio (p := 93) (q := 28) (by decide) (by omega) (by decide) (by decide)
    rw [zpow_neg, zpow_neg, zpow_natCast, zpow_natCast, inv_le_inv₀ (by positivity) (by positivity)]
    exact_mod_cast powers

/-- A number is at least ten to the power of its order. -/
theorem Dyadic.zpow_order_le (canonical : d.Canonical) : (10 : ℚ) ^ d.order ≤ d.value := by
  unfold Dyadic.order
  dsimp only
  split
  next next' => exact Dyadic.reaches_iff.mp next'
  split
  next guess => exact Dyadic.reaches_iff.mp guess
  have digits : d.mantissa.log2 ≤ 52 := log2_le_of_small canonical.positive.ne' canonical.few
  have least := canonical.least
  have greatest := canonical.greatest
  calc (10 : ℚ) ^ ((d.mantissa.log2 + d.exponent) * 30103 / 100000 - 1)
      ≤ 2 ^ (d.mantissa.log2 + d.exponent) := ten_zpow_guess_le (by omega) (by omega)
    _ = (2 ^ d.mantissa.log2 : Nat) * 2 ^ d.exponent := by
        rw [zpow_add₀ two_ne_zero, zpow_natCast]
        norm_cast
    _ ≤ d.mantissa * 2 ^ d.exponent := by
        gcongr
        exact Nat.log2_self_le canonical.positive.ne'

/-! ## The search -/

/-- With seventeen digits behind the first one a grid is so fine that the point below a number stands
within a quarter of the gap. -/
theorem Dyadic.admits_floor (canonical : d.Canonical) {order : Int}
    (first : (10 : ℚ) ^ order ≤ d.value) :
    d.Admits (((d.gauge (order - 17)).value / (d.gauge (order - 17)).step : Nat) *
      10 ^ (order - 17)) := by
  generalize grid : order - 17 = k
  have gap : (0 : ℚ) < 2 ^ d.exponent := by positivity
  have unit : (0 : ℚ) < d.gaugeUnit k := by exact_mod_cast Dyadic.gaugeUnit_pos
  -- a step of the grid is less than a quarter of the gap
  have fine : 4 * (10 ^ k / 2 ^ d.exponent : ℚ) < 1 := by
    have few : (d.mantissa : ℚ) < 2 ^ 53 := by exact_mod_cast canonical.few
    have power : (10 : ℚ) ^ k = 10 ^ order / 10 ^ (17 : Nat) := by
      rw [← grid, zpow_sub₀ (by norm_num)]
      norm_cast
    have bound : (10 : ℚ) ^ order / 2 ^ d.exponent < 2 ^ 53 :=
      ((div_le_iff₀ gap).mpr first).trans_lt few
    rw [power, div_right_comm, ← mul_div_assoc, div_lt_one (by positivity)]
    linarith
  have step : 0 < (d.gauge k).step := by
    have positive : (0 : ℚ) < (d.gauge k).step := by
      rw [Dyadic.gauge_step]
      positivity
    exact_mod_cast positive
  have below := Nat.div_mul_le_self (d.gauge k).value (d.gauge k).step
  have above := Nat.lt_div_mul_add (a := (d.gauge k).value) step
  generalize (d.gauge k).value / (d.gauge k).step = index at below above ⊢
  rw [← Nat.cast_le (α := ℚ), Dyadic.gauge_point, Dyadic.gauge_value] at below
  rw [← Nat.cast_lt (α := ℚ), Nat.cast_add, Dyadic.gauge_point, Dyadic.gauge_step,
    Dyadic.gauge_value] at above
  push_cast at below above
  refine Dyadic.admits_of_lt ?_ ?_
  · rw [← add_mul, mul_lt_mul_iff_left₀ unit] at above
    linarith
  · rw [mul_le_mul_iff_left₀ unit] at below
    linarith

/-- The search ends at a decimal that the number stands for. -/
theorem Dyadic.admits_searchShortest (canonical : d.Canonical) {order : Int}
    (first : (10 : ℚ) ^ order ≤ d.value) (left : Nat) :
    d.Admits (d.searchShortest order left).value := by
  induction left with
  | zero => exact Dyadic.admits_floor canonical first
  | succ left ih =>
      simp only [Dyadic.searchShortest]
      split
      next nearest =>
        exact (Dyadic.gauge_admits_iff canonical.positive).mp (Gauge.admits_of_nearest? nearest)
      next => exact ih

/-! ## Trailing zeros -/

theorem Decimal.value_dropZeros (bound : Nat) (x : Decimal) :
    (Decimal.dropZeros bound x).value = x.value := by
  induction bound generalizing x with
  | zero => rfl
  | succ bound ih =>
      unfold Decimal.dropZeros
      split
      next zero =>
        rw [ih]
        have digits : (x.digits : ℚ) = (x.digits / 10 : Nat) * 10 := by
          exact_mod_cast (Nat.div_mul_cancel (Nat.dvd_of_mod_eq_zero zero)).symm
        rw [Decimal.value, Decimal.value, digits, zpow_add₀ (by norm_num), zpow_one]
        ring
      next => rfl

theorem Decimal.value_normalize (x : Decimal) : x.normalize.value = x.value := by
  unfold Decimal.normalize
  split
  next zero => simp [Decimal.value, zero]
  next => exact Decimal.value_dropZeros _ _

/-- A number stands for its shortest decimal. -/
theorem Dyadic.admits_shortest (canonical : d.Canonical) : d.Admits d.shortest.value := by
  rw [Dyadic.shortest, if_neg canonical.positive.ne', Decimal.value_normalize]
  exact Dyadic.admits_searchShortest canonical (Dyadic.zpow_order_le canonical) _

/-- The shortest decimal of a number is read as the number. -/
theorem toFloat_shortest (canonical : d.Canonical) : d.shortest.toFloat = ofParts d canonical :=
  Decimal.toFloat_of_admits canonical (Dyadic.admits_shortest canonical)

end LessonCalc.Number
