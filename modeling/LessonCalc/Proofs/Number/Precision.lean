import LessonCalc.Proofs.Number.Scientific

/-!
# Rounding decimals to places

A decimal is rounded to the nearest count of units, a half away from zero, in a precision that leaves
room for the digits of the count.

* `RoundsTo`, `RoundsTo.unique`: a rational rounded to the multiples of a step.
* `Decimal.roundToPlaces_bounds`: how far a decimal is from its count of units.
* `Decimal.roundsTo_value`: so the count is that of its value, rounded.
* `Decimal.roundWithin?_eq_some`: the precision of a decimal is enough for two places, even if rounding
  carries into a new digit.
-/

namespace LessonCalc.Number

/-! ## Multiples of a step -/

/-- A rational rounded to the multiples of a step: to the nearest one, and to the one farther from zero if
two are as near. -/
structure RoundsTo (step v r : ℚ) : Prop where
  multiple : ∃ n : ℤ, r = n * step
  near : |v - r| ≤ step / 2
  away : |v - r| = step / 2 → |v| < |r|

namespace RoundsTo

variable {step v r r' : ℚ}

theorem neg (rounds : RoundsTo step v r) : RoundsTo step (-v) (-r) := by
  obtain ⟨⟨n, same⟩, near, away⟩ := rounds
  have distance : |-v - -r| = |v - r| := by
    rw [← neg_sub', abs_neg]
  refine ⟨⟨-n, by rw [same]; push_cast; ring⟩, distance ▸ near, fun half => ?_⟩
  rw [abs_neg, abs_neg]
  exact away (distance ▸ half)

theorem le (positive : 0 < step) (rounds : RoundsTo step v r) (rounds' : RoundsTo step v r') :
    r' ≤ r := by
  obtain ⟨⟨n, rfl⟩, near, away⟩ := rounds
  obtain ⟨⟨m, rfl⟩, near', away'⟩ := rounds'
  refine le_of_not_gt fun less => ?_
  have next : n + 1 ≤ m := by
    have := lt_of_mul_lt_mul_right less positive.le
    exact_mod_cast this
  have gap : (n : ℚ) * step + step ≤ m * step := by
    have := mul_le_mul_of_nonneg_right (by exact_mod_cast next : (n : ℚ) + 1 ≤ m) positive.le
    linarith
  have upper := (abs_le.mp near).2
  have lower := (abs_le.mp near').1
  -- the multiples are neighbours, and the rational stands halfway between them
  have half : v - n * step = step / 2 := by linarith
  have half' : v - m * step = -(step / 2) := by linarith
  have far := away (by rw [half, abs_of_pos (half_pos positive)])
  have far' := away' (by rw [half', abs_neg, abs_of_pos (half_pos positive)])
  rcases le_or_gt 0 n with above | below
  · have low : (0 : ℚ) ≤ n * step := mul_nonneg (by exact_mod_cast above) positive.le
    rw [abs_of_nonneg low, abs_of_nonneg (by linarith)] at far
    linarith
  · have high : (n : ℚ) * step + step ≤ 0 := by
      have := mul_nonpos_of_nonpos_of_nonneg (by exact_mod_cast below : (n : ℚ) + 1 ≤ 0) positive.le
      linarith
    rw [abs_of_nonpos (by linarith : v ≤ 0), abs_of_nonpos (by linarith : (m : ℚ) * step ≤ 0)] at far'
    linarith

/-- A rational is rounded to one multiple only. -/
theorem unique (positive : 0 < step) (rounds : RoundsTo step v r) (rounds' : RoundsTo step v r') :
    r = r' :=
  le_antisymm (rounds'.le positive rounds) (rounds.le positive rounds')

end RoundsTo

/-! ## Counts of units -/

namespace Decimal

variable (d : Decimal) (places : Nat)

theorem value_nonneg : 0 ≤ d.value :=
  mul_nonneg (Nat.cast_nonneg _) (by positivity)

/-- A quotient that is cut after adding a half is the nearest natural number, a half counted up. -/
theorem div_bounds {n unit : Nat} (positive : 0 < unit) :
    (((2 * n + unit) / (2 * unit) : Nat) : ℚ) - 1 / 2 ≤ n / unit ∧
      (n / unit : ℚ) < ((2 * n + unit) / (2 * unit) : Nat) + 1 / 2 := by
  have units : (0 : ℚ) < unit := by exact_mod_cast positive
  have low : (((2 * n + unit) / (2 * unit) * (2 * unit) : Nat) : ℚ) ≤ (2 * n + unit : Nat) := by
    exact_mod_cast Nat.div_mul_le_self _ _
  have high : ((2 * n + unit : Nat) : ℚ) < ((2 * n + unit) / (2 * unit) * (2 * unit) + 2 * unit : Nat) := by
    exact_mod_cast Nat.lt_div_mul_add (by omega)
  push_cast at low high
  rw [le_div_iff₀ units, div_lt_iff₀ units]
  constructor <;> linarith

/-- A decimal is nearer to its count of units than to any other, and a half is counted up. -/
theorem roundToPlaces_bounds :
    (d.roundToPlaces places : ℚ) - 1 / 2 ≤ d.value * 10 ^ places ∧
      d.value * 10 ^ places < d.roundToPlaces places + 1 / 2 := by
  have scaled : d.value * 10 ^ places = d.digits * 10 ^ (d.exponent + places) := by
    rw [value, mul_assoc, zpow_add₀ (by norm_num), zpow_natCast]
  rw [scaled, roundToPlaces]
  simp only [Nat.pow_eq]
  generalize d.exponent + (places : Int) = shift
  by_cases whole : 0 ≤ shift
  · have power : ((d.digits * 10 ^ shift.toNat : Nat) : ℚ) = d.digits * 10 ^ shift := by
      conv_rhs => rw [← Int.toNat_of_nonneg whole, zpow_natCast]
      push_cast
      rfl
    rw [if_pos whole, power]
    constructor <;> linarith
  · have power : (d.digits * 10 ^ shift : ℚ) = d.digits / (10 ^ (-shift).toNat : Nat) := by
      rw [zpow_eq_div (by norm_num), Int.toNat_of_nonpos (by omega), pow_zero, mul_one_div]
      push_cast
      rfl
    rw [if_neg whole, power]
    split
    next far =>
      have small : 2 * d.digits < 10 ^ (-shift).toNat := by
        by_cases zero : d.digits = 0
        · rw [zero]
          exact Nat.pow_pos (by decide)
        · calc 2 * d.digits < 10 * 10 ^ digitCount d.digits := by
                have := lt_pow_digitCount zero
                omega
            _ = 10 ^ (digitCount d.digits + 1) := (Nat.pow_succ' ..).symm
            _ ≤ 10 ^ (-shift).toNat := Nat.pow_le_pow_right (by decide) far.le
      have positive : 0 < 10 ^ (-shift).toNat := Nat.pow_pos (by decide)
      have bounds := @div_bounds d.digits _ positive
      rwa [Nat.div_eq_of_lt (by omega)] at bounds
    next => exact div_bounds (Nat.pow_pos (by decide))

/-- The value of a decimal is rounded to its count of units. -/
theorem roundsTo_value :
    RoundsTo (1 / 10 ^ places) d.value (d.roundToPlaces places / 10 ^ places) := by
  have unit : (0 : ℚ) < 10 ^ places := by positivity
  obtain ⟨low, high⟩ := d.roundToPlaces_bounds places
  have value : d.value = d.value * 10 ^ places / 10 ^ places := (mul_div_cancel_right₀ _ unit.ne').symm
  have distance : d.value - d.roundToPlaces places / 10 ^ places =
      (d.value * 10 ^ places - d.roundToPlaces places) / 10 ^ places := by
    rw [sub_div, ← value]
  refine ⟨⟨d.roundToPlaces places, ?_⟩, ?_, fun half => ?_⟩
  · push_cast
    ring
  · rw [distance, abs_div, abs_of_pos unit, div_right_comm]
    refine div_le_div_of_nonneg_right (abs_le.mpr ⟨?_, ?_⟩) unit.le <;> linarith
  · have below : d.value * 10 ^ places < d.roundToPlaces places := by
      rw [distance, abs_div, abs_of_pos unit, div_right_comm, div_left_inj' unit.ne'] at half
      rcases (abs_eq (by norm_num)).mp half with up | down <;> linarith
    have less : d.value < d.roundToPlaces places / 10 ^ places := (lt_div_iff₀ unit).mpr below
    rwa [abs_of_nonneg d.value_nonneg, abs_of_nonneg (d.value_nonneg.trans less.le)]

/-! ## Precision -/

theorem value_lt_order : d.value < 10 ^ (d.order + 1) := by
  have digits : (d.digits : ℚ) < (10 ^ max 1 (digitCount d.digits) : Nat) := by
    norm_cast
    by_cases zero : d.digits = 0
    · rw [zero]
      exact Nat.pow_pos (by decide)
    · exact (lt_pow_digitCount zero).trans_le (Nat.pow_le_pow_right (by decide) (le_max_right _ _))
  have exponent : d.order + 1 = (max 1 (digitCount d.digits) : Nat) + d.exponent := by
    rw [order]
    omega
  rw [value, exponent, zpow_add₀ (by norm_num), zpow_natCast]
  push_cast at digits
  gcongr

theorem digitCount_le {n k : Nat} (less : n < 10 ^ k) (positive : 0 < k) : digitCount n ≤ k := by
  rw [digitCount]
  split
  · exact Nat.zero_le _
  · exact (Nat.length_toDigits_le_iff (by decide) positive).mpr less

/-- The precision of a decimal is enough to round it to two places: a carry takes one digit more than the
digits before the point and the places. -/
theorem roundWithin?_eq_some (few : places ≤ 2) :
    d.roundWithin? places = some (d.roundToPlaces places) := by
  have most : 28 ≤ d.precision := le_max_left _ _
  have room : d.order + 4 ≤ d.precision := le_max_right _ _
  obtain ⟨k, precision⟩ : ∃ k : Nat, d.precision = k + 1 := ⟨d.precision.toNat - 1, by omega⟩
  have scaled : d.value * 10 ^ places < 10 ^ k :=
    calc d.value * 10 ^ places < 10 ^ (d.order + 1) * 10 ^ places := by
          have := d.value_lt_order
          gcongr
      _ = 10 ^ (d.order + 1 + places) := by rw [← zpow_natCast, ← zpow_add₀ (by norm_num)]
      _ ≤ 10 ^ (k : Int) := zpow_le_zpow_right₀ (by norm_num) (by omega)
      _ = 10 ^ k := zpow_natCast _ _
  have count : d.roundToPlaces places < 10 ^ (k + 1) := by
    have bound : (d.roundToPlaces places : ℚ) < 10 ^ k * 10 := by
      have one : (1 : ℚ) ≤ 10 ^ k := one_le_pow₀ (by norm_num)
      linarith [(d.roundToPlaces_bounds places).1]
    exact_mod_cast bound
  have digits := digitCount_le count (Nat.succ_pos k)
  rw [roundWithin?]
  exact if_neg (by omega)

end Decimal

end LessonCalc.Number
