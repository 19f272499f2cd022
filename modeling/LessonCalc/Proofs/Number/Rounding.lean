import LessonCalc.Number.Shortest
import LessonCalc.Proofs.Number.Binary64

/-!
# Rounding to the 64-bit binary format

Each number of the format stands for the rationals around it, from half the gap below it to half the
gap above it, the ends included if its mantissa is even.

* `Dyadic.value`, `Decimal.value`: the rational that a number is.
* `Dyadic.Canonical`: the parts of a positive finite number of the format.
* `Dyadic.Admits`: the rationals that a number of the format stands for.
* `roundWithAccuracy_eq`: a rational is rounded to the number of the format that stands for it.
-/

namespace LessonCalc.Number

open Float.Model Float.Model.UnpackedFloat

/-! ## Values -/

/-- The rational that a dyadic is. -/
def Dyadic.value (d : Dyadic) : ℚ :=
  d.mantissa * 2 ^ d.exponent

/-- The rational that a decimal is. -/
def Decimal.value (d : Decimal) : ℚ :=
  d.digits * 10 ^ d.exponent

/-- A power is a quotient of powers with natural exponents, of which one is zero. -/
theorem zpow_eq_div {b : ℚ} (nonzero : b ≠ 0) (e : Int) :
    b ^ e = b ^ e.toNat / b ^ (-e).toNat := by
  rw [← zpow_natCast, ← zpow_natCast, ← zpow_sub₀ nonzero]
  congr 1
  omega

/-- The parts of a positive finite number of the format: the mantissa has its leading bit, unless the
exponent is the least one. -/
structure Dyadic.Canonical (d : Dyadic) : Prop where
  positive : 0 < d.mantissa
  few : d.mantissa < 2 ^ 53
  least : -1074 ≤ d.exponent
  greatest : d.exponent ≤ 971
  full : 2 ^ 52 ≤ d.mantissa ∨ d.exponent = -1074

/-- Half the gap below a number, in quarters of the gap above it. -/
def Dyadic.reachBelow (d : Dyadic) : Nat :=
  if d.mantissa = hiddenBit ∧ leastExponent < d.exponent then 1 else 2

/-- A number of the format stands for a rational, which is told in quarters of the gap above the
number. -/
def Dyadic.Admits (d : Dyadic) (v : ℚ) : Prop :=
  let quarters := 4 * (v / 2 ^ d.exponent)
  if d.mantissa % 2 = 0 then
    (4 * d.mantissa - d.reachBelow : ℚ) ≤ quarters ∧ quarters ≤ 4 * d.mantissa + 2
  else (4 * d.mantissa - d.reachBelow : ℚ) < quarters ∧ quarters < 4 * d.mantissa + 2

/-! ## What a cut tells -/

/-- The integer part of twice the number that an extended mantissa was cut from. -/
def halves (em : ExtendedMantissa) : Nat :=
  2 * em.mantissa + em.roundBit.toNat

/-- An extended mantissa tells a number: in which half of which unit the number lies, and whether it is
where that half starts. -/
structure Tells (em : ExtendedMantissa) (x : ℚ) : Prop where
  low : halves em ≤ 2 * x
  high : 2 * x < halves em + 1
  sticky : em.stickyBit = true ↔ 2 * x ≠ halves em

variable {em : ExtendedMantissa} {x : ℚ}

theorem Tells.le (tells : Tells em x) : em.mantissa ≤ x := by
  have whole : 2 * em.mantissa ≤ halves em := Nat.le_add_right _ _
  have whole' : (2 * em.mantissa : ℚ) ≤ halves em := by exact_mod_cast whole
  linarith [tells.low]

theorem Tells.lt (tells : Tells em x) : x < em.mantissa + 1 := by
  have bit : halves em ≤ 2 * em.mantissa + 1 := Nat.add_le_add_left (Bool.toNat_le _) _
  have bit' : (halves em : ℚ) ≤ 2 * em.mantissa + 1 := by exact_mod_cast bit
  linarith [tells.high]

/-- Dropping the last bit halves the number. -/
theorem Tells.shiftRightOne (tells : Tells em x) : Tells em.shiftRightOne (x / 2) := by
  have last : halves em.shiftRightOne = em.mantissa := by
    have digits := Nat.div_add_mod em.mantissa 2
    rcases Nat.mod_two_eq_zero_or_one em.mantissa with even | odd <;>
      simp only [halves, ExtendedMantissa.shiftRightOne] <;> simp [*] <;> omega
  have double : 2 * (x / 2) = x := by ring
  refine ⟨?_, ?_, ?_⟩ <;> rw [last, double]
  · exact tells.le
  · exact tells.lt
  · obtain ⟨m, round, sticky⟩ := em
    have low := tells.low
    have exact := tells.sticky
    cases round with
    | true =>
        simp only [halves, Bool.toNat_true, Nat.cast_add, Nat.cast_mul] at low
        simp only [ExtendedMantissa.shiftRightOne, Bool.true_or, true_iff]
        norm_num at low
        exact fun same => by linarith
    | false =>
        simp only [halves, Bool.toNat_false, Nat.cast_add, Nat.cast_mul] at exact
        simp only [ExtendedMantissa.shiftRightOne, Bool.false_or, exact]
        norm_num

theorem Tells.shiftRight (tells : Tells em x) (k : Nat) : Tells (em >>> k) (x / 2 ^ k) := by
  induction k with
  | zero => simpa [HShiftRight.hShiftRight, Nat.repeat] using tells
  | succ k ih =>
      rw [pow_succ, ← div_div]
      exact ih.shiftRightOne

/-- An integer is nearer to a number than any other, or one of the two nearest and even. -/
def IsNearest (n : Nat) (x : ℚ) : Prop :=
  if n % 2 = 0 then (2 * n - 1 : ℚ) ≤ 2 * x ∧ 2 * x ≤ 2 * n + 1
  else (2 * n - 1 : ℚ) < 2 * x ∧ 2 * x < 2 * n + 1

/-- A cut number is rounded to its nearest integer. -/
theorem Tells.roundedMantissa_eq {n : Nat} (tells : Tells em x) (nearest : IsNearest n x) :
    em.roundedMantissa = n := by
  obtain ⟨low, high, sticky⟩ := tells
  have wide : (2 * n - 1 : ℚ) ≤ 2 * x ∧ 2 * x ≤ 2 * n + 1 := by
    unfold IsNearest at nearest
    split at nearest
    · exact nearest
    · exact ⟨nearest.1.le, nearest.2.le⟩
  have above : halves em ≤ 2 * n + 1 := by exact_mod_cast low.trans wide.2
  have below : 2 * n ≤ halves em + 1 := by
    have strict : (2 * n : ℚ) < halves em + 2 := by linarith [wide.1]
    have strict' : 2 * n < halves em + 2 := by exact_mod_cast strict
    omega
  have even : (2 * x = 2 * n - 1 ∨ 2 * x = 2 * n + 1) → n % 2 = 0 := fun tie => by
    by_contra odd
    rw [IsNearest, if_neg odd] at nearest
    rcases tie with tie | tie <;> linarith [nearest.1, nearest.2]
  obtain ⟨m, round, sticky'⟩ := em
  cases round with
  | false =>
      have same : m = n := by
        simp only [halves, Bool.toNat_false] at above below
        omega
      cases sticky' <;> exact same
  | true =>
      simp only [halves, Bool.toNat_true] at above below low high sticky
      push_cast at low high sticky
      cases sticky' with
      | true =>
          have strict : 2 * m + 1 ≠ 2 * n + 1 := fun same => by
            have same' : (2 * m + 1 : ℚ) = 2 * n + 1 := by exact_mod_cast same
            exact sticky.mp rfl (le_antisymm (same' ▸ wide.2) low)
          have next : m + 1 = n := by omega
          exact next
      | false =>
          have exact : 2 * x = 2 * m + 1 := by
            by_contra other
            exact Bool.false_ne_true (sticky.mpr other)
          have near : 2 * n = 2 * m ∨ 2 * n = 2 * m + 2 := by omega
          have tie : n % 2 = 0 := even (near.symm.imp
            (fun next => by
              have next' : (2 * n : ℚ) = 2 * m + 2 := by exact_mod_cast next
              linarith)
            (fun same => by
              have same' : (2 * n : ℚ) = 2 * m := by exact_mod_cast same
              linarith))
          have rounded : m + m % 2 = n := by omega
          exact rounded

/-! ## Rounding to the format -/

/-- The accuracy of an integer part tells the number that was cut. -/
theorem tells_ofMantissaAndAccuracy_exact (m : Nat) :
    Tells (.ofMantissaAndAccuracy m .exact) m := by
  refine ⟨?_, ?_, ?_⟩ <;>
    simp [halves, ExtendedMantissa.ofMantissaAndAccuracy]

/-- An inexact integer part tells a number that lies between it and the next integer. -/
theorem tells_ofMantissaAndAccuracy_inexact {m : Nat} {fraction : ℚ} (positive : 0 < fraction)
    (proper : fraction < 1) {order : Ordering} (less : order = .lt ↔ 2 * fraction < 1)
    (same : order = .eq ↔ 2 * fraction = 1) :
    Tells (.ofMantissaAndAccuracy m (.inexact order)) (m + fraction) := by
  have twice : 2 * (m + fraction) = 2 * m + 2 * fraction := by ring
  cases order with
  | lt =>
      have below := less.mp rfl
      refine ⟨?_, ?_, ?_⟩ <;> simp [halves, ExtendedMantissa.ofMantissaAndAccuracy, twice] <;>
        linarith
  | eq =>
      have half := same.mp rfl
      refine ⟨?_, ?_, ?_⟩ <;> simp [halves, ExtendedMantissa.ofMantissaAndAccuracy, twice, half]
  | gt =>
      have above : 1 < 2 * fraction := by
        refine lt_of_le_of_ne (not_lt.mp fun below => ?_) fun half => ?_
        · exact absurd (less.mpr below) (by decide)
        · exact absurd (same.mpr half.symm) (by decide)
      refine ⟨?_, ?_, ?_⟩ <;> simp [halves, ExtendedMantissa.ofMantissaAndAccuracy, twice] <;>
        linarith

/-- The accuracy of a quotient tells its fraction. -/
theorem tells_accuracyOfFraction {m d : Nat} (positive : 0 < d) :
    Tells (.ofMantissaAndAccuracy (m / d) (accuracyOfFraction (m % d) d)) (m / d) := by
  have positive' : (0 : ℚ) < d := by exact_mod_cast positive
  have quotient : (m / d : ℚ) = (m / d : Nat) + (m % d : Nat) / d := by
    rw [div_eq_iff positive'.ne', add_mul, div_mul_cancel₀ _ positive'.ne', mul_comm]
    exact_mod_cast (Nat.div_add_mod m d).symm
  have proper : ((m % d : Nat) / d : ℚ) < 1 := by
    rw [div_lt_one positive']
    exact_mod_cast Nat.mod_lt m positive
  rw [quotient]
  unfold accuracyOfFraction
  split
  next zero =>
    rw [zero, Nat.cast_zero, zero_div, add_zero]
    exact tells_ofMantissaAndAccuracy_exact _
  next some =>
    have some' : (0 : ℚ) < (m % d : Nat) := by exact_mod_cast Nat.pos_of_ne_zero some
    refine tells_ofMantissaAndAccuracy_inexact (div_pos some' positive') proper ?_ ?_
    · rw [Nat.compare_eq_lt, ← mul_div_assoc, div_lt_one positive']
      exact_mod_cast Iff.rfl
    · rw [Nat.compare_eq_eq, ← mul_div_assoc, div_eq_one_iff_eq positive'.ne']
      exact_mod_cast Iff.rfl

variable {m : Nat} {e t : Int} {a : Accuracy}

/-- A mantissa with too many digits is shifted to the exponent that leaves 53 of them, or to the least
one. -/
theorem shiftToTargetExponent_eq (target : max (m.log2 + e - 52) (-1074) = t) (le : e ≤ t) :
    shiftToTargetExponent Format.binary64 m e a =
      (ExtendedMantissa.ofMantissaAndAccuracy m a >>> (t - e).toNat, t) := by
  have target' : Format.binary64.targetExponent (totalExponent m e) = t := by
    rw [← target]
    have spelled : Format.binary64.targetExponent (totalExponent m e) =
      max (m.log2 + 1 + e - 53) (-1074) := rfl
    rw [spelled]
    congr 1
    ring
  have back : e + (t - e).toNat = t := by omega
  simp only [shiftToTargetExponent, shiftToExponent, target', back]

/-- A mantissa of 53 digits is not shifted. -/
theorem shiftToTargetExponent_exact (few : m.log2 ≤ 52) (least : -1074 ≤ e)
    (full : 52 ≤ m.log2 ∨ e = -1074) :
    shiftToTargetExponent Format.binary64 m e .exact = (⟨m, false, false⟩, e) := by
  rw [shiftToTargetExponent_eq (t := e) (by omega) le_rfl, sub_self]
  rfl

/-- The leading digit of a number told by a mantissa, seen from above. -/
theorem lt_zpow_log2 {v : ℚ} (tells : Tells (.ofMantissaAndAccuracy m a) (v / 2 ^ e)) :
    v < 2 ^ (m.log2 + 1 + e) := by
  have mantissa : (ExtendedMantissa.ofMantissaAndAccuracy m a).mantissa = m := by
    rcases a with _ | _ | _ | _ <;> rfl
  have top : m + 1 ≤ 2 ^ (m.log2 + 1) := Nat.lt_log2_self
  have top' : (m + 1 : ℚ) ≤ 2 ^ (m.log2 + 1) := by exact_mod_cast top
  have bound := tells.lt
  rw [mantissa, div_lt_iff₀ (by positivity)] at bound
  calc v < (m + 1) * 2 ^ e := bound
    _ ≤ 2 ^ (m.log2 + 1) * 2 ^ e := by gcongr
    _ = 2 ^ (m.log2 + 1 + e) := by
        rw [zpow_add₀ two_ne_zero]
        norm_cast

/-- The leading digit of a number told by a mantissa, seen from below. -/
theorem zpow_log2_le {v : ℚ} (tells : Tells (.ofMantissaAndAccuracy m a) (v / 2 ^ e))
    (nonzero : m ≠ 0) : 2 ^ (m.log2 + e) ≤ v := by
  have mantissa : (ExtendedMantissa.ofMantissaAndAccuracy m a).mantissa = m := by
    rcases a with _ | _ | _ | _ <;> rfl
  have low : ((2 ^ m.log2 : Nat) : ℚ) ≤ m := by exact_mod_cast Nat.log2_self_le nonzero
  have bound := tells.le
  rw [mantissa, le_div_iff₀ (by positivity)] at bound
  calc (2 : ℚ) ^ (m.log2 + e) = (2 ^ m.log2 : Nat) * 2 ^ e := by
        rw [zpow_add₀ two_ne_zero]
        norm_cast
    _ ≤ m * 2 ^ e := by gcongr
    _ ≤ v := bound

section Admits

variable {d : Dyadic} {v : ℚ}

/-- The rationals of a number, in quarters of its gap, without the question of the ends. -/
theorem Dyadic.Admits.bounds (admits : d.Admits v) :
    (4 * d.mantissa - d.reachBelow : ℚ) ≤ 4 * (v / 2 ^ d.exponent) ∧
      4 * (v / 2 ^ d.exponent) ≤ 4 * d.mantissa + 2 := by
  unfold Dyadic.Admits at admits
  dsimp only at admits
  split at admits
  · exact admits
  · exact ⟨admits.1.le, admits.2.le⟩

theorem Dyadic.reachBelow_le : d.reachBelow ≤ 2 := by
  unfold Dyadic.reachBelow
  split <;> decide

theorem Dyadic.one_le_reachBelow : 1 ≤ d.reachBelow := by
  unfold Dyadic.reachBelow
  split <;> decide

/-- A rational that a number stands for lies within half a gap of it. -/
theorem Dyadic.Admits.isNearest (admits : d.Admits v) :
    IsNearest d.mantissa (v / 2 ^ d.exponent) := by
  have below : (d.reachBelow : ℚ) ≤ 2 := by exact_mod_cast Dyadic.reachBelow_le
  unfold Dyadic.Admits at admits
  dsimp only at admits
  unfold IsNearest
  split at admits
  next even => rw [if_pos even]; constructor <;> linarith [admits.1, admits.2]
  next odd => rw [if_neg odd]; constructor <;> linarith [admits.1, admits.2]

/-- A number stands for rationals below the next power of two only. -/
theorem Dyadic.Admits.lt (canonical : d.Canonical) (admits : d.Admits v) :
    v < 2 ^ (53 + d.exponent) := by
  have few : d.mantissa + 1 ≤ 2 ^ 53 := canonical.few
  have few' : (d.mantissa + 1 : ℚ) ≤ 2 ^ 53 := by exact_mod_cast few
  have unit : (0 : ℚ) < 2 ^ d.exponent := by positivity
  have scaled : v / 2 ^ d.exponent < 2 ^ 53 := by linarith [admits.bounds.2]
  rw [zpow_add₀ two_ne_zero]
  exact (div_lt_iff₀ unit).mp scaled

/-- Below the leading power of two a number stands for little, if it has its leading bit: it is that
power itself, and half of the smaller gap below belongs to it. -/
theorem Dyadic.Admits.below (canonical : d.Canonical) (admits : d.Admits v)
    (normal : d.exponent ≠ -1074) (low : v < 2 ^ (52 + d.exponent)) :
    d.mantissa = 2 ^ 52 ∧ (2 ^ 54 - 1 : ℚ) ≤ 4 * (v / 2 ^ d.exponent) := by
  have leading : 2 ^ 52 ≤ d.mantissa := canonical.full.resolve_right normal
  have unit : (0 : ℚ) < 2 ^ d.exponent := by positivity
  rw [zpow_add₀ two_ne_zero] at low
  have scaled : v / 2 ^ d.exponent < 2 ^ 52 := (div_lt_iff₀ unit).mpr low
  have reach : (d.reachBelow : ℚ) ≤ 2 := by exact_mod_cast Dyadic.reachBelow_le
  have small : (d.mantissa : ℚ) < 2 ^ 52 + 1 := by linarith [admits.bounds.1]
  have small' : d.mantissa < 2 ^ 52 + 1 := by exact_mod_cast small
  have same : d.mantissa = 2 ^ 52 := by omega
  have least : -1074 < d.exponent := lt_of_le_of_ne canonical.least (Ne.symm normal)
  have quarter : d.reachBelow = 1 := if_pos ⟨same, least⟩
  refine ⟨same, ?_⟩
  have bound := admits.bounds.1
  rw [quarter, same] at bound
  push_cast at bound
  linarith

variable {m : Nat} {e : Int} {a : Accuracy} {s : Sign}

/-- Rounding is two shifts, with the choice of the nearest integer between them. -/
theorem roundWithAccuracy_of_shifts {first second : ExtendedMantissa} {t t' : Int} {n : Nat}
    (cut : shiftToTargetExponent Format.binary64 m e a = (first, t))
    (again : shiftToTargetExponent Format.binary64 first.roundedMantissa t .exact = (second, t'))
    (last : second.mantissa = n) (positive : 0 < n) :
    roundWithAccuracy Format.binary64 s m e a = .finite s n t' positive := by
  subst last
  simp only [roundWithAccuracy, cut, again, positive.ne', ↓reduceDIte]

/-- The first shift tells the rational at the exponent it ends at. -/
theorem exists_first_shift {t : Int} (tells : Tells (.ofMantissaAndAccuracy m a) (v / 2 ^ e))
    (target : max (m.log2 + e - 52) (-1074) = t) (le : e ≤ t) :
    ∃ em, shiftToTargetExponent Format.binary64 m e a = (em, t) ∧ Tells em (v / 2 ^ t) := by
  refine ⟨_, shiftToTargetExponent_eq target le, ?_⟩
  have power : (2 : ℚ) ^ t = 2 ^ e * 2 ^ (t - e).toNat := by
    rw [← zpow_natCast, ← zpow_add₀ two_ne_zero]
    congr 1
    omega
  rw [power, ← div_div]
  exact tells.shiftRight _

theorem lt_of_two_zpow_lt {i j : Int} (less : (2 : ℚ) ^ i < 2 ^ j) : i < j :=
  (zpow_lt_zpow_iff_right₀ one_lt_two).mp less

/-- Where the first shift rounds up to a digit too many, the second takes it away. -/
theorem roundWithAccuracy_carry {t : Int} (tells : Tells (.ofMantissaAndAccuracy m a) (v / 2 ^ e))
    (target : max (m.log2 + e - 52) (-1074) = t) (le : e ≤ t)
    (nearest : IsNearest (2 ^ 53) (v / 2 ^ t)) :
    roundWithAccuracy Format.binary64 s m e a = .finite s (2 ^ 52) (t + 1) (by decide) := by
  obtain ⟨em, first, told⟩ := exists_first_shift tells target le
  have rounded : em.roundedMantissa = 2 ^ 53 := told.roundedMantissa_eq nearest
  have digits : (2 ^ 53 : Nat).log2 = 53 := by decide +kernel
  have second := shiftToTargetExponent_eq (m := em.roundedMantissa) (e := t) (t := t + 1)
    (a := .exact) (by rw [rounded, digits]; omega) (by omega)
  refine roundWithAccuracy_of_shifts first second ?_ _
  have one : (t + 1 - t).toNat = 1 := by omega
  rw [mantissa_shiftRight, rounded, one]
  rfl

/-- Just below a power of two the first shift leaves a digit too many. -/
theorem roundWithAccuracy_below (canonical : d.Canonical)
    (tells : Tells (.ofMantissaAndAccuracy m a) (v / 2 ^ e))
    (long : 52 ≤ m.log2 ∨ e ≤ -1074) (admits : d.Admits v) (normal : d.exponent ≠ -1074)
    (low : v < 2 ^ (52 + d.exponent)) :
    roundWithAccuracy Format.binary64 s m e a =
      .finite s d.mantissa d.exponent canonical.positive := by
  obtain ⟨same, near⟩ := admits.below canonical normal low
  have least := canonical.least
  have unit : (0 : ℚ) < 2 ^ d.exponent := by positivity
  have half : (2 : ℚ) ^ (51 + d.exponent) ≤ v := by
    rw [zpow_add₀ two_ne_zero, ← le_div_iff₀ unit]
    norm_num at near ⊢
    linarith
  have atLeast := lt_of_two_zpow_lt (half.trans_lt (lt_zpow_log2 tells))
  have atMost : m.log2 + e < 52 + d.exponent := by
    by_cases zero : m = 0
    · rw [zero, Nat.log2_zero] at long atLeast ⊢
      omega
    · exact lt_of_two_zpow_lt ((zpow_log2_le tells zero).trans_lt low)
  have nearest : IsNearest (2 ^ 53) (v / 2 ^ (d.exponent - 1)) := by
    have double : v / 2 ^ (d.exponent - 1) = 2 * (v / 2 ^ d.exponent) := by
      rw [zpow_sub_one₀ two_ne_zero]
      field_simp
    rw [zpow_add₀ two_ne_zero, ← div_lt_iff₀ unit] at low
    rw [double, IsNearest, if_pos (by decide)]
    norm_num at near low ⊢
    exact ⟨by linarith, by linarith⟩
  have carried := roundWithAccuracy_carry (s := s) tells (by omega) (by omega) nearest
  simpa only [same, sub_add_cancel] using carried

/-- Elsewhere the first shift leaves as many digits as the number has, and the second none to take
away. -/
theorem roundWithAccuracy_within (canonical : d.Canonical)
    (tells : Tells (.ofMantissaAndAccuracy m a) (v / 2 ^ e))
    (long : 52 ≤ m.log2 ∨ e ≤ -1074) (admits : d.Admits v)
    (high : d.exponent = -1074 ∨ 2 ^ (52 + d.exponent) ≤ v) :
    roundWithAccuracy Format.binary64 s m e a =
      .finite s d.mantissa d.exponent canonical.positive := by
  have least := canonical.least
  have atMost : m.log2 + e ≤ 52 + d.exponent := by
    by_cases zero : m = 0
    · rw [zero, Nat.log2_zero] at long ⊢
      omega
    · have := lt_of_two_zpow_lt ((zpow_log2_le tells zero).trans_lt (admits.lt canonical))
      omega
  have target : max (m.log2 + e - 52) (-1074) = d.exponent := by
    rcases high with subnormal | high
    · omega
    · have := lt_of_two_zpow_lt (high.trans_lt (lt_zpow_log2 tells))
      omega
  obtain ⟨em, first, told⟩ := exists_first_shift tells target (by omega)
  have rounded : em.roundedMantissa = d.mantissa := told.roundedMantissa_eq admits.isNearest
  have few : d.mantissa.log2 ≤ 52 := by
    have := (Nat.log2_lt canonical.positive.ne').mpr canonical.few
    omega
  have full : 52 ≤ d.mantissa.log2 ∨ d.exponent = -1074 :=
    canonical.full.imp_left (Nat.le_log2 canonical.positive.ne').mpr
  have second := shiftToTargetExponent_exact few canonical.least full
  rw [← rounded] at second
  exact roundWithAccuracy_of_shifts first second rounded _

/-- A rational that is told by a mantissa with enough digits is rounded to the number of the format
that stands for it. -/
theorem roundWithAccuracy_eq (canonical : d.Canonical)
    (tells : Tells (.ofMantissaAndAccuracy m a) (v / 2 ^ e))
    (enough : 2 ^ 52 ≤ m ∨ e ≤ -1074) (admits : d.Admits v) :
    roundWithAccuracy Format.binary64 s m e a =
      .finite s d.mantissa d.exponent canonical.positive := by
  have long : 52 ≤ m.log2 ∨ e ≤ -1074 :=
    enough.imp_left fun full => (Nat.le_log2 (by omega)).mpr full
  by_cases subnormal : d.exponent = -1074
  · exact roundWithAccuracy_within canonical tells long admits (.inl subnormal)
  · rcases lt_or_ge v (2 ^ (52 + d.exponent)) with low | high
    · exact roundWithAccuracy_below canonical tells long admits subnormal low
    · exact roundWithAccuracy_within canonical tells long admits (.inr high)

end Admits

end LessonCalc.Number
