import LessonCalc.Proofs.Number.Parts

/-!
# The sign of zero

Zero has a sign in the format, and operations carry it along.  It never shows in anything but a zero:
where operands differ at most in the sign of zero, so do results, and comparisons come out the same.

* `Alike`: two numbers that differ at most in the sign of zero.
* `alike_iff`: told by the unpacked numbers, on which the operations are defined.
* `Alike.add`, `Alike.quotient`, `Alike.remainder` and so on: each operation keeps numbers alike.
-/

namespace LessonCalc.Number

open Float.Model Float.Model.UnpackedFloat

/-- Two numbers that differ at most in the sign of zero. -/
def Alike (x y : Float) : Prop :=
  x = y ∨ (x == 0.0) = true ∧ (y == 0.0) = true

/-- Two unpacked numbers that differ at most in the sign of zero. -/
def AlikeParts (u v : UnpackedFloat) : Prop :=
  u = v ∨ ∃ s s', u = .zero s ∧ v = .zero s'

variable {x x' y y' z : Float} {u u' v v' : UnpackedFloat}

theorem Alike.refl (x : Float) : Alike x x :=
  .inl rfl

/-! ## Unpacked numbers -/

/-- A number equals zero if it is one of the two zeros. -/
theorem beq_zero_iff : (x == 0.0) = true ↔ ∃ s, x.toModel.unpack = .zero s := by
  have same : (x == 0.0) = x.toModel.unpack.beq (.zero .positive) := rfl
  rw [same]
  cases x.toModel.unpack with
  | infinity s => cases s <;> simp [UnpackedFloat.beq, UnpackedFloat.compare]
  | notANumber => simp [UnpackedFloat.beq, UnpackedFloat.compare]
  | zero s => simp [UnpackedFloat.beq, UnpackedFloat.compare]
  | finite s m e positive => cases s <;> simp [UnpackedFloat.beq, UnpackedFloat.compare]

theorem eq_of_unpack_eq (same : x.toModel.unpack = y.toModel.unpack) : x = y := by
  obtain ⟨m⟩ := x
  obtain ⟨m'⟩ := y
  have same' : m.unpack = m'.unpack := same
  rw [← pack_unpack m, ← pack_unpack m', same']

theorem alike_iff : Alike x y ↔ AlikeParts x.toModel.unpack y.toModel.unpack := by
  constructor
  · rintro (rfl | ⟨zero, zero'⟩)
    · exact .inl rfl
    · obtain ⟨s, zero⟩ := beq_zero_iff.mp zero
      obtain ⟨s', zero'⟩ := beq_zero_iff.mp zero'
      exact .inr ⟨s, s', zero, zero'⟩
  · rintro (same | ⟨s, s', zero, zero'⟩)
    · exact .inl (eq_of_unpack_eq same)
    · exact .inr ⟨beq_zero_iff.mpr ⟨s, zero⟩, beq_zero_iff.mpr ⟨s', zero'⟩⟩

/-- What is packed alike is alike. -/
theorem alike_pack (alike : AlikeParts u v) : Alike (.ofModel (.pack u)) (.ofModel (.pack v)) := by
  rcases alike with rfl | ⟨s, s', rfl, rfl⟩
  · exact .refl _
  · cases s <;> cases s' <;> exact .inr ⟨rfl, rfl⟩

theorem Alike.trans (first : Alike x y) (second : Alike y z) : Alike x z := by
  rcases first with rfl | ⟨zero, zero'⟩
  · exact second
  · rcases second with rfl | ⟨_, zero''⟩
    · exact .inr ⟨zero, zero'⟩
    · exact .inr ⟨zero, zero''⟩

/-! ## Operations -/

/-- An operation keeps numbers alike if it does so with the two zeros. -/
theorem Alike.unary (op : UnpackedFloat → UnpackedFloat)
    (zeros : ∀ s s', AlikeParts (op (.zero s)) (op (.zero s'))) (alike : Alike x x') :
    Alike (.ofModel (.pack (op x.toModel.unpack))) (.ofModel (.pack (op x'.toModel.unpack))) := by
  rcases alike_iff.mp alike with same | ⟨s, s', zero, zero'⟩
  · rw [same]
    exact .refl _
  · rw [zero, zero']
    exact alike_pack (zeros s s')

/-- An operation on two numbers keeps them alike if it does so with the two zeros on either side. -/
theorem Alike.binary (op : UnpackedFloat → UnpackedFloat → UnpackedFloat)
    (first : ∀ v s s', AlikeParts (op (.zero s) v) (op (.zero s') v))
    (second : ∀ u s s', AlikeParts (op u (.zero s)) (op u (.zero s')))
    (left : Alike x x') (right : Alike y y') :
    Alike (.ofModel (.pack (op x.toModel.unpack y.toModel.unpack)))
      (.ofModel (.pack (op x'.toModel.unpack y'.toModel.unpack))) :=
  (left.unary (fun u => op u y.toModel.unpack) (first _)).trans
    (right.unary (op x'.toModel.unpack) (second _))

theorem Alike.neg (alike : Alike x y) : Alike (-x) (-y) :=
  alike.unary UnpackedFloat.neg fun _ _ => .inr ⟨_, _, rfl, rfl⟩

theorem Alike.add (left : Alike x x') (right : Alike y y') : Alike (x + y) (x' + y') := by
  refine Alike.binary (UnpackedFloat.add Format.binary64) (fun v s s' => ?_) (fun u s s' => ?_)
    left right
  · cases v with
    | zero r => cases s <;> cases s' <;> cases r <;> exact .inr ⟨_, _, rfl, rfl⟩
    | _ => exact .inl rfl
  · cases u with
    | zero r => cases s <;> cases s' <;> cases r <;> exact .inr ⟨_, _, rfl, rfl⟩
    | _ => exact .inl rfl

theorem Alike.sub (left : Alike x x') (right : Alike y y') : Alike (x - y) (x' - y') := by
  refine Alike.binary (UnpackedFloat.sub Format.binary64) (fun v s s' => ?_) (fun u s s' => ?_)
    left right
  · cases v with
    | zero r => cases s <;> cases s' <;> cases r <;> exact .inr ⟨_, _, rfl, rfl⟩
    | _ => exact .inl rfl
  · cases u with
    | zero r => cases s <;> cases s' <;> cases r <;> exact .inr ⟨_, _, rfl, rfl⟩
    | _ => exact .inl rfl

theorem Alike.mul (left : Alike x x') (right : Alike y y') : Alike (x * y) (x' * y') := by
  refine Alike.binary (UnpackedFloat.mul Format.binary64) (fun v s s' => ?_) (fun u s s' => ?_)
    left right
  · cases v <;> first | exact .inl rfl | exact .inr ⟨_, _, rfl, rfl⟩
  · cases u <;> first | exact .inl rfl | exact .inr ⟨_, _, rfl, rfl⟩

/-- Zero divisors are alike, and no other two divisors that differ. -/
theorem Alike.divisor (alike : Alike y y') :
    y = y' ∧ (y == 0.0) = false ∨ (y == 0.0) = true ∧ (y' == 0.0) = true := by
  rcases alike with rfl | zeros
  · cases zero : y == 0.0 with
    | true => exact .inr ⟨rfl, rfl⟩
    | false => exact .inl ⟨rfl, rfl⟩
  · exact .inr zeros

theorem Alike.quotient (left : Alike x x') (right : Alike y y') :
    Alike (quotient x y) (quotient x' y') := by
  unfold Number.quotient
  rcases right.divisor with ⟨rfl, nonzero⟩ | ⟨zero, zero'⟩
  · rw [if_neg (ne_true_of_eq_false nonzero), if_neg (ne_true_of_eq_false nonzero)]
    refine left.unary (fun u => UnpackedFloat.div Format.binary64 u y.toModel.unpack) fun s s' => ?_
    cases y.toModel.unpack <;> first | exact .inl rfl | exact .inr ⟨_, _, rfl, rfl⟩
  · rw [if_pos zero, if_pos zero']
    exact .refl _

theorem isFinite_of_zero (zero : (x == 0.0) = true) : x.isFinite = true := by
  obtain ⟨s, parts⟩ := beq_zero_iff.mp zero
  have finite : x.isFinite = x.toModel.unpack.isFinite := rfl
  rw [finite, parts]
  rfl

theorem mantissa_of_zero (zero : (x == 0.0) = true) : (magnitude x).mantissa = 0 := by
  refine Decidable.byContradiction fun nonzero => ?_
  have parts := unpack_eq (isFinite_of_zero zero)
  obtain ⟨s, parts'⟩ := beq_zero_iff.mp zero
  rw [dif_neg nonzero, parts'] at parts
  cases parts

/-- The remainder of a zero is one, whatever its sign. -/
theorem signed_remainder_of_zero (zero : (x == 0.0) = true) :
    ((if isSigned x then -ofDyadic (remainderOfMagnitudes (magnitude x) (magnitude y))
      else ofDyadic (remainderOfMagnitudes (magnitude x) (magnitude y))) == 0.0) = true := by
  have mantissa : (remainderOfMagnitudes (magnitude x) (magnitude y)).mantissa = 0 := by
    rw [remainderOfMagnitudes, mantissa_of_zero zero, Nat.zero_mul, Nat.zero_mod]
  rw [ofDyadic, if_pos mantissa]
  split <;> rfl

theorem remainder_of_zero (zero : (x == 0.0) = true) (nonzero : (y == 0.0) = false) :
    remainder x y = if y.isNaN then 0.0 / 0.0 else if y.isInf then x else
      if isSigned x then -ofDyadic (remainderOfMagnitudes (magnitude x) (magnitude y))
      else ofDyadic (remainderOfMagnitudes (magnitude x) (magnitude y)) := by
  simp only [Number.remainder, nonzero, isFinite_of_zero zero, Bool.false_eq_true, ↓reduceIte,
    Bool.not_true, Bool.or_false]

theorem remainder_by_zero (zero : (y == 0.0) = true) : remainder x y = 0.0 := by
  rw [Number.remainder, if_pos zero]

theorem Alike.remainder (left : Alike x x') (right : Alike y y') :
    Alike (remainder x y) (remainder x' y') := by
  rcases right.divisor with ⟨rfl, nonzero⟩ | ⟨zero, zero'⟩
  · rcases left with rfl | ⟨zero, zero'⟩
    · exact .refl _
    · rw [remainder_of_zero zero nonzero, remainder_of_zero zero' nonzero]
      split
      · exact .refl _
      · split
        · exact .inr ⟨zero, zero'⟩
        · exact .inr ⟨signed_remainder_of_zero zero, signed_remainder_of_zero zero'⟩
  · rw [remainder_by_zero zero, remainder_by_zero zero']
    exact .refl _

/-! ## Comparisons -/

/-- Comparing does not see the sign of zero. -/
theorem compare_congr (left : Alike x x') (right : Alike y y') :
    x.toModel.unpack.compare y.toModel.unpack = x'.toModel.unpack.compare y'.toModel.unpack := by
  have first : ∀ v s s', UnpackedFloat.compare (.zero s) v = UnpackedFloat.compare (.zero s') v := by
    intro v s s'
    cases v with
    | infinity r => cases r <;> rfl
    | finite r m e positive => cases r <;> rfl
    | _ => rfl
  have second : ∀ u s s', UnpackedFloat.compare u (.zero s) = UnpackedFloat.compare u (.zero s') := by
    intro u s s'
    cases u with
    | infinity r => cases r <;> rfl
    | finite r m e positive => cases r <;> rfl
    | _ => rfl
  have one : x.toModel.unpack.compare y.toModel.unpack =
      x'.toModel.unpack.compare y.toModel.unpack := by
    rcases alike_iff.mp left with same | ⟨s, s', zero, zero'⟩
    · rw [same]
    · rw [zero, zero', first]
  rcases alike_iff.mp right with same | ⟨s, s', zero, zero'⟩
  · rw [one, same]
  · rw [one, zero, zero', second]

theorem lt_congr (left : Alike x x') (right : Alike y y') : x < y ↔ x' < y' := by
  have unfolded : ∀ z w : Float,
      z < w ↔ (z.toModel.unpack.compare w.toModel.unpack == some .lt) = true := by
    intro z w
    exact decide_eq_true_iff
  rw [unfolded, unfolded, compare_congr left right]

theorem le_congr (left : Alike x x') (right : Alike y y') : x ≤ y ↔ x' ≤ y' := by
  have unfolded : ∀ z w : Float, z ≤ w ↔
      ((z.toModel.unpack.compare w.toModel.unpack).any (·.isLE)) = true := by
    intro z w
    exact decide_eq_true_iff
  rw [unfolded, unfolded, compare_congr left right]

theorem beq_congr (left : Alike x x') (right : Alike y y') : (x == y) = (x' == y') := by
  have unfolded : ∀ z w : Float, (z == w) = (z.toModel.unpack.compare w.toModel.unpack == some .eq) :=
    fun _ _ => rfl
  rw [unfolded, unfolded, compare_congr left right]

end LessonCalc.Number
