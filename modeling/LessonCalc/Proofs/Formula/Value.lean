import LessonCalc.Proofs.Data.Entries
import LessonCalc.Proofs.Formula.Acceptance
import LessonCalc.Proofs.Formula.Levels
import LessonCalc.Proofs.Number.Binary64
import LessonCalc.Tool.Compute

/-!
# The value of an accepted formula

The evaluator reads a formula from its tokens and builds no tree of the grammar.  This module says that
its value is nevertheless that of a tree, computed from the leaves up: of the innermost one.

* `settle_eq`: a value is shown unless it is not finite or a zero of either sign.
* `evaluate_congr`: the value of a formula depends only on the variables that it names.
* `evaluate_eq_value`: the value of an accepted formula is that of its innermost tree, which is the
  tree that the strict reader gives if the levels of the formula are even.
-/

namespace LessonCalc.Formula

open LessonCalc.Number

/-- A value is shown unless it is not finite or a zero. -/
theorem settle_eq (x : Float) :
    settle x = if x.isFinite = true ∧ (x == 0.0) = false then x else 0.0 := by
  unfold settle
  cases finite : x.isFinite with
  | false => simp
  | true =>
      rw [add_zero_of_isFinite finite]
      cases x == 0.0 <;> simp

/-- What is shown is finite. -/
theorem isFinite_settle (x : Float) : (settle x).isFinite = true := by
  rw [settle_eq]
  split
  next shown => exact shown.1
  next => rfl

/-- What is shown is not negative zero. -/
theorem settle_ne_negZero (x : Float) : settle x ≠ -0.0 := by
  rw [settle_eq]
  split
  next shown =>
    rintro rfl
    exact absurd shown.2 (by decide)
  next => decide

/-- The value of a formula is shown as a value is. -/
theorem exists_evaluate_eq_settle (limit : Nat) (formula : String) (vars : Variables) :
    ∃ x, evaluate limit formula vars = settle x := by
  unfold evaluate evaluateTokens
  dsimp only
  split
  · exact ⟨0.0, rfl⟩
  · exact ⟨_, rfl⟩

/-- The value of a formula is finite. -/
theorem isFinite_evaluate (limit : Nat) (formula : String) (vars : Variables) :
    (evaluate limit formula vars).isFinite = true := by
  obtain ⟨x, shown⟩ := exists_evaluate_eq_settle limit formula vars
  rw [shown]
  exact isFinite_settle x

/-- The value of a formula is not negative zero. -/
theorem evaluate_ne_negZero (limit : Nat) (formula : String) (vars : Variables) :
    evaluate limit formula vars ≠ -0.0 := by
  obtain ⟨x, shown⟩ := exists_evaluate_eq_settle limit formula vars
  rw [shown]
  exact settle_ne_negZero x

/-! ## Variables that are numbers -/

/-- The value of a name among numbers, zero if it has none. -/
def numberOf (env : Entries String Float) (name : String) : Float :=
  (env.get? name).getD 0.0

theorem get?_toVariables (env : Entries String Float) (name : String) :
    Entries.get? (Tool.toVariables env) name = (env.get? name).map .float :=
  Entries.get?_map _

theorem value_toVariables (env : Entries String Float) :
    Variables.value (Tool.toVariables env) = numberOf env := by
  funext name
  unfold Variables.value numberOf
  rw [get?_toVariables]
  cases env.get? name <;> rfl

theorem isOutOfRange_toVariables (env : Entries String Float) (name : String) :
    Variables.isOutOfRange (Tool.toVariables env) name = false := by
  unfold Variables.isOutOfRange
  rw [get?_toVariables]
  cases env.get? name <;> rfl

/-! ## Values and names -/

/-- The value of a reading depends only on its names. -/
theorem Reading.value_congr {env env' : String → Float} {r : Reading}
    (agree : ∀ name ∈ r.names, env name = env' name) : r.value env = r.value env' := by
  induction r with
  | name text => exact agree text List.mem_cons_self
  | group _ _ ih => exact ih agree
  | negate _ ih => rw [value, value, ih agree]
  | binary _ _ _ left right =>
      simp only [names, List.mem_append] at agree
      rw [value, value, left fun name used => agree name (.inl used),
        right fun name used => agree name (.inr used)]
  | ifThen _ _ c t =>
      simp only [names, List.mem_append] at agree
      rw [value, value, c fun name used => agree name (.inl used),
        t fun name used => agree name (.inr used)]
  | ifThenElse _ _ _ c t e =>
      simp only [names, List.mem_append] at agree
      rw [value, value, c fun name used => agree name (.inl used),
        t fun name used => agree name (.inr (.inl used)),
        e fun name used => agree name (.inr (.inr used))]
  | _ => rfl

/-- The value of a formula depends only on the variables that it names. -/
theorem evaluate_congr {limit : Nat} {formula : String} {vars vars' : Variables}
    (agree : ∀ name ∈ (read (tokenize formula)).1.names, vars.get? name = vars'.get? name) :
    evaluate limit formula vars = evaluate limit formula vars' := by
  have values : (read (tokenize formula)).1.value vars.value =
      (read (tokenize formula)).1.value vars'.value :=
    Reading.value_congr fun name used => by simp only [Variables.value, agree name used]
  have ranges : (read (tokenize formula)).1.names.any vars.isOutOfRange =
      (read (tokenize formula)).1.names.any vars'.isOutOfRange := by
    rw [Bool.eq_iff_iff, List.any_eq_true, List.any_eq_true]
    refine exists_congr fun name => and_congr_right fun used => ?_
    simp only [Variables.isOutOfRange, agree name used]
  simp only [evaluate, evaluateTokens, values, ranges]

/-- Where no integer is out of range, tokens have the value of their reading, unless it is nested too
deeply. -/
theorem evaluateTokens_of_inRange {limit : Nat} {tokens : List Token} {vars : Variables}
    (inRange : (read tokens).1.names.any vars.isOutOfRange = false) :
    evaluateTokens limit tokens vars = if limit < (read tokens).1.depth then 0.0
      else settle ((read tokens).1.value vars.value) := by
  simp only [evaluateTokens, inRange, Bool.false_eq_true, or_false]

/-- Where no integer is out of range, a formula has the value of its reading, unless it is nested too
deeply. -/
theorem evaluate_of_inRange {limit : Nat} {formula : String} {vars : Variables}
    (inRange : (read (tokenize formula)).1.names.any vars.isOutOfRange = false) :
    evaluate limit formula vars = if limit < (read (tokenize formula)).1.depth then 0.0
      else settle ((read (tokenize formula)).1.value vars.value) :=
  evaluateTokens_of_inRange inRange

/-- Among numbers no integer is out of range. -/
theorem evaluateTokens_numbers (limit : Nat) (tokens : List Token) (env : Entries String Float) :
    evaluateTokens limit tokens (Tool.toVariables env) = if limit < (read tokens).1.depth then 0.0
      else settle ((read tokens).1.value (numberOf env)) := by
  have inRange : (read tokens).1.names.any (Variables.isOutOfRange (Tool.toVariables env)) = false :=
    List.any_eq_false.mpr fun name _ => by simp [isOutOfRange_toVariables]
  rw [evaluateTokens_of_inRange inRange, value_toVariables]

theorem evaluate_numbers (limit : Nat) (formula : String) (env : Entries String Float) :
    evaluate limit formula (Tool.toVariables env) = if limit < (read (tokenize formula)).1.depth then 0.0
      else settle ((read (tokenize formula)).1.value (numberOf env)) :=
  evaluateTokens_numbers limit _ env

/-- Tokens that are not nested too deeply have the value of their reading. -/
theorem evaluateTokens_toVariables {limit : Nat} {tokens : List Token} (env : Entries String Float)
    (shallow : (read tokens).1.depth ≤ limit) :
    evaluateTokens limit tokens (Tool.toVariables env) =
      settle ((read tokens).1.value (numberOf env)) := by
  rw [evaluateTokens_numbers, if_neg (Nat.not_lt.mpr shallow)]

/-! ## Accepted formulas -/

/-- A formula that is not nested too deeply has the value of its reading. -/
theorem evaluate_toVariables {limit : Nat} {formula : String} (env : Entries String Float)
    (shallow : (read (tokenize formula)).1.depth ≤ limit) :
    evaluate limit formula (Tool.toVariables env) =
      settle ((read (tokenize formula)).1.value (numberOf env)) :=
  evaluateTokens_toVariables env shallow

/-- The value of an accepted formula is that of its only innermost tree, and zero if that is not finite
or a zero of either sign.  If the levels of the formula are even, the tree is the one that the strict
reader gives. -/
theorem evaluate_eq_value {limit : Nat} {formula : String} {checked : Tree}
    (accepted : parse formula = .ok checked)
    (shallow : (read (tokenize formula)).1.depth ≤ limit) (env : Entries String Float) :
    ∃ tree x, (∀ other, IsInnermost (tokenize formula) other ↔ other = tree) ∧
      x = tree.value (numberOf env) ∧
      evaluate limit formula (Tool.toVariables env) =
        (if x.isFinite = true ∧ (x == 0.0) = false then x else 0.0) ∧
      ((∀ marks ∈ levels (tokenize formula), marks.IsEven) → tree = checked) := by
  obtain ⟨_, spelled⟩ := parse_eq_ok accepted
  obtain ⟨tree, innermost⟩ := spelled.exists_innermost
  obtain ⟨clean, whole, rfl⟩ := isInnermost_iff.mp innermost
  have unique : ∀ other, IsInnermost (tokenize formula) other ↔
      other = (read (tokenize formula)).1.tree := by
    intro other
    rw [isInnermost_iff]
    exact ⟨fun same => same.2.2.symm, fun same => ⟨clean, whole, same.symm⟩⟩
  refine ⟨_, _, unique, rfl, ?_, fun even => ((unique checked).mp (spelled.isInnermost even)).symm⟩
  rw [evaluate_toVariables env shallow, settle_eq, clean.value_eq]

/-- Two conditions in a row, where the inner one is the consequent of the outer one: three is odd. -/
theorem evaluate_eq_value_nested :
    parse "a ? b ? 0 : c % 2 : -1" = .ok
        (.ifThenElse (.name "a")
          (.ifThenElse (.name "b") (.number "0") (.binary .mod (.name "c") (.number "2")))
          (.negate (.number "1"))) ∧
      (read (tokenize "a ? b ? 0 : c % 2 : -1")).1.depth ≤ 960 ∧
      (∀ marks ∈ levels (tokenize "a ? b ? 0 : c % 2 : -1"), marks.IsEven) ∧
      evaluate 960 "a ? b ? 0 : c % 2 : -1" (Tool.toVariables [("a", 1.0), ("c", 3.0)]) = 1.0 := by
  have accepted : parse "a ? b ? 0 : c % 2 : -1" = .ok
      (.ifThenElse (.name "a")
        (.ifThenElse (.name "b") (.number "0") (.binary .mod (.name "c") (.number "2")))
        (.negate (.number "1"))) := by
    cbv
  have shallow : (read (tokenize "a ? b ? 0 : c % 2 : -1")).1.depth ≤ 960 := by
    cbv
  have even : ∀ marks ∈ levels (tokenize "a ? b ? 0 : c % 2 : -1"), marks.IsEven := by
    have counted : levels (tokenize "a ? b ? 0 : c % 2 : -1") = [⟨2, 2⟩] := by cbv
    rw [counted]
    decide
  refine ⟨accepted, shallow, even, ?_⟩
  obtain ⟨tree, x, _, same, value, checked⟩ :=
    evaluate_eq_value accepted shallow [("a", 1.0), ("c", 3.0)]
  rw [value, same, checked even]
  rfl

end LessonCalc.Formula
