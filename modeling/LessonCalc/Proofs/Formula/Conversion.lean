import LessonCalc.Proofs.Formula.Value
import LessonCalc.Proofs.Number.Range
import LessonCalc.Proofs.Number.Zeros

/-!
# Variables that are no numbers

A formula takes the number that a variable stands for, and zero where it stands for none.  The one
exception is an integer beyond the range: where a formula names one, the value of the whole formula is
zero, not that of the name.

* `Reading.value_alike`: the sign of a zero among the variables does not show in a value, nor whether a
  name is bound to zero or to nothing.
* `cleaned`: the variables as numbers.
* `evaluate_cleaned`: a formula has the value that it has among the cleaned variables, unless it names an
  integer out of range, and names that are bound to zero can be dropped.
-/

namespace LessonCalc.Formula

open LessonCalc.Number

/-! ## Zeros in formulas -/

section Zeros

variable {x x' y y' : Float}

theorem alike_truth {b b' : Bool} (same : b = b') : Alike (truth b) (truth b') :=
  same ▸ .refl _

/-- Operators keep numbers alike. -/
theorem Operator.apply_alike (op : Operator) (left : Alike x x') (right : Alike y y') :
    Alike (op.apply x y) (op.apply x' y') := by
  cases op with
  | gt => exact alike_truth (decide_eq_decide.mpr (lt_congr right left))
  | lt => exact alike_truth (decide_eq_decide.mpr (lt_congr left right))
  | ge => exact alike_truth (decide_eq_decide.mpr (le_congr right left))
  | le => exact alike_truth (decide_eq_decide.mpr (le_congr left right))
  | eq => exact alike_truth (beq_congr left right)
  | ne => exact alike_truth (congrArg not (beq_congr left right))
  | add => exact left.add right
  | sub => exact left.sub right
  | mul => exact left.mul right
  | div => exact left.quotient right
  | mod => exact left.remainder right

theorem isTrue_congr (alike : Alike x y) : isTrue x = isTrue y := by
  rcases alike with rfl | ⟨zero, zero'⟩
  · rfl
  · rw [isTrue, isTrue, zero, zero']
    rfl

theorem settle_congr (alike : Alike x y) : settle x = settle y := by
  rcases alike with rfl | ⟨zero, zero'⟩
  · rfl
  · rw [settle_eq, settle_eq, zero, zero']
    simp

/-- The sign of a zero among the values of names does not show. -/
theorem Reading.value_alike {env env' : String → Float} (alike : ∀ name, Alike (env name) (env' name))
    (r : Reading) : Alike (r.value env) (r.value env') := by
  induction r with
  | name text => exact alike text
  | group _ _ ih => exact ih
  | negate _ ih => exact ih.neg
  | binary op _ _ left right => exact op.apply_alike left right
  | ifThen _ _ c t =>
      rw [value, value, isTrue_congr c]
      split
      · exact t
      · exact .refl _
  | ifThenElse _ _ _ c t e =>
      rw [value, value, isTrue_congr c]
      split
      · exact t
      · exact e
  | _ => exact .refl _

end Zeros

/-! ## Cleaned variables -/

/-- The number that a value stands for, zero if it stands for none. -/
def cleanNumber (v : Json) : Float :=
  match toNumber v with
  | .number x => x
  | .notANumber | .outOfRange => 0.0

/-- The number of each variable. -/
def cleaned (vars : Variables) : Entries String Float :=
  vars.map fun (name, v) => (name, cleanNumber v)

theorem numberOf_cleaned (vars : Variables) : numberOf (cleaned vars) = vars.value := by
  funext name
  rw [numberOf, cleaned, Entries.get?_map, Variables.value]
  cases vars.get? name <;> rfl

theorem cleanNumber_of_outOfRange {n : Int} (far : rangeBound ≤ n.natAbs) :
    cleanNumber (.int n) = 0.0 := by
  simp only [cleanNumber, toNumber, ofInt?_eq_none_iff.mpr far]

/-- A name is out of range if it stands for an integer that is. -/
theorem isOutOfRange_iff {vars : Variables} {name : String} :
    vars.isOutOfRange name = true ↔ ∃ n, vars.get? name = some (.int n) ∧ rangeBound ≤ n.natAbs := by
  unfold Variables.isOutOfRange
  cases vars.get? name with
  | none => simp
  | some v =>
      cases v with
      | int n =>
          simp only [toNumber, ← ofInt?_eq_none_iff, Option.some.injEq, Json.int.injEq,
            exists_eq_left']
          cases ofInt? n <;> simp
      | string s =>
          cases s with
          | whole s =>
              simp only [toNumber]
              cases floatText? s <;> simp
          | torn t => simp [toNumber]
      | _ => simp [toNumber]

/-- A formula that names an integer out of range has the value zero. -/
theorem evaluate_of_outOfRange {limit : Nat} {formula : String} {vars : Variables} {name : String}
    (used : name ∈ (read (tokenize formula)).1.names) (far : vars.isOutOfRange name = true) :
    evaluate limit formula vars = 0.0 := by
  have outOfRange : (read (tokenize formula)).1.names.any vars.isOutOfRange = true :=
    List.any_eq_true.mpr ⟨name, used, far⟩
  simp only [evaluate, evaluateTokens, outOfRange, or_true, ↓reduceIte]

/-- Among numbers, a formula has the same value where they are alike. -/
theorem evaluate_alike {limit : Nat} {formula : String} {env env' : Entries String Float}
    (alike : ∀ name, Alike (numberOf env name) (numberOf env' name)) :
    evaluate limit formula (Tool.toVariables env) = evaluate limit formula (Tool.toVariables env') := by
  rw [evaluate_numbers, evaluate_numbers, settle_congr (Reading.value_alike alike _)]

/-- A formula that names an integer out of range has the value zero, and any other formula has the value
that it has where each variable is the number that it stands for, zero if it stands for none.  There, names
that are bound to a zero can be dropped. -/
theorem evaluate_cleaned (limit : Nat) (formula : String) (vars : Variables) :
    ((∃ name ∈ (read (tokenize formula)).1.names, ∃ n,
        vars.get? name = some (.int n) ∧ rangeBound ≤ n.natAbs) → evaluate limit formula vars = 0.0) ∧
      ((∀ name ∈ (read (tokenize formula)).1.names, ∀ n,
          vars.get? name = some (.int n) → n.natAbs < rangeBound) →
        evaluate limit formula vars = evaluate limit formula (Tool.toVariables (cleaned vars))) ∧
      ∀ kept : String → Bool,
        (∀ name, kept name = false → (numberOf (cleaned vars) name == 0.0) = true) →
        evaluate limit formula (Tool.toVariables ((cleaned vars).filter fun (name, _) => kept name)) =
          evaluate limit formula (Tool.toVariables (cleaned vars)) := by
  refine ⟨?_, ?_, fun kept zeros => evaluate_alike fun name => ?_⟩
  · rintro ⟨name, used, far⟩
    exact evaluate_of_outOfRange used (isOutOfRange_iff.mpr far)
  · intro near
    have inRange : (read (tokenize formula)).1.names.any vars.isOutOfRange = false := by
      refine List.any_eq_false.mpr fun name used far => ?_
      obtain ⟨n, found, large⟩ := isOutOfRange_iff.mp far
      exact absurd large (Nat.not_le.mpr (near name used n found))
    rw [evaluate_of_inRange inRange, evaluate_numbers, numberOf_cleaned]
  · cases keeps : kept name with
    | true => exact .inl (by rw [numberOf, Entries.get?_filter, keeps]; rfl)
    | false =>
        have dropped : numberOf ((cleaned vars).filter fun (name, _) => kept name) name = 0.0 := by
          rw [numberOf, Entries.get?_filter, keeps]
          rfl
        exact .inr ⟨by rw [dropped]; rfl, zeros name keeps⟩

/-- A text that is read as a number, one that is read as negative zero, and null. -/
theorem evaluate_cleaned_texts :
    let vars : Variables := [("a", .string " 2 "), ("b", .string "-0"), ("c", .null)]
    let kept : String → Bool := fun name => name == "a"
    (∀ name ∈ (read (tokenize "a - b")).1.names, ∀ n,
        vars.get? name = some (.int n) → n.natAbs < rangeBound) ∧
      (∀ name, kept name = false → (numberOf (cleaned vars) name == 0.0) = true) ∧
      cleaned vars = [("a", 2.0), ("b", -0.0), ("c", 0.0)] ∧
      evaluate 960 "a - b" vars = evaluate 960 "a - b" (Tool.toVariables (cleaned vars)) ∧
      evaluate 960 "a - b" (Tool.toVariables [("a", 2.0)]) =
        evaluate 960 "a - b" (Tool.toVariables (cleaned vars)) := by
  intro vars kept
  have names : (read (tokenize "a - b")).1.names = ["a", "b"] := by
    cbv
  have near : ∀ name ∈ (read (tokenize "a - b")).1.names, ∀ n,
      vars.get? name = some (.int n) → n.natAbs < rangeBound := by
    rw [names]
    simp [vars, Entries.get?, List.lookup_cons]
  have numbers : cleaned vars = [("a", 2.0), ("b", -0.0), ("c", 0.0)] := by
    rfl
  have zeros : ∀ name, kept name = false → (numberOf (cleaned vars) name == 0.0) = true := by
    intro name dropped
    have plus : ((0.0 : Float) == 0.0) = true := rfl
    have minus : ((-0.0 : Float) == 0.0) = true := rfl
    have other : (name == "a") = false := dropped
    rw [numbers, numberOf, Entries.get?]
    simp only [List.lookup_cons, List.lookup_nil, other]
    cases name == "b" <;> cases name == "c" <;>
      simp only [Option.getD_some, Option.getD_none, plus, minus]
  obtain ⟨_, inRange, drop⟩ := evaluate_cleaned 960 "a - b" vars
  have dropped := drop kept zeros
  rw [numbers] at dropped
  exact ⟨near, zeros, numbers, inRange near, numbers ▸ dropped⟩

/-- A name that stands for an integer of 401 digits makes the whole formula zero. -/
theorem evaluate_ne_cleaned_large :
    let vars : Variables := [("a", .int (Int.ofNat (Nat.pow 10 400)))]
    evaluate 960 "a + 1" vars = 0.0 ∧ cleaned vars = [("a", 0.0)] ∧
      evaluate 960 "a + 1" (Tool.toVariables (cleaned vars)) = 1.0 := by
  intro vars
  have reading : (read (tokenize "a + 1")).1 = .binary .add (.name "a") (.number "1") := by
    cbv
  have used : "a" ∈ (read (tokenize "a + 1")).1.names := by
    rw [reading]
    exact List.mem_cons_self
  have far : rangeBound ≤ (Int.ofNat (Nat.pow 10 400)).natAbs := by
    decide +kernel
  have found : vars.get? "a" = some (.int (Int.ofNat (Nat.pow 10 400))) := rfl
  have numbers : cleaned vars = [("a", 0.0)] := by
    have zero := cleanNumber_of_outOfRange far
    simp only [vars, cleaned, List.map_cons, List.map_nil, zero]
  have one : evaluate 960 "a + 1" (Tool.toVariables [("a", 0.0)]) = 1.0 := by
    rw [evaluate_numbers, reading]
    rfl
  exact ⟨evaluate_of_outOfRange used (isOutOfRange_iff.mpr ⟨_, found, far⟩), numbers, numbers ▸ one⟩

end LessonCalc.Formula
