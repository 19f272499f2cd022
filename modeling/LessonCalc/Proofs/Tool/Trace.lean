import LessonCalc.Proofs.Data.Entries
import LessonCalc.Tool.Compute

/-!
# The lookups of a run

`resolve` tells the values of the outputs of a tool but not which names were looked up on the way.
`resolveTraced` is the same run with a record of every lookup and of what it found.

* `map_resolveTraced`: it gives the values that `resolve` gives.
* `getElem?_resolveTraced`: an output looks up the names of its formula, among variables that are the
  given ones and the outputs before it.
-/

namespace LessonCalc.Formula

/-- The names that were looked up, in order, each with what was found. -/
abbrev Lookups := List (String × Option Json)

/-- The value of a reading and its lookups.  Both branches of a condition are evaluated. -/
def Reading.trace (vars : Variables) : Reading → Float × Lookups
  | .missing | .stray _ => (0.0, [])
  | .number run => (runValue run, [])
  | .name text => (vars.value text, [(text, vars.get? text)])
  | .group inner _ => inner.trace vars
  | .negate operand =>
    let (x, lookups) := operand.trace vars
    (-x, lookups)
  | .binary op left right =>
    let (x, lookups) := left.trace vars
    let (y, lookups') := right.trace vars
    (op.apply x y, lookups ++ lookups')
  | .ifThen condition consequent =>
    let (c, lookups) := condition.trace vars
    let (x, lookups') := consequent.trace vars
    (if isTrue c then x else 0.0, lookups ++ lookups')
  | .ifThenElse condition consequent alternative =>
    let (c, lookups) := condition.trace vars
    let (x, lookups') := consequent.trace vars
    let (y, lookups'') := alternative.trace vars
    (if isTrue c then x else y, lookups ++ (lookups' ++ lookups''))

/-- The value of a formula and its lookups, which are those of the whole formula even if it is nested
too deeply. -/
def evaluateTraced (limit : Nat) (formula : String) (vars : Variables) : Float × Lookups :=
  let reading := (read (tokenize formula)).1
  let (x, lookups) := reading.trace vars
  if limit < reading.depth ∨ reading.names.any vars.isOutOfRange then (0.0, lookups)
  else (settle x, lookups)

/-- A reading has its value and looks up its names. -/
theorem Reading.trace_eq (vars : Variables) (r : Reading) :
    r.trace vars = (r.value vars.value, r.names.map fun name => (name, vars.get? name)) := by
  induction r with
  | group _ _ ih => exact ih
  | negate _ ih => simp only [trace, ih, value, names]
  | binary _ _ _ left right => simp only [trace, left, right, value, names, List.map_append]
  | ifThen _ _ c t => simp only [trace, c, t, value, names, List.map_append]
  | ifThenElse _ _ _ c t e => simp only [trace, c, t, e, value, names, List.map_append]
  | _ => rfl

/-- A formula has its value and looks up its names. -/
theorem evaluateTraced_eq (limit : Nat) (formula : String) (vars : Variables) :
    evaluateTraced limit formula vars =
      (evaluate limit formula vars,
        (read (tokenize formula)).1.names.map fun name => (name, vars.get? name)) := by
  simp only [evaluateTraced, evaluate, evaluateTokens, Reading.trace_eq]
  split <;> rfl

end LessonCalc.Formula

namespace LessonCalc.Tool

open LessonCalc.Formula

/-- An output with its value and the lookups that were made for it. -/
structure Traced where
  output : Output
  value : Float
  lookups : Lookups

/-- The value of each output and its lookups, in order, where each is added to the variables of the
next. -/
def resolveTraced (limit : Nat) : List Output → Variables → List Traced
  | [], _ => []
  | o :: rest, vars =>
    let (x, lookups) := evaluateTraced limit o.formula vars
    ⟨o, x, lookups⟩ :: resolveTraced limit rest (Entries.insert vars o.id (.float x))

variable {limit : Nat} {outputs : List Output} {vars : Variables}

/-- The record of a run has the values of the run. -/
theorem map_resolveTraced :
    (resolveTraced limit outputs vars).map (fun step => (step.output, step.value)) =
      resolve limit outputs vars := by
  induction outputs generalizing vars with
  | nil => rfl
  | cons o rest ih => simp only [resolveTraced, resolve, evaluateTraced_eq, List.map_cons, ih]

/-- The record of a run goes through the outputs in order. -/
theorem map_output_resolveTraced : (resolveTraced limit outputs vars).map (·.output) = outputs := by
  induction outputs generalizing vars with
  | nil => rfl
  | cons o rest ih => simp only [resolveTraced, List.map_cons, ih]

/-- An output is evaluated with the given variables and the outputs before it. -/
theorem getElem?_resolveTraced {i : Nat} {o : Output} (place : outputs[i]? = some o) :
    ∃ vars' : Variables,
      (∀ name, name ∈ vars'.keys ↔ name ∈ vars.keys ∨ name ∈ (outputs.map (·.id)).take i) ∧
      (resolveTraced limit outputs vars)[i]? = some
        { output := o
          value := evaluate limit o.formula vars'
          lookups :=
            (read (tokenize o.formula)).1.names.map fun name => (name, vars'.get? name) } := by
  induction outputs generalizing i vars with
  | nil => cases place
  | cons first rest ih =>
      cases i with
      | zero =>
          cases place
          exact ⟨vars, by simp, by simp [resolveTraced, evaluateTraced_eq]⟩
      | succ i =>
          obtain ⟨vars', keys, step⟩ := ih place
          refine ⟨vars', fun name => ?_, step⟩
          rw [keys, Entries.mem_keys_insert, List.map_cons, List.take_succ_cons, List.mem_cons,
            or_assoc]

end LessonCalc.Tool
