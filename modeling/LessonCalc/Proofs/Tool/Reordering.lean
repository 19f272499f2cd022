import LessonCalc.Proofs.Formula.Value
import LessonCalc.Proofs.Tool.References

/-!
# The order of outputs

A run computes the outputs of a tool in the order of their declaration, each from variables that have
only the earlier ones.  Where no output uses a later one, the variables at the end of the run can stand
for those at every step.  The values of the outputs then solve a system of equations, one for each
output, that says nothing about the order.

* `InOrder.resolve_eq_map`: a run evaluates every formula as among the variables at its end.
* `InOrder.isSolution`: these variables solve the equations of the outputs.
* `IsSolution.get?_eq`: the equations have no other solution.
* `compute_reordered`: so two tools without issues that declare the same outputs in different orders
  show the same.
-/

namespace LessonCalc.Tool

open LessonCalc.Formula

/-- The names that the formula of an output looks up. -/
def Output.names (o : Output) : List String :=
  (read (tokenize o.formula)).1.names

/-- Each output has an id that was not known before it, and a formula with known names only. -/
inductive InOrder : List String → List Output → Prop
  | nil {known : List String} : InOrder known []
  | cons {known : List String} {o : Output} {rest : List Output} :
      o.id ∉ known → (∀ name ∈ o.names, name ∈ known) → InOrder (known ++ [o.id]) rest →
      InOrder known (o :: rest)

/-- The variables at the end of a run. -/
def variablesAfter (limit : Nat) : List Output → Variables → Variables
  | [], vars => vars
  | o :: rest, vars =>
    variablesAfter limit rest (Entries.insert vars o.id (.float (evaluate limit o.formula vars)))

/-- Each output has the value of its formula, where all formulas see the same variables. -/
def IsSolution (limit : Nat) (outputs : List Output) (vars : Variables) : Prop :=
  ∀ o ∈ outputs, vars.get? o.id = some (.float (evaluate limit o.formula vars))

variable {limit : Nat} {known : List String} {outputs outputs' : List Output} {vars vars' : Variables}

/-! ## One run -/

/-- A run does not change what was known before it. -/
theorem InOrder.get?_variablesAfter (ordered : InOrder known outputs) {name : String}
    (member : name ∈ known) : (variablesAfter limit outputs vars).get? name = vars.get? name := by
  induction ordered generalizing vars with
  | nil => rfl
  | cons fresh _ _ ih =>
      rw [variablesAfter, ih (List.mem_append_left _ member), Entries.get?_insert, if_neg]
      rintro rfl
      exact fresh member

/-- The first formula has the same value at the end of the run. -/
theorem InOrder.evaluate_variablesAfter {o : Output} (ordered : InOrder known (o :: outputs)) :
    evaluate limit o.formula (variablesAfter limit (o :: outputs) vars) =
      evaluate limit o.formula vars := by
  have unchanged : ∀ name ∈ known, (variablesAfter limit (o :: outputs) vars).get? name =
    vars.get? name := fun _ member => ordered.get?_variablesAfter member
  cases ordered with
  | cons _ bound _ => exact evaluate_congr fun name used => unchanged name (bound name used)

/-- A run evaluates every formula as among the variables at its end. -/
theorem InOrder.resolve_eq_map (ordered : InOrder known outputs) :
    resolve limit outputs vars =
      outputs.map fun o => (o, evaluate limit o.formula (variablesAfter limit outputs vars)) := by
  induction ordered generalizing vars with
  | nil => rfl
  | @cons _ o rest fresh bound later ih =>
      have first : evaluate limit o.formula (variablesAfter limit (o :: rest) vars) =
          evaluate limit o.formula vars :=
        evaluate_variablesAfter (.cons fresh bound later)
      rw [List.map_cons, first, resolve, ih]
      rfl

/-- The variables at the end of a run solve the equations of the outputs. -/
theorem InOrder.isSolution (ordered : InOrder known outputs) :
    IsSolution limit outputs (variablesAfter limit outputs vars) := by
  induction ordered generalizing vars with
  | nil => exact fun _ member => absurd member List.not_mem_nil
  | @cons known o rest fresh bound later ih =>
      have first : evaluate limit o.formula (variablesAfter limit (o :: rest) vars) =
          evaluate limit o.formula vars :=
        evaluate_variablesAfter (.cons fresh bound later)
      have last : o.id ∈ known ++ [o.id] := List.mem_append_right _ List.mem_cons_self
      intro o' member
      rcases List.mem_cons.mp member with rfl | member
      · rw [first, variablesAfter, later.get?_variablesAfter last, Entries.get?_insert, if_pos rfl]
      · exact ih o' member

/-! ## Two runs -/

/-- The equations of the outputs have at most one solution. -/
theorem IsSolution.get?_eq (solution : IsSolution limit outputs vars) (solution' : IsSolution limit outputs vars')
    (ordered : InOrder known outputs) (agree : ∀ name ∈ known, vars.get? name = vars'.get? name) :
    ∀ name ∈ known ++ outputs.map (·.id), vars.get? name = vars'.get? name := by
  -- One order is enough: the outputs are compared as it declares them, whatever order the
  -- other solution came from.
  induction ordered with
  | nil => simpa using agree
  | @cons known o rest _ bound _ ih =>
      have value : evaluate limit o.formula vars = evaluate limit o.formula vars' :=
        evaluate_congr fun name used => agree name (bound name used)
      have agree' : ∀ name ∈ known ++ [o.id], vars.get? name = vars'.get? name := by
        intro name member
        rcases List.mem_append.mp member with member | last
        · exact agree name member
        · rw [List.mem_singleton.mp last, solution o List.mem_cons_self,
            solution' o List.mem_cons_self, value]
      rw [List.map_cons, List.append_cons]
      exact ih (fun o' member => solution o' (List.mem_cons_of_mem o member))
        (fun o' member => solution' o' (List.mem_cons_of_mem o member)) agree'

/-- The formulas name nothing but what is known before the run and the outputs. -/
theorem InOrder.names_known (ordered : InOrder known outputs) {o : Output} (member : o ∈ outputs)
    {name : String} (used : name ∈ o.names) : name ∈ known ++ outputs.map (·.id) := by
  induction ordered with
  | nil => cases member
  | cons _ bound _ ih =>
      rcases List.mem_cons.mp member with rfl | member
      · exact List.mem_append_left _ (bound name used)
      · rw [List.map_cons, List.append_cons]
        exact ih member

/-- Two orders of the same outputs give each output one value. -/
theorem InOrder.exists_values (limit : Nat) (ordered : InOrder known outputs) (ordered' : InOrder known outputs')
    (permuted : outputs.Perm outputs') (vars : Variables) :
    ∃ value : Output → Float, resolve limit outputs vars = outputs.map (fun o => (o, value o)) ∧
      resolve limit outputs' vars = outputs'.map (fun o => (o, value o)) := by
  have solution' : IsSolution limit outputs (variablesAfter limit outputs' vars) := fun o member =>
    ordered'.isSolution o (permuted.mem_iff.mp member)
  have agree : ∀ name ∈ known ++ outputs.map (·.id),
      (variablesAfter limit outputs vars).get? name = (variablesAfter limit outputs' vars).get? name :=
    ordered.isSolution.get?_eq solution' ordered fun name member => by
      rw [ordered.get?_variablesAfter member, ordered'.get?_variablesAfter member]
  refine ⟨_, ordered.resolve_eq_map, ordered'.resolve_eq_map.trans ?_⟩
  refine List.map_congr_left fun o member => ?_
  have member' := permuted.mem_iff.mpr member
  have value : evaluate limit o.formula (variablesAfter limit outputs vars) =
      evaluate limit o.formula (variablesAfter limit outputs' vars) :=
    evaluate_congr fun name used => agree name (ordered.names_known member' used)
  rw [value]

/-! ## Tools without issues -/

theorem inOrder_of_nodup (nodup : (known ++ outputs.map (·.id)).Nodup)
    (bound : ∀ i o, outputs[i]? = some o →
      ∀ name ∈ o.names, name ∈ known ∨ name ∈ (outputs.map (·.id)).take i) :
    InOrder known outputs := by
  induction outputs generalizing known with
  | nil => exact .nil
  | cons o rest ih =>
      have fresh : o.id ∉ known := fun member =>
        (List.nodup_append.mp nodup).2.2 o.id member o.id List.mem_cons_self rfl
      have first : ∀ name ∈ o.names, name ∈ known := fun name used => by
        simpa using bound 0 o rfl name used
      rw [List.map_cons, List.append_cons] at nodup
      refine .cons fresh first (ih nodup fun i o' place name used => ?_)
      rcases bound (i + 1) o' place name used with member | earlier
      · exact .inl (List.mem_append_left _ member)
      · rcases List.mem_cons.mp earlier with rfl | earlier
        · exact .inl (List.mem_append_right _ List.mem_cons_self)
        · exact .inr earlier

/-- The outputs of a tool without issues are in order. -/
theorem inOrder_of_check {t : Tool} {strict : Bool} (clean : Lint.check t strict = []) :
    InOrder (Lint.inputIds t) t.outputs := by
  obtain ⟨nodup, formulas⟩ := Lint.check_eq_nil_iff.mp clean
  refine inOrder_of_nodup nodup fun i o place name used => ?_
  obtain ⟨tree, accepted, bound⟩ := formulas i o place
  exact bound name (names_eq_of_parse accepted ▸ used)

/-- Two tools without issues that have the same inputs, and the same outputs in different orders, compute
the same for each output: its value, its text and whether it is flagged negative. -/
theorem compute_reordered {room : Room} {t u : Tool} {strict strict' : Bool} {entered : Entered}
    {numbers : Entries String Float} (sameInputs : t.inputs = u.inputs)
    (permuted : t.outputs.Perm u.outputs) (clean : Lint.check t strict = [])
    (clean' : Lint.check u strict' = []) (coerced : t.coerce room entered = .ok numbers) :
    ∃ computed computed', t.compute room entered = .ok computed ∧ u.compute room entered = .ok computed' ∧
      computed.map (·.output) = t.outputs ∧ computed'.map (·.output) = u.outputs ∧
      ∀ c ∈ computed, ∀ c' ∈ computed', c.output.id = c'.output.id → c = c' := by
  have ordered := inOrder_of_check clean
  have ordered' : InOrder (Lint.inputIds t) u.outputs := by
    rw [Lint.inputIds, sameInputs]
    exact inOrder_of_check clean'
  obtain ⟨value, values, values'⟩ := ordered.exists_values room.formula ordered' permuted
    (toVariables numbers)
  obtain ⟨shown, looked⟩ := exists_hasInput coerced
  have coerced' := (coerce_eq room sameInputs entered).symm.trans coerced
  have looked' := (hasInput_eq room sameInputs entered).symm.trans looked
  refine ⟨t.outputs.map fun o => present shown o (value o),
    u.outputs.map fun o => present shown o (value o), ?_, ?_, ?_, ?_, ?_⟩
  · simp only [compute, coerced, looked, values, List.map_map, Function.comp_def]
  · simp only [compute, coerced', looked', values', List.map_map, Function.comp_def]
  · simp [present, Function.comp_def]
  · simp [present, Function.comp_def]
  · intro c member c' member' same
    obtain ⟨o, listed, rfl⟩ := List.mem_map.mp member
    obtain ⟨o', listed', rfl⟩ := List.mem_map.mp member'
    have nodup := (List.nodup_append.mp (Lint.check_eq_nil_iff.mp clean).1).2.1
    have one := List.inj_on_of_nodup_map nodup listed (permuted.mem_iff.mpr listed') same
    rw [one]

/-- A rectangle whose area and girth are declared in either order before the sum of the two. -/
theorem compute_reordered_rectangle :
    let area : Output := { id := "area", formula := "a * b" }
    let girth : Output := { id := "girth", formula := "2 * (a + b)" }
    let sum : Output := { id := "sum", formula := "area - girth", format := .currency }
    let t : Tool := { inputs := [{ id := "a" }, { id := "b" }], outputs := [area, girth, sum] }
    let u : Tool := { inputs := [{ id := "a" }, { id := "b" }], outputs := [girth, area, sum] }
    t.inputs = u.inputs ∧ t.outputs.Perm u.outputs ∧ Lint.check t false = [] ∧
      Lint.check u true = [] ∧
      t.coerce {} [("a", .float 2.0), ("b", .float 1.0)] = .ok [("a", 2.0), ("b", 1.0)] ∧
      ∃ computed computed', t.compute {} [("a", .float 2.0), ("b", .float 1.0)] = .ok computed ∧
        u.compute {} [("a", .float 2.0), ("b", .float 1.0)] = .ok computed' ∧
        ∀ c ∈ computed, ∀ c' ∈ computed', c.output.id = c'.output.id → c = c' := by
  intro area girth sum t u
  have product : parse "a * b" = .ok (.binary .mul (.name "a") (.name "b")) := by
    cbv
  have double : parse "2 * (a + b)" =
      .ok (.binary .mul (.number "2") (.binary .add (.name "a") (.name "b"))) := by
    cbv
  have difference : parse "area - girth" = .ok (.binary .sub (.name "area") (.name "girth")) := by
    cbv
  have permuted : t.outputs.Perm u.outputs := List.Perm.swap girth area [sum]
  have clean : Lint.check t false = [] := by
    refine Lint.check_eq_nil_iff.mpr ⟨by decide, fun i o place => ?_⟩
    rcases i with _ | _ | _ | i
    · cases place
      exact ⟨_, product, by decide⟩
    · cases place
      exact ⟨_, double, by decide⟩
    · cases place
      exact ⟨_, difference, by decide⟩
    · cases place
  have clean' : Lint.check u true = [] := by
    refine Lint.check_eq_nil_iff.mpr ⟨by decide, fun i o place => ?_⟩
    rcases i with _ | _ | _ | i
    · cases place
      exact ⟨_, double, by decide⟩
    · cases place
      exact ⟨_, product, by decide⟩
    · cases place
      exact ⟨_, difference, by decide⟩
    · cases place
  have coerced : t.coerce {} [("a", .float 2.0), ("b", .float 1.0)] = .ok [("a", 2.0), ("b", 1.0)] := by
    rfl
  obtain ⟨computed, computed', run, run', _, _, same⟩ :=
    compute_reordered (t := t) (u := u) rfl permuted clean clean' coerced
  exact ⟨rfl, permuted, clean, clean', coerced, computed, computed', run, run', same⟩

end LessonCalc.Tool
