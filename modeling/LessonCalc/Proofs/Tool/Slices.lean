import LessonCalc.Proofs.Tool.Reordering
import LessonCalc.Proofs.Tool.Run

/-!
# What an output depends on

A name in a formula refers to the latest output before it that has the name, else to the input of that
name.  Following these references back from an output gives the outputs and inputs that it reaches.
Nothing else has any influence on its value, and no condition is put on the tool: ids may be declared
twice, and formulas may be malformed, name themselves or name what comes later.

* `Refers`, `Reaches`: what a name refers to at a position, and what an output reaches.
* `refers_iff`: what a name refers to is found by looking back from the position.
* `Edit`: the outputs that are not reached go, or take another formula.
* `Agrees.step`, `agrees_take`: two runs, of the tool and of the edited one, keep giving the same value
  to every name that refers only to what is reached.
* `compute_slice`: so they compute the same value for the output.
-/

namespace LessonCalc.Tool

open LessonCalc.Formula

/-! ## References -/

/-- The formula of an output has the name among its tokens, whether it is read or not. -/
def Output.Mentions (o : Output) (name : String) : Prop :=
  Token.name name ∈ tokenize o.formula

/-- The names that are looked up are among the tokens. -/
theorem Output.mentions_of_mem_names {o : Output} {name : String} (used : name ∈ o.names) :
    o.Mentions name :=
  ((reads_read _).mem_tokens used).resolve_right List.not_mem_nil

/-- Where a value comes from: an output by its position, or an input by its id. -/
inductive Source where
  | output (position : Nat)
  | input (id : String)
  deriving Repr, DecidableEq

/-- The output at a position has an id. -/
def HasId (t : Tool) (position : Nat) (name : String) : Prop :=
  (Lint.outputIds t)[position]? = some name

instance (t : Tool) (position : Nat) (name : String) : Decidable (t.HasId position name) :=
  inferInstanceAs (Decidable ((Lint.outputIds t)[position]? = some name))

theorem hasId_iff {t : Tool} {position : Nat} {o : Output} (place : t.outputs[position]? = some o)
    {name : String} : t.HasId position name ↔ o.id = name := by
  rw [HasId, Lint.outputIds, List.getElem?_map, place, Option.map_some, Option.some.injEq]

/-- What a name refers to at a position: the latest output before it that has the name, else the input
that has it. -/
inductive Refers (t : Tool) (position : Nat) (name : String) : Source → Prop
  | output {earlier : Nat} : earlier < position → t.HasId earlier name →
      (∀ between, earlier < between → between < position → ¬t.HasId between name) →
      Refers t position name (.output earlier)
  | input : name ∈ Lint.inputIds t → (∀ earlier < position, ¬t.HasId earlier name) →
      Refers t position name (.input name)

/-- The position behind an output with the name refers to that output, and to nothing else. -/
theorem refers_succ_of_hasId {t : Tool} {position : Nat} {name : String} {source : Source}
    (has : t.HasId position name) :
    Refers t (position + 1) name source ↔ source = .output position := by
  constructor
  · intro refers
    cases refers with
    | output before _ none =>
        rcases Nat.lt_succ_iff_lt_or_eq.mp before with low | rfl
        · exact absurd has (none position low (Nat.lt_succ_self position))
        · rfl
    | input _ none => exact absurd has (none position (Nat.lt_succ_self position))
  · rintro rfl
    exact .output (Nat.lt_succ_self position) has fun between low high =>
      absurd (Nat.le_of_lt_succ high) (Nat.not_le.mpr low)

/-- The position behind any other output refers to what the output itself refers to. -/
theorem refers_succ_of_not_hasId {t : Tool} {position : Nat} {name : String} {source : Source}
    (other : ¬t.HasId position name) :
    Refers t (position + 1) name source ↔ Refers t position name source := by
  constructor
  · intro refers
    cases refers with
    | output before has none =>
        rcases Nat.lt_succ_iff_lt_or_eq.mp before with low | rfl
        · exact .output low has fun between low high => none between low (Nat.lt_succ_of_lt high)
        · exact absurd has other
    | input listed none =>
        exact .input listed fun earlier before => none earlier (Nat.lt_succ_of_lt before)
  · intro refers
    cases refers with
    | output before has none =>
        refine .output (Nat.lt_succ_of_lt before) has fun between low high => ?_
        rcases Nat.lt_succ_iff_lt_or_eq.mp high with inside | rfl
        · exact none between low inside
        · exact other
    | input listed none =>
        refine .input listed fun earlier before => ?_
        rcases Nat.lt_succ_iff_lt_or_eq.mp before with inside | rfl
        · exact none earlier inside
        · exact other

/-- What a name refers to, looked for from a position back. -/
def source? (t : Tool) (name : String) : Nat → Option Source
  | 0 => if name ∈ Lint.inputIds t then some (.input name) else none
  | position + 1 => if t.HasId position name then some (.output position) else t.source? name position

theorem refers_iff {t : Tool} {position : Nat} {name : String} {source : Source} :
    Refers t position name source ↔ t.source? name position = some source := by
  induction position with
  | zero =>
      rw [source?, Option.ite_none_right_eq_some, Option.some.injEq]
      constructor
      · intro refers
        cases refers with
        | output before _ _ => exact absurd before (Nat.not_lt_zero _)
        | input listed _ => exact ⟨listed, rfl⟩
      · rintro ⟨listed, rfl⟩
        exact .input listed fun _ before => absurd before (Nat.not_lt_zero _)
  | succ position ih =>
      rw [source?]
      split
      next has => rw [refers_succ_of_hasId has, Option.some.injEq, eq_comm]
      next other => rw [refers_succ_of_not_hasId other, ih]

instance (t : Tool) (position : Nat) (name : String) (source : Source) :
    Decidable (Refers t position name source) :=
  decidable_of_iff _ refers_iff.symm

/-- What an output reaches: itself, and what the names in the formulas of reached outputs refer to. -/
inductive Reaches (t : Tool) (start : Nat) : Source → Prop
  | self : Reaches t start (.output start)
  | step {position : Nat} {o : Output} {name : String} {source : Source} :
      Reaches t start (.output position) → t.outputs[position]? = some o → o.Mentions name →
      Refers t position name source → Reaches t start source

/-! ## Edits -/

/-- What is done to an output of a tool: it stays, it goes, or it takes another formula. -/
inductive Edit where
  | keep
  | drop
  | rewrite (formula : String)
  deriving Repr, DecidableEq

/-- What is left of an output. -/
def Edit.apply : Edit → Output → List Output
  | keep, o => [o]
  | drop, _ => []
  | rewrite formula, o => [{ o with formula }]

/-- The outputs that are left, in order, where each position has its edit. -/
def editOutputs (edits : Nat → Edit) (outputs : List Output) : List Output :=
  (outputs.mapIdx fun position o => (edits position).apply o).flatten

/-- A tool with edited outputs. -/
def edit (t : Tool) (edits : Nat → Edit) : Tool :=
  { t with outputs := editOutputs edits t.outputs }

theorem editOutputs_append (edits : Nat → Edit) (before after : List Output) :
    editOutputs edits (before ++ after) = editOutputs edits before ++
      editOutputs (fun position => edits (position + before.length)) after := by
  simp only [editOutputs, List.mapIdx_append, List.flatten_append]

theorem editOutputs_cons (edits : Nat → Edit) (o : Output) (after : List Output) :
    editOutputs edits (o :: after) =
      (edits 0).apply o ++ editOutputs (fun position => edits (position + 1)) after := by
  simp only [editOutputs, List.mapIdx_cons, List.flatten_cons]

/-- The outputs up to a position, edited, and behind them what is left of the one there. -/
theorem editOutputs_take_succ (edits : Nat → Edit) {outputs : List Output} {i : Nat} {o : Output}
    (place : outputs[i]? = some o) :
    editOutputs edits (outputs.take (i + 1)) =
      editOutputs edits (outputs.take i) ++ (edits i).apply o := by
  obtain ⟨inside, _⟩ := List.getElem?_eq_some_iff.mp place
  have length : (outputs.take i).length = i := List.length_take_of_le (Nat.le_of_lt inside)
  rw [List.take_add_one, place, Option.toList_some, editOutputs_append, editOutputs_cons, length,
    Nat.zero_add]
  exact congrArg _ (List.append_nil _)

/-- An output that stays has the edited outputs before it in front. -/
theorem exists_editOutputs {edits : Nat → Edit} {before : List Output} {o : Output}
    (after : List Output) (kept : edits before.length = .keep) :
    ∃ after', editOutputs edits (before ++ o :: after) = editOutputs edits before ++ o :: after' := by
  rw [editOutputs_append, editOutputs_cons, Nat.zero_add, kept]
  exact ⟨_, rfl⟩

/-! ## Two runs -/

theorem variablesAfter_append (limit : Nat) (before after : List Output) (vars : Variables) :
    variablesAfter limit (before ++ after) vars = variablesAfter limit after (variablesAfter limit before vars) := by
  induction before generalizing vars with
  | nil => rfl
  | cons o rest ih => exact ih _

theorem resolve_append (limit : Nat) (before after : List Output) (vars : Variables) :
    resolve limit (before ++ after) vars =
      resolve limit before vars ++ resolve limit after (variablesAfter limit before vars) := by
  induction before generalizing vars with
  | nil => rfl
  | cons o rest ih => rw [List.cons_append, resolve, ih]; rfl

theorem length_resolve (limit : Nat) (outputs : List Output) (vars : Variables) :
    (resolve limit outputs vars).length = outputs.length := by
  rw [← List.length_map Prod.fst, map_fst_resolve]

/-- What is shown of an output has the value of its formula among the outputs before it. -/
theorem exists_computed {room : Room} {t : Tool} {before after : List Output} {o : Output} {entered : Entered}
    {numbers : Entries String Float} (outputs : t.outputs = before ++ o :: after)
    (coerced : t.coerce room entered = .ok numbers) :
    ∃ computed c, t.compute room entered = .ok computed ∧ computed[before.length]? = some c ∧
      c.output = o ∧ c.value =
        evaluate room.formula o.formula (variablesAfter room.formula before (toVariables numbers)) := by
  obtain ⟨shown, run⟩ := exists_compute coerced
  have length := length_resolve room.formula before (toVariables numbers)
  refine ⟨_, present shown o _, run, ?_, rfl, rfl⟩
  rw [List.getElem?_map, outputs, resolve_append,
    List.getElem?_append_right (Nat.le_of_eq length), length, Nat.sub_self]
  rfl

section Runs

variable {limit : Nat} {t : Tool} {start i : Nat} {o : Output} {vars vars' : Variables} {edits : Nat → Edit}

/-- Everything that a name refers to at a position is reached. -/
def Covers (t : Tool) (start position : Nat) (name : String) : Prop :=
  ∀ source, Refers t position name source → Reaches t start source

/-- Two lists of variables give the same to every name that refers only to what is reached. -/
def Agrees (t : Tool) (start position : Nat) (vars vars' : Variables) : Prop :=
  ∀ name, Covers t start position name → vars.get? name = vars'.get? name

/-- A reached output has the same value among variables that agree. -/
theorem Agrees.evaluate_eq (limit : Nat) (agrees : Agrees t start i vars vars') (place : t.outputs[i]? = some o)
    (reached : Reaches t start (.output i)) :
    evaluate limit o.formula vars = evaluate limit o.formula vars' :=
  evaluate_congr fun name used => agrees name fun _ refers =>
    .step reached place (Output.mentions_of_mem_names used) refers

/-- Where reached outputs stay, variables that agree before an output and what is left of it agree
behind it. -/
theorem Agrees.step (agrees : Agrees t start i vars vars') (place : t.outputs[i]? = some o)
    (kept : Reaches t start (.output i) → edits i = .keep) :
    Agrees t start (i + 1) (variablesAfter limit [o] vars) (variablesAfter limit ((edits i).apply o) vars') := by
  intro name covers
  by_cases same : name = o.id
  · subst same
    have reached := covers _ ((refers_succ_of_hasId ((hasId_iff place).mpr rfl)).mpr rfl)
    rw [kept reached, Edit.apply]
    simp only [variablesAfter, Entries.get?_insert, ↓reduceIte, agrees.evaluate_eq _ place reached]
  · have other : ¬t.HasId i name := fun has => same ((hasId_iff place).mp has).symm
    have before := agrees name fun source refers =>
      covers source ((refers_succ_of_not_hasId other).mpr refers)
    cases edits i <;> simpa [variablesAfter, Edit.apply, Entries.get?_insert, same] using before

/-- The variables of two runs agree at every position. -/
theorem agrees_take (limit : Nat) (agrees : Agrees t start 0 vars vars')
    (kept : ∀ i, Reaches t start (.output i) → edits i = .keep) {i : Nat}
    (inside : i ≤ t.outputs.length) :
    Agrees t start i (variablesAfter limit (t.outputs.take i) vars)
      (variablesAfter limit (editOutputs edits (t.outputs.take i)) vars') := by
  induction i with
  | zero => exact agrees
  | succ i ih =>
      have place : t.outputs[i]? = some t.outputs[i] := List.getElem?_eq_getElem inside
      rw [editOutputs_take_succ edits place, variablesAfter_append, List.take_add_one, place,
        Option.toList_some, variablesAfter_append]
      exact (ih (Nat.le_of_lt inside)).step place (kept i)

end Runs

/-! ## What was entered -/

/-- At the start, numbers agree if the entries of the reached inputs do. -/
theorem agrees_toVariables {room : Room} {t : Tool} {start : Nat} {entered entered' : Entered}
    {numbers numbers' : Entries String Float}
    (agree : ∀ name, Reaches t start (.input name) → entered.lookup name = entered'.lookup name)
    (coerced : t.coerce room entered = .ok numbers) (coerced' : t.coerce room entered' = .ok numbers') :
    Agrees t start 0 (toVariables numbers) (toVariables numbers') := by
  intro name covers
  rw [get?_toVariables, get?_toVariables]
  congr 1
  by_cases listed : name ∈ t.inputs.map (·.id)
  · have reached := covers _ (.input listed fun _ before => absurd before (Nat.not_lt_zero _))
    obtain ⟨i, member, rfl⟩ := List.mem_map.mp listed
    exact get?_coerce_congr coerced coerced' member (agree i.id reached)
  · rw [Entries.get?_eq_none_iff.mpr fun member => listed ((mem_keys_of_coerce coerced name).mp member),
      Entries.get?_eq_none_iff.mpr fun member => listed ((mem_keys_of_coerce coerced' name).mp member)]

/-- What is entered under names that are no inputs changes nothing. -/
theorem compute_congr {room : Room} {t : Tool} {entered entered' : Entered}
    (agree : ∀ name ∈ Lint.inputIds t, entered.lookup name = entered'.lookup name) :
    t.compute room entered = t.compute room entered' := by
  have states := fieldStates_congr fun i listed => agree i.id (List.mem_map_of_mem listed)
  simp only [compute, coerce, hasInput, states]

/-- The value of an output is the same for two entries that agree on the inputs that it reaches, and
after any edit of outputs that it does not reach.  What is entered under names that are no inputs has no
influence on any output. -/
theorem compute_slice {room : Room} {t : Tool} {k : Nat} {o : Output} (place : t.outputs[k]? = some o)
    {edits : Nat → Edit} (kept : ∀ i, Reaches t k (.output i) → edits i = .keep)
    {entered entered' : Entered} {numbers numbers' : Entries String Float}
    (agree : ∀ name, Reaches t k (.input name) → entered.lookup name = entered'.lookup name)
    (coerced : t.coerce room entered = .ok numbers) (coerced' : t.coerce room entered' = .ok numbers') :
    (∃ computed computed' c c', t.compute room entered = .ok computed ∧
      (t.edit edits).compute room entered' = .ok computed' ∧ computed[k]? = some c ∧
      computed'[(editOutputs edits (t.outputs.take k)).length]? = some c' ∧
      c.output = o ∧ c'.output = o ∧ c.value = c'.value) ∧
    ∀ other : Entered, (∀ name ∈ Lint.inputIds t, other.lookup name = entered.lookup name) →
      t.compute room other = t.compute room entered := by
  refine ⟨?_, fun _ same => compute_congr same⟩
  obtain ⟨inside, here⟩ := List.getElem?_eq_some_iff.mp place
  have length : (t.outputs.take k).length = k := List.length_take_of_le (Nat.le_of_lt inside)
  have split : t.outputs = t.outputs.take k ++ o :: t.outputs.drop (k + 1) := by
    rw [← here, List.cons_getElem_drop_succ, List.take_append_drop]
  have stays : edits (t.outputs.take k).length = .keep := by
    rw [length]
    exact kept k .self
  obtain ⟨after, split'⟩ := exists_editOutputs (o := o) (t.outputs.drop (k + 1)) stays
  rw [← split] at split'
  have coerced'' : (t.edit edits).coerce room entered' = .ok numbers' :=
    (coerce_eq room rfl entered').trans coerced'
  obtain ⟨computed, c, run, entry, output, value⟩ := exists_computed split coerced
  obtain ⟨computed', c', run', entry', output', value'⟩ := exists_computed split' coerced''
  rw [length] at entry
  have agrees := agrees_take room.formula (agrees_toVariables agree coerced coerced') kept (Nat.le_of_lt inside)
  have same := agrees.evaluate_eq room.formula place .self
  exact ⟨computed, computed', c, c', run, run', entry, entry', output, output',
    value.trans (same.trans value'.symm)⟩

/-- An output that names an id declared twice, itself and, behind its end, nothing.  It reaches both
outputs of that id and one of the two inputs. -/
theorem compute_slice_twice :
    let x : Output := { id := "x", formula := "a" }
    let y : Output := { id := "y", formula := "b" }
    let x' : Output := { id := "x", formula := "x + 1" }
    let z : Output := { id := "z", formula := "x + z )" }
    let t : Tool :=
      { inputs := [{ id := "a" }, { id := "b" }], outputs := [x, y, x', z, { id := "w", formula := "z" }] }
    let edits : Nat → Edit := fun position =>
      if position = 1 then .drop else if position = 4 then .rewrite "b" else .keep
    t.outputs[3]? = some z ∧ (∀ i, Reaches t 3 (.output i) → edits i = .keep) ∧
      (∀ name, Reaches t 3 (.input name) →
        List.lookup name [("a", Json.float 1.0), ("b", .float 2.0)] =
          List.lookup name [("c", .null), ("a", .float 1.0)]) ∧
      t.coerce {} [("a", .float 1.0), ("b", .float 2.0)] = .ok [("a", 1.0), ("b", 2.0)] ∧
      t.coerce {} [("c", .null), ("a", .float 1.0)] = .ok [("a", 1.0), ("b", 0.0)] ∧
      (t.edit edits).outputs = [x, x', z, { id := "w", formula := "b" }] ∧
      ∃ computed computed' c c',
        t.compute {} [("a", .float 1.0), ("b", .float 2.0)] = .ok computed ∧
        (t.edit edits).compute {} [("c", .null), ("a", .float 1.0)] = .ok computed' ∧
        computed[3]? = some c ∧ computed'[2]? = some c' ∧ c.output = z ∧ c'.output = z ∧
        c.value = c'.value := by
  intro x y x' z t edits
  have tokens : tokenize "x + z )" = [.name "x", .operator .add, .name "z", .closeParen] := by
    cbv
  have tokens' : tokenize "x + 1" = [.name "x", .operator .add, .number "1"] := by
    cbv
  have tokens'' : tokenize "a" = [.name "a"] := by
    cbv
  have slice : ∀ source, Reaches t 3 source →
      source = .output 3 ∨ source = .output 2 ∨ source = .output 0 ∨ source = .input "a" := by
    intro source reached
    induction reached with
    | self => exact .inl rfl
    | @step _ _ name _ _ place mentions refers ih =>
        have found := refers_iff.mp refers
        rcases ih with same | same | same | same <;> cases same <;> cases place
        · have either : name = "x" ∨ name = "z" := by
            simpa [Output.Mentions, z, tokens] using mentions
          rcases either with rfl | rfl
          · have latest : t.source? "x" 3 = some (.output 2) := by decide
            exact .inr (.inl (Option.some.inj (found.symm.trans latest)))
          · have nothing : t.source? "z" 3 = none := by decide
            cases found.symm.trans nothing
        · have only : name = "x" := by
            simpa [Output.Mentions, x', tokens'] using mentions
          subst only
          have latest : t.source? "x" 2 = some (.output 0) := by decide
          exact .inr (.inr (.inl (Option.some.inj (found.symm.trans latest))))
        · have only : name = "a" := by
            simpa [Output.Mentions, x, tokens''] using mentions
          subst only
          have first : t.source? "a" 0 = some (.input "a") := by decide
          exact .inr (.inr (.inr (Option.some.inj (found.symm.trans first))))
  have place : t.outputs[3]? = some z := rfl
  have kept : ∀ i, Reaches t 3 (.output i) → edits i = .keep := by
    intro i reached
    rcases slice _ reached with same | same | same | same <;> cases same <;> rfl
  have agree : ∀ name, Reaches t 3 (.input name) →
      List.lookup name [("a", Json.float 1.0), ("b", .float 2.0)] =
        List.lookup name [("c", .null), ("a", .float 1.0)] := by
    intro name reached
    rcases slice _ reached with same | same | same | same <;> cases same
    rfl
  have coerced : t.coerce {} [("a", .float 1.0), ("b", .float 2.0)] = .ok [("a", 1.0), ("b", 2.0)] := by
    rfl
  have coerced' : t.coerce {} [("c", .null), ("a", .float 1.0)] = .ok [("a", 1.0), ("b", 0.0)] := by
    rfl
  exact ⟨place, kept, agree, coerced, coerced', rfl,
    (compute_slice place kept agree coerced coerced').1⟩

end LessonCalc.Tool
