import LessonCalc.Proofs.Formula.Acceptance
import LessonCalc.Proofs.Tool.Coercion
import LessonCalc.Proofs.Tool.Trace
import LessonCalc.Tool.Lint
import Mathlib.Data.List.Nodup

/-!
# Problems with names and lookups that fail

The check of a tool finds names without a value in the trees of its formulas.  The run of the tool
looks names up from tokens, in variables that grow from output to output.  Here the two are shown to
agree.

* `check_eq`: the issues of a check are those of ids declared twice and those of each output.
* `flagged_iff_unbound`: the names flagged at an output are those that a run looks up there without
  finding them, and a tool without issues finds every name that it looks up.
-/

namespace LessonCalc

open LessonCalc.Formula

/-! ## Names of formulas -/

theorem Formula.mem_sortedNames {name : String} {names : List String} :
    name ∈ sortedNames names ↔ name ∈ names := by
  rw [sortedNames, Text.sortTexts, List.mem_mergeSort, List.mem_eraseDups]

/-- The tree of an accepted formula has the names that the evaluator looks up. -/
theorem Formula.names_eq_of_parse {formula : String} {tree : Tree}
    (accepted : parse formula = .ok tree) :
    (read (tokenize formula)).1.names = tree.names := by
  obtain ⟨_, spelled⟩ := parse_eq_ok accepted
  obtain ⟨tree', innermost⟩ := spelled.exists_innermost
  obtain ⟨_, _, rfl⟩ := isInnermost_iff.mp innermost
  rw [spelled.names_eq, Reading.names_eq, innermost.isFormula.names_eq]

namespace Lint

/-! ## Issues by output -/

/-- The name that a problem finds without a value. -/
def Problem.flagged? : Problem → Option String
  | forwardReference _ name => some name
  | unknownReference _ name _ => some name
  | _ => none

/-- The issues of ids that are declared twice. -/
def duplicateIssues (t : Tool) : List Issue :=
  (duplicates (inputIds t ++ outputIds t)).map fun (id, count) => ⟨.error, .duplicateId id count⟩

/-- The issues of each output, in order. -/
def issuesByOutput (t : Tool) (strict : Bool) : List (List Issue) :=
  t.outputs.mapIdx fun i o =>
    formulaIssues (if strict then .error else .warning) (inputIds t) ((outputIds t).take i)
      ((outputIds t).drop i) o

theorem outputIssues_eq (ofNames : Severity) (inputs earlier : List String)
    (outputs : List Tool.Output) :
    outputIssues ofNames inputs earlier outputs =
      (outputs.mapIdx fun i o =>
        formulaIssues ofNames inputs (earlier ++ (outputs.map (·.id)).take i)
          ((outputs.map (·.id)).drop i) o).flatten := by
  induction outputs generalizing earlier with
  | nil => rfl
  | cons o rest ih => simp [outputIssues, ih, List.mapIdx_cons]

/-- The issues of a check are those of ids that are declared twice and those of each output. -/
theorem check_eq (t : Tool) (strict : Bool) :
    check t strict = duplicateIssues t ++ (issuesByOutput t strict).flatten := by
  rw [check, outputIssues_eq]
  simp [duplicateIssues, issuesByOutput, outputIds]

/-! ## Issues of a formula -/

section Formulas

variable {ofNames : Severity} {inputs earlier later : List String} {o : Tool.Output} {tree : Tree}

/-- A name of an input or an earlier output has no problem. -/
theorem nameProblem?_of_bound {output name : String} (bound : name ∈ inputs ∨ name ∈ earlier) :
    nameProblem? output inputs earlier later name = none := by
  simp [nameProblem?, bound]

/-- Another name is a forward reference if a later output has it. -/
theorem nameProblem?_of_unbound {output name : String} (noInput : name ∉ inputs)
    (notEarlier : name ∉ earlier) :
    nameProblem? output inputs earlier later name =
      some (if name ∈ later then .forwardReference output name
        else .unknownReference output name (sortedNames (inputs ++ earlier))) := by
  simp only [nameProblem?, List.contains_iff_mem, noInput, notEarlier, or_self, ↓reduceIte]
  split <;> rfl

/-- A formula has one issue for each of its names that no input and no earlier output has. -/
theorem mem_formulaIssues_iff (accepted : parse o.formula = .ok tree) {issue : Issue} :
    issue ∈ formulaIssues ofNames inputs earlier later o ↔
      ∃ name ∈ tree.names, name ∉ inputs ∧ name ∉ earlier ∧
        issue = ⟨ofNames, if name ∈ later then .forwardReference o.id name
          else .unknownReference o.id name (sortedNames (inputs ++ earlier))⟩ := by
  obtain ⟨inside, _⟩ := parseChars_eq_ok_iff.mp accepted
  simp only [formulaIssues, inside, accepted, ↓reduceIte, List.mem_map, List.mem_filterMap,
    Tree.refs, mem_sortedNames]
  constructor
  · rintro ⟨problem, ⟨name, used, found⟩, rfl⟩
    have unbound : ¬(name ∈ inputs ∨ name ∈ earlier) := fun bound => by
      rw [nameProblem?_of_bound bound] at found
      cases found
    obtain ⟨noInput, notEarlier⟩ := not_or.mp unbound
    rw [nameProblem?_of_unbound noInput notEarlier] at found
    cases found
    exact ⟨name, used, noInput, notEarlier, rfl⟩
  · rintro ⟨name, used, noInput, notEarlier, rfl⟩
    exact ⟨_, ⟨name, used, nameProblem?_of_unbound noInput notEarlier⟩, rfl⟩

/-- The flagged names are those of the formula that no input and no earlier output has. -/
theorem exists_flagged_iff (accepted : parse o.formula = .ok tree) {name : String} :
    (∃ issue ∈ formulaIssues ofNames inputs earlier later o,
        issue.problem.flagged? = some name) ↔
      name ∈ tree.names ∧ name ∉ inputs ∧ name ∉ earlier := by
  simp only [mem_formulaIssues_iff accepted]
  constructor
  · rintro ⟨_, ⟨name', used, noInput, notEarlier, rfl⟩, flagged⟩
    have same : name' = name := by
      dsimp only at flagged
      split at flagged <;> exact Option.some.inj flagged
    exact same ▸ ⟨used, noInput, notEarlier⟩
  · rintro ⟨used, noInput, notEarlier⟩
    refine ⟨_, ⟨name, used, noInput, notEarlier, rfl⟩, ?_⟩
    dsimp only
    split <;> rfl

/-- The forward references are the flagged names that this or a later output has. -/
theorem exists_forwardReference_iff (accepted : parse o.formula = .ok tree) {name : String} :
    (∃ issue ∈ formulaIssues ofNames inputs earlier later o,
        issue.problem = .forwardReference o.id name) ↔
      (∃ issue ∈ formulaIssues ofNames inputs earlier later o,
        issue.problem.flagged? = some name) ∧ name ∈ later := by
  rw [exists_flagged_iff accepted]
  simp only [mem_formulaIssues_iff accepted]
  constructor
  · rintro ⟨_, ⟨name', used, noInput, notEarlier, rfl⟩, forward⟩
    dsimp only at forward
    split at forward
    · rename_i member
      cases forward
      exact ⟨⟨used, noInput, notEarlier⟩, member⟩
    · cases forward
  · rintro ⟨⟨used, noInput, notEarlier⟩, member⟩
    exact ⟨_, ⟨name, used, noInput, notEarlier, rfl⟩, by simp [member]⟩

/-- A formula without issues is one that is accepted and names only inputs and earlier outputs. -/
theorem formulaIssues_eq_nil_iff :
    formulaIssues ofNames inputs earlier later o = [] ↔
      ∃ tree, parse o.formula = .ok tree ∧
        ∀ name ∈ tree.names, name ∈ inputs ∨ name ∈ earlier := by
  constructor
  · intro clean
    cases accepted : parse o.formula with
    | error e =>
        simp only [formulaIssues, accepted] at clean
        split at clean <;> cases clean
    | ok tree =>
        refine ⟨tree, rfl, fun name used => Decidable.byContradiction fun unbound => ?_⟩
        obtain ⟨noInput, notEarlier⟩ := not_or.mp unbound
        have flagged : ∃ issue ∈ formulaIssues ofNames inputs earlier later o,
            issue.problem.flagged? = some name :=
          (exists_flagged_iff accepted).mpr ⟨used, noInput, notEarlier⟩
        obtain ⟨issue, member, _⟩ := flagged
        rw [clean] at member
        cases member
  · rintro ⟨tree, accepted, bound⟩
    refine List.eq_nil_iff_forall_not_mem.mpr fun issue member => ?_
    obtain ⟨name, used, noInput, notEarlier, _⟩ := (mem_formulaIssues_iff accepted).mp member
    rcases bound name used with input | earlier
    · exact noInput input
    · exact notEarlier earlier

end Formulas

/-! ## Issues and lookups -/

section Runs

variable {room : Room} {t : Tool} {entered : Tool.Entered} {numbers : Entries String Float}

/-- The step of an output looks up the names of its formula, and finds those of inputs and of outputs
before it. -/
theorem exists_step_of_coerce (limit : Nat) (coerced : t.coerce room entered = .ok numbers) {i : Nat}
    {o : Tool.Output} {tree : Tree} (place : t.outputs[i]? = some o)
    (accepted : parse o.formula = .ok tree) :
    ∃ step, (Tool.resolveTraced limit t.outputs (Tool.toVariables numbers))[i]? = some step ∧
      ∀ name, (name, none) ∈ step.lookups ↔
        name ∈ tree.names ∧ name ∉ inputIds t ∧ name ∉ (outputIds t).take i := by
  obtain ⟨vars, keys, step⟩ := Tool.getElem?_resolveTraced place
  refine ⟨_, step, fun name => ?_⟩
  have same : name ∈ Entries.keys (Tool.toVariables numbers) ↔ name ∈ inputIds t := by
    rw [inputIds, ← Tool.mem_keys_of_coerce coerced]
    simp [Tool.toVariables, Entries.keys]
  have unbound : Entries.get? vars name = none ↔
      name ∉ inputIds t ∧ name ∉ (outputIds t).take i := by
    rw [Entries.get?_eq_none_iff, keys, same, not_or]
    rfl
  rw [names_eq_of_parse accepted, ← unbound]
  simp only [List.mem_map, Prod.mk.injEq]
  constructor
  · rintro ⟨_, used, rfl, absent⟩
    exact ⟨used, absent⟩
  · rintro ⟨used, absent⟩
    exact ⟨name, used, rfl, absent⟩

theorem getElem?_issuesByOutput (strict : Bool) {i : Nat} {o : Tool.Output}
    (place : t.outputs[i]? = some o) :
    (issuesByOutput t strict)[i]? = some
      (formulaIssues (if strict then .error else .warning) (inputIds t) ((outputIds t).take i)
        ((outputIds t).drop i) o) := by
  simp [issuesByOutput, List.getElem?_mapIdx, place]

theorem duplicates_eq_nil_iff {ids : List String} : duplicates ids = [] ↔ ids.Nodup := by
  simp only [duplicates, List.filter_eq_nil_iff, List.mem_map, List.mem_eraseDups,
    List.nodup_iff_count_le_one]
  constructor
  · intro once id
    by_cases member : id ∈ ids
    · have low := once _ ⟨id, member, rfl⟩
      simpa using low
    · simp [List.count_eq_zero.mpr member]
  · rintro once _ ⟨id, _, rfl⟩
    simpa using once id

/-- A tool has no issues exactly if no id is declared twice and each formula is accepted and names only
inputs and earlier outputs. -/
theorem check_eq_nil_iff {strict : Bool} :
    check t strict = [] ↔ (inputIds t ++ outputIds t).Nodup ∧
      ∀ i o, t.outputs[i]? = some o → ∃ tree, parse o.formula = .ok tree ∧
        ∀ name ∈ tree.names, name ∈ inputIds t ∨ name ∈ (outputIds t).take i := by
  rw [check_eq, List.append_eq_nil_iff, List.flatten_eq_nil_iff, duplicateIssues,
    List.map_eq_nil_iff, duplicates_eq_nil_iff]
  refine and_congr_right fun _ => ⟨fun clean i o place => ?_, fun clean issues member => ?_⟩
  · have member := List.mem_of_getElem? (getElem?_issuesByOutput strict place)
    exact formulaIssues_eq_nil_iff.mp (clean _ member)
  · obtain ⟨i, place⟩ := List.mem_iff_getElem?.mp member
    simp only [issuesByOutput, List.getElem?_mapIdx, Option.map_eq_some_iff] at place
    obtain ⟨o, place, rfl⟩ := place
    exact formulaIssues_eq_nil_iff.mpr (clean i o place)

/-- The names that are flagged at an output are those that a run looks up there and does not find, and
a forward reference is to the output itself or to a later one.  If a tool has no issues, its runs
find every name that they look up. -/
theorem flagged_iff_unbound (strict : Bool) (coerced : t.coerce room entered = .ok numbers) :
    (Tool.resolveTraced room.formula t.outputs (Tool.toVariables numbers)).map
        (fun step => (step.output, step.value)) =
      Tool.resolve room.formula t.outputs (Tool.toVariables numbers) ∧
    check t strict = duplicateIssues t ++ (issuesByOutput t strict).flatten ∧
    (∀ i o tree, t.outputs[i]? = some o → parse o.formula = .ok tree →
      ∃ step issues,
        (Tool.resolveTraced room.formula t.outputs (Tool.toVariables numbers))[i]? = some step ∧
        (issuesByOutput t strict)[i]? = some issues ∧
        ∀ name,
          ((∃ issue ∈ issues, issue.problem.flagged? = some name) ↔ (name, none) ∈ step.lookups) ∧
          ((∃ issue ∈ issues, issue.problem = .forwardReference o.id name) ↔
            (∃ issue ∈ issues, issue.problem.flagged? = some name) ∧
              name ∈ (outputIds t).drop i)) ∧
    (check t strict = [] →
      ∀ step ∈ Tool.resolveTraced room.formula t.outputs (Tool.toVariables numbers),
        ∀ name, (name, none) ∉ step.lookups) := by
  refine ⟨Tool.map_resolveTraced, check_eq t strict, fun i o tree place accepted => ?_,
    fun clean step member name unbound => ?_⟩
  · obtain ⟨step, record, unbound⟩ := exists_step_of_coerce room.formula coerced place accepted
    refine ⟨step, _, record, getElem?_issuesByOutput strict place, fun name => ⟨?_, ?_⟩⟩
    · rw [exists_flagged_iff accepted, unbound]
    · exact exists_forwardReference_iff accepted
  · obtain ⟨i, record⟩ := List.mem_iff_getElem?.mp member
    have outputs : (Tool.resolveTraced room.formula t.outputs (Tool.toVariables numbers)).map (·.output) =
      t.outputs := Tool.map_output_resolveTraced
    have place : t.outputs[i]? = some step.output := by
      rw [← outputs, List.getElem?_map, record, Option.map_some]
    obtain ⟨tree, accepted, bound⟩ := (check_eq_nil_iff.mp clean).2 i step.output place
    obtain ⟨step', record', looked⟩ := exists_step_of_coerce room.formula coerced place accepted
    cases record.symm.trans record'
    obtain ⟨used, noInput, notEarlier⟩ := (looked name).mp unbound
    rcases bound name used with input | earlier
    · exact noInput input
    · exact notEarlier earlier

/-- A tool in which one output uses a later one and a name that nothing has, and the tool without these
uses. -/
theorem flagged_iff_unbound_later :
    let before : Tool :=
      { inputs := [{ id := "a" }]
        outputs := [{ id := "x", formula := "a + y" }, { id := "y", formula := "x * z" }] }
    let after : Tool :=
      { inputs := [{ id := "a" }]
        outputs := [{ id := "y", formula := "a * 2" }, { id := "x", formula := "a + y" }] }
    before.coerce {} [("a", .float 2.0)] = .ok [("a", 2.0)] ∧
      after.coerce {} [("a", .float 2.0)] = .ok [("a", 2.0)] ∧
      check after false = [] ∧
      (∃ step, (Tool.resolveTraced 960 before.outputs (Tool.toVariables [("a", 2.0)]))[0]? = some step ∧
        ("y", none) ∈ step.lookups) ∧
      ∀ step ∈ Tool.resolveTraced 960 after.outputs (Tool.toVariables [("a", 2.0)]),
        ("y", none) ∉ step.lookups := by
  intro before after
  have coerced : before.coerce {} [("a", .float 2.0)] = .ok [("a", 2.0)] := by
    rfl
  have coerced' : after.coerce {} [("a", .float 2.0)] = .ok [("a", 2.0)] := by
    rfl
  have accepted : parse "a + y" = .ok (.binary .add (.name "a") (.name "y")) := by
    cbv
  have accepted' : parse "a * 2" = .ok (.binary .mul (.name "a") (.number "2")) := by
    cbv
  have clean : check after false = [] := by
    refine check_eq_nil_iff.mpr ⟨by decide, fun i o place => ?_⟩
    rcases i with _ | _ | i
    · cases place
      exact ⟨_, accepted', by decide⟩
    · cases place
      exact ⟨_, accepted, by decide⟩
    · cases place
  refine ⟨coerced, coerced', clean, ?_, fun step member => ?_⟩
  · obtain ⟨_, _, steps, _⟩ := flagged_iff_unbound false coerced
    obtain ⟨step, issues, record, same, names⟩ := steps 0 _ _ rfl accepted
    have listed : (issuesByOutput before false)[0]? = some
        (formulaIssues .warning ["a"] [] ["x", "y"] { id := "x", formula := "a + y" }) := by
      rfl
    have flagged : ∃ issue ∈
        formulaIssues .warning ["a"] [] ["x", "y"] { id := "x", formula := "a + y" },
        issue.problem.flagged? = some "y" :=
      (exists_flagged_iff (o := { id := "x", formula := "a + y" }) accepted).mpr (by decide)
    rw [Option.some.inj (same.symm.trans listed)] at names
    exact ⟨step, record, (names "y").1.mp flagged⟩
  · obtain ⟨_, _, _, bound⟩ := flagged_iff_unbound false coerced'
    exact bound clean step member "y"

end Runs

end Lint

end LessonCalc
