import LessonCalc.Proofs.Formula.Value
import LessonCalc.Proofs.Tool.Coercion

/-!
# The outcome of a run

A run shows each output of a tool with a finite value, and fails only where the fields cannot be read.

* `map_fst_resolve`, `isFinite_of_mem_resolve`: the outputs of a run and their values.
* `exists_compute`, `compute_eq_error_iff`: a run succeeds exactly if the fields can be read.
-/

namespace LessonCalc.Tool

open LessonCalc.Formula

variable {limit : Nat} {room : Room} {t : Tool} {entered : Entered} {numbers : Entries String Float}

/-! ## Outputs and values -/

/-- A run gives the outputs in the order of their declaration. -/
theorem map_fst_resolve (limit : Nat) (outputs : List Output) (vars : Variables) :
    (resolve limit outputs vars).map Prod.fst = outputs := by
  induction outputs generalizing vars with
  | nil => rfl
  | cons o rest ih => rw [resolve, List.map_cons, ih]

theorem isFinite_of_mem_resolve {outputs : List Output} {vars : Variables} {o : Output} {x : Float}
    (member : (o, x) ∈ resolve limit outputs vars) : x.isFinite = true := by
  induction outputs generalizing vars with
  | nil => cases member
  | cons first rest ih =>
      rcases List.mem_cons.mp member with same | member
      · cases same
        exact isFinite_evaluate _ _ _
      · exact ih member

/-! ## What a tool shows -/

/-- What can be read is computed and shown. -/
theorem exists_compute (coerced : t.coerce room entered = .ok numbers) :
    ∃ shown, t.compute room entered =
      .ok ((resolve room.formula t.outputs (toVariables numbers)).map fun (o, x) => present shown o x) := by
  obtain ⟨shown, looked⟩ := exists_hasInput coerced
  exact ⟨shown, by simp only [compute, coerced, looked]⟩

/-- Nothing but reading the fields makes a run fail. -/
theorem compute_eq_error_iff {e : EntryError} : t.compute room entered = .error e ↔ t.coerce room entered = .error e := by
  cases coerced : t.coerce room entered with
  | error e' => simp [compute, coerced]
  | ok numbers =>
      obtain ⟨shown, run⟩ := exists_compute coerced
      simp [run]

/-- Each output is shown once, in order. -/
theorem map_output_of_compute {computed : List Computed} (run : t.compute room entered = .ok computed) :
    computed.map (·.output) = t.outputs := by
  unfold compute at run
  split at run
  · cases run
  · split at run
    · cases run
    · cases run
      rw [List.map_map]
      exact map_fst_resolve _ _ _

/-- What is computed is finite. -/
theorem isFinite_of_compute {computed : List Computed} (run : t.compute room entered = .ok computed) :
    ∀ c ∈ computed, c.value.isFinite = true := by
  unfold compute at run
  split at run
  · cases run
  · split at run
    · cases run
    · cases run
      intro c member
      obtain ⟨⟨o, x⟩, entry, rfl⟩ := List.mem_map.mp member
      exact isFinite_of_mem_resolve entry

end LessonCalc.Tool
