import LessonCalc.Proofs.Tool.Totality

/-!
# Rooms

Callers leave different room for what is nested in a formula or in an entry.  That makes a difference only
where a formula or an entry needs more than one of them leaves: two callers in whose room a tool and its
entries fit read the same numbers and compute the same values.

* `evaluate_eq_of_depth_le`: a formula has the same value wherever there are enough levels for it.
* `Fits`: the formulas of a tool and the entries of its inputs need no more than there is.
* `Fits.coerce_eq`, `Fits.resolve_eq`: so the numbers and the values are the same in both rooms.
-/

namespace LessonCalc.Formula

/-- A formula has the same value wherever there are enough levels for it. -/
theorem evaluate_eq_of_depth_le {formula : String} {limit limit' : Nat} (vars : Variables)
    (enough : (read (tokenize formula)).1.depth ≤ limit)
    (enough' : (read (tokenize formula)).1.depth ≤ limit') :
    evaluate limit formula vars = evaluate limit' formula vars := by
  simp only [evaluate, evaluateTokens, Nat.not_lt.mpr enough, Nat.not_lt.mpr enough', false_or]

end LessonCalc.Formula

namespace LessonCalc.Tool

open LessonCalc.Formula

/-- The formulas of a tool and the entries of its inputs fit in a room. -/
structure Fits (room : Room) (t : Tool) (entered : Entered) : Prop where
  formulas : ∀ o ∈ t.outputs, (read (tokenize o.formula)).1.depth ≤ room.formula
  entries : ∀ i ∈ t.inputs, ∀ v, entered.lookup i.id = some v → v.levels ≤ room.entry + 1

variable {room room' : Room} {t : Tool} {entered : Entered}

/-! ## Entries -/

/-- An entry has the same number wherever there is room for its text. -/
theorem readEntry_eq_of_levels_le {levels levels' : Nat} {v : Json} (enough : v.levels ≤ levels + 1)
    (enough' : v.levels ≤ levels' + 1) : readEntry levels v = readEntry levels' v := by
  have same := textFault?_eq_of_levels_le enough enough'
  cases v with
  | array items => rw [readEntry, readEntry, byText, byText, same]
  | object fields => rw [readEntry, readEntry, byText, byText, same]
  | _ => rfl

/-- Fields that are read alike one by one are read alike all together. -/
theorem readFields_congr {levels levels' : Nat} {states states' : Entries String Json} {inputs : List Input}
    (each : ∀ i ∈ inputs,
      readEntry levels (fieldState states i) = readEntry levels' (fieldState states' i)) :
    readFields levels states inputs = readFields levels' states' inputs := by
  induction inputs with
  | nil => rfl
  | cons i rest ih =>
      obtain ⟨first, others⟩ := List.forall_mem_cons.mp each
      rw [readFields, readFields, first, ih others]

/-- The fields of the inputs hold what was entered, or a text. -/
theorem Fits.levels_fieldState (fits : Fits room t entered) {i : Input} (listed : i ∈ t.inputs) :
    (fieldState (t.fieldStates entered) i).levels ≤ room.entry + 1 := by
  rw [fieldState, get?_fieldStates listed]
  cases value : entered.lookup i.id with
  | some v => exact fits.entries i listed v value
  | none =>
      rw [Option.none_or, Entries.get?_map fun s : String => Json.string s]
      cases Entries.get? t.initialTexts i.id <;> exact Nat.succ_le_succ (Nat.zero_le _)

/-- The numbers are the same in two rooms that the entries fit in. -/
theorem Fits.coerce_eq (fits : Fits room t entered) (fits' : Fits room' t entered) :
    t.coerce room entered = t.coerce room' entered := by
  have fields : readFields room.entry (t.fieldStates entered) t.inputs =
      readFields room'.entry (t.fieldStates entered) t.inputs :=
    readFields_congr fun _ listed =>
      readEntry_eq_of_levels_le (fits.levels_fieldState listed) (fits'.levels_fieldState listed)
  rw [coerce, coerce, fields]

/-! ## Outputs -/

/-- Outputs have the same values wherever there are enough levels for their formulas. -/
theorem resolve_eq_of_depth_le {outputs : List Output} {limit limit' : Nat}
    (enough : ∀ o ∈ outputs, (read (tokenize o.formula)).1.depth ≤ limit)
    (enough' : ∀ o ∈ outputs, (read (tokenize o.formula)).1.depth ≤ limit') (vars : Variables) :
    resolve limit outputs vars = resolve limit' outputs vars := by
  induction outputs generalizing vars with
  | nil => rfl
  | cons o rest ih =>
      obtain ⟨first, others⟩ := List.forall_mem_cons.mp enough
      obtain ⟨first', others'⟩ := List.forall_mem_cons.mp enough'
      rw [resolve, resolve, evaluate_eq_of_depth_le vars first first', ih others others']

/-- The values of the outputs are the same in two rooms that the formulas fit in. -/
theorem Fits.resolve_eq (fits : Fits room t entered) (fits' : Fits room' t entered) (vars : Variables) :
    resolve room.formula t.outputs vars = resolve room'.formula t.outputs vars :=
  resolve_eq_of_depth_le fits.formulas fits'.formulas vars

end LessonCalc.Tool
