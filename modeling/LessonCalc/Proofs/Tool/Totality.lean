import LessonCalc.Proofs.Json.Sorted
import LessonCalc.Proofs.Number.Range
import LessonCalc.Proofs.Tool.Run

/-!
# Where a run fails

Formulas always have a value, but what is entered may be too large to be read: an integer beyond the
range of floating-point numbers, or an array or an object of which the text cannot be written, since it
holds an integer of too many digits or a value that is nested too deeply.  This module tells exactly when
reading the fields fails and with what, and that nothing else fails.

* `textFault?_of_levels_le`, `textFault?_eq_none_iff`: when a text can be written.
* `entryFault?`: why an entry has no number.
* `coerce_eq_error_iff`, `hasInput_eq_error_iff`: the fields are read up to the first fault, and looked
  through up to the first that has no text.
* `run_faults`: a tool is computed if no input has a fault.  What is read is a number, and what is
  computed is finite.
-/

namespace LessonCalc.Tool

open LessonCalc.Number LessonCalc.Formula

/-- Why an entry has no number, where there is room for some levels of values inside it. -/
def entryFault? (levels : Nat) : Json → Option EntryError
  | .int n => if rangeBound ≤ n.natAbs then some .outOfRange else none
  | .array items => textFault? (levels + 1) (.array items)
  | .object fields => textFault? (levels + 1) (.object fields)
  | _ => none

variable {levels : Nat} {room : Room} {t : Tool} {entered : Entered} {v : Json} {e : EntryError}

/-! ## Texts -/

/-- The text of a value can be written if the value is not nested too deeply and holds no integer that is
too long. -/
theorem textFault?_eq_none_iff {n : Nat} {v : Json} :
    textFault? n v = none ↔ v.levels ≤ n ∧ v.hasOversized = false := by
  induction n generalizing v with
  | zero => cases v <;> simp [textFault?, Json.levels]
  | succ n ih =>
      cases v with
      | int m =>
          rw [textFault?, Json.hasOversized]
          cases Json.isOversized m <;> simp [Json.levels]
      | array items =>
          rw [textFault?, List.findSome?_eq_none_iff, Json.levels, Nat.succ_le_succ_iff,
            Json.itemsLevels_le_iff, Json.hasOversized, Json.itemsOversized_eq_false_iff, ← forall₂_and]
          exact forall₂_congr fun _ _ => ih
      | object fields =>
          rw [textFault?, List.findSome?_eq_none_iff, Json.levels, Nat.succ_le_succ_iff,
            Json.entriesLevels_le_iff, Json.hasOversized, Json.entriesOversized_eq_false_iff,
            ← forall₂_and]
          exact forall₂_congr fun _ _ => ih
      | _ => simp [textFault?, Json.levels, Json.hasOversized]

/-- Where a value is not nested too deeply, nothing but an integer that is too long keeps its text from
being written. -/
theorem eq_tooManyDigits_of_textFault? {n : Nat} {v : Json} {e : EntryError} (shallow : v.levels ≤ n)
    (fault : textFault? n v = some e) : e = .tooManyDigits := by
  induction n generalizing v with
  | zero => cases v <;> simp [Json.levels] at shallow
  | succ n ih =>
      cases v with
      | int m =>
          rw [textFault?] at fault
          split at fault <;> cases fault
          rfl
      | array items =>
          obtain ⟨v, member, fault⟩ := List.exists_of_findSome?_eq_some fault
          rw [Json.levels, Nat.succ_le_succ_iff, Json.itemsLevels_le_iff] at shallow
          exact ih (shallow v member) fault
      | object fields =>
          obtain ⟨entry, member, fault⟩ := List.exists_of_findSome?_eq_some fault
          rw [Json.levels, Nat.succ_le_succ_iff, Json.entriesLevels_le_iff] at shallow
          exact ih (shallow entry member) fault
      | _ => cases fault

/-- The text of a value does not depend on the room for it, if there is enough. -/
theorem textFault?_eq_of_levels_le {n m : Nat} (enough : v.levels ≤ n) (enough' : v.levels ≤ m) :
    textFault? n v = textFault? m v := by
  have written : textFault? n v = none ↔ textFault? m v = none := by
    rw [textFault?_eq_none_iff, textFault?_eq_none_iff]
    simp only [enough, enough']
  cases fault : textFault? n v with
  | none => exact (written.mp fault).symm
  | some e =>
      cases fault' : textFault? m v with
      | none => rw [written.mpr fault'] at fault; cases fault
      | some e' =>
          rw [eq_tooManyDigits_of_textFault? enough fault, eq_tooManyDigits_of_textFault? enough' fault']

/-! ## One entry -/

theorem readEntry_eq_error_iff : readEntry levels v = .error e ↔ entryFault? levels v = some e := by
  cases v with
  | int n =>
      simp only [readEntry, entryFault?, ← ofInt?_eq_none_iff]
      cases ofInt? n <;> simp
  | array items => exact byText_eq_error_iff
  | object fields => exact byText_eq_error_iff
  | _ => simp [readEntry, entryFault?]

theorem isNaN_dropNaN (x : Float) : (dropNaN x).isNaN = false := by
  unfold dropNaN
  split
  next => rfl
  next number => exact Bool.eq_false_of_not_eq_true number

/-- What is read is a number. -/
theorem isNaN_of_readEntry {x : Float} (number : readEntry levels v = .ok x) : x.isNaN = false := by
  cases v with
  | null => cases number; rfl
  | bool b => cases number; cases b <;> rfl
  | int n =>
      simp only [readEntry] at number
      split at number
      · rename_i near
        cases number
        simp only [ofInt?] at near
        split at near
        · rename_i finite
          cases near
          exact isNaN_of_isFinite finite
        · cases near
      · cases number
  | float x => cases number; exact isNaN_dropNaN _
  | string s => cases number; exact isNaN_dropNaN _
  | array items =>
      obtain ⟨-, rfl⟩ := byText_eq_ok_iff.mp number
      rfl
  | object fields =>
      obtain ⟨-, rfl⟩ := byText_eq_ok_iff.mp number
      rfl

/-- Looking at an entry fails if it has no text. -/
theorem isInputState_eq_error_iff :
    isInputState levels v = .error e ↔ textFault? (levels + 1) v = some e := by
  cases v with
  | int n => rw [isInputState, byText_eq_error_iff]
  | array items => rw [isInputState, byText_eq_error_iff]
  | object fields => rw [isInputState, byText_eq_error_iff]
  | _ => simp [isInputState, textFault?]

/-! ## All fields -/

/-- The fields of inputs are read up to the first fault. -/
theorem readFields_eq_error_iff {states : Entries String Json} {inputs : List Input}
    {fault? : Input → Option EntryError}
    (faults : ∀ i ∈ inputs, ∀ e, readEntry levels (fieldState states i) = .error e ↔ fault? i = some e) :
    readFields levels states inputs = .error e ↔ inputs.findSome? fault? = some e := by
  induction inputs with
  | nil => simp [readFields]
  | cons i rest ih =>
      obtain ⟨first, others⟩ := List.forall_mem_cons.mp faults
      rw [readFields, List.findSome?_cons]
      cases entry : readEntry levels (fieldState states i) with
      | error e' => simp [(first e').mp entry]
      | ok x =>
          have none : fault? i = none := by
            refine Option.eq_none_iff_forall_ne_some.mpr fun e' fault => ?_
            rw [(first e').mpr fault] at entry
            cases entry
          rw [none, ← ih others]
          cases readFields levels states rest <;> simp

/-- The content of a field has the faults of what was entered for it. -/
theorem readEntry_fieldState_eq_error_iff {i : Input} (listed : i ∈ t.inputs) :
    readEntry levels (fieldState (t.fieldStates entered) i) = .error e ↔
      (entered.lookup i.id).bind (entryFault? levels) = some e := by
  rw [readEntry_eq_error_iff, fieldState, get?_fieldStates listed,
    Entries.get?_map fun s : String => Json.string s]
  cases entered.lookup i.id with
  | some v => rfl
  | none => cases Entries.get? t.initialTexts i.id <;> rfl

/-- Reading the fields fails with the first fault of what was entered for an input. -/
theorem coerce_eq_error_iff :
    t.coerce room entered = .error e ↔
      t.inputs.findSome? (fun i => (entered.lookup i.id).bind (entryFault? room.entry)) = some e := by
  rw [← readFields_eq_error_iff fun i listed e => readEntry_fieldState_eq_error_iff listed, coerce]
  cases readFields room.entry (t.fieldStates entered) t.inputs <;> simp

/-- The content is looked at and is blank or a zero. -/
def isBlankState (levels : Nat) (v : Json) : Bool :=
  match isInputState levels v with
  | .ok false => true
  | _ => false

/-- Looking through contents gives what looking at the first one gives that is not blank. -/
theorem anyInputState_eq (levels : Nat) (states : List Json) :
    anyInputState levels states =
      ((states.find? fun v => !isBlankState levels v).map (isInputState levels)).getD (.ok false) := by
  induction states with
  | nil => rfl
  | cons v rest ih =>
      rw [anyInputState, List.find?_cons, isBlankState]
      cases here : isInputState levels v with
      | error e => simp [here]
      | ok b =>
          cases b with
          | true => simp [here]
          | false => exact ih

/-- Looking through the fields fails if the first content that is not blank has no text. -/
theorem hasInput_eq_error_iff :
    t.hasInput room entered = .error e ↔
      ∃ v, ((t.fieldStates entered).map Prod.snd).find? (fun v => !isBlankState room.entry v) = some v ∧
        textFault? (room.entry + 1) v = some e := by
  rw [hasInput, anyInputState_eq]
  cases ((t.fieldStates entered).map Prod.snd).find? fun v => !isBlankState room.entry v with
  | none => simp
  | some v => simp [isInputState_eq_error_iff]

/-- What is read from the fields is a number. -/
theorem isNaN_of_coerce {numbers : Entries String Float} (coerced : t.coerce room entered = .ok numbers) :
    ∀ entry ∈ numbers, entry.2.isNaN = false := by
  rintro ⟨name, x⟩ member
  obtain ⟨i, listed, rfl⟩ := List.mem_map.mp
    ((mem_keys_of_coerce coerced name).mp (List.mem_map_of_mem member))
  obtain ⟨x', number, found⟩ := readEntry_of_coerce coerced listed
  have here := Entries.get?_of_mem (nodup_keys_of_coerce coerced) member
  cases here.symm.trans found
  exact isNaN_of_readEntry number

/-- A tool is computed exactly if no input has a fault, and fails with the first fault otherwise.  Looking
through the fields fails only at a content that has no text.  What is read from the fields is a number for
each input, and what is computed is a finite number for each output. -/
theorem run_faults (room : Room) (t : Tool) (entered : Entered) :
    (∀ e, t.coerce room entered = .error e ↔
        t.inputs.findSome? (fun i => (entered.lookup i.id).bind (entryFault? room.entry)) = some e) ∧
      (∀ e, t.compute room entered = .error e ↔ t.coerce room entered = .error e) ∧
      (∀ e, t.hasInput room entered = .error e ↔
        ∃ v, ((t.fieldStates entered).map Prod.snd).find? (fun v => !isBlankState room.entry v) = some v ∧
          textFault? (room.entry + 1) v = some e) ∧
      (∀ numbers, t.coerce room entered = .ok numbers →
        (∃ shown, t.hasInput room entered = .ok shown) ∧
          (∀ name, name ∈ numbers.keys ↔ name ∈ t.inputs.map (·.id)) ∧
            ∀ entry ∈ numbers, entry.2.isNaN = false) ∧
      ∀ computed, t.compute room entered = .ok computed →
        computed.map (·.output) = t.outputs ∧ ∀ c ∈ computed, c.value.isFinite = true := by
  refine ⟨fun _ => coerce_eq_error_iff, fun _ => compute_eq_error_iff, fun _ => hasInput_eq_error_iff,
    fun numbers coerced => ?_, fun computed run => ?_⟩
  · exact ⟨exists_hasInput coerced, mem_keys_of_coerce coerced, isNaN_of_coerce coerced⟩
  · exact ⟨map_output_of_compute run, isFinite_of_compute run⟩

/-- Infinity is read as a number, and what is computed from it is finite. -/
theorem run_faults_infinity :
    let t : Tool := { inputs := [{ id := "a" }], outputs := [{ id := "x", formula := "a" }] }
    t.coerce {} [("a", .string "Infinity")] = .ok [("a", 1.0 / 0.0)] ∧
      (∃ shown, t.hasInput {} [("a", .string "Infinity")] = .ok shown) ∧
      (∀ entry ∈ [("a", (1.0 / 0.0 : Float))], entry.2.isNaN = false) ∧
      ∃ computed, t.compute {} [("a", .string "Infinity")] = .ok computed ∧
        computed.map (·.output) = t.outputs ∧ ∀ c ∈ computed, c.value.isFinite = true := by
  intro t
  have coerced : t.coerce {} [("a", .string "Infinity")] = .ok [("a", 1.0 / 0.0)] := by
    rfl
  obtain ⟨_, failed, _, read, shown⟩ := run_faults {} t [("a", .string "Infinity")]
  obtain ⟨looked, _, numbers⟩ := read _ coerced
  refine ⟨coerced, looked, numbers, ?_⟩
  cases run : t.compute {} [("a", .string "Infinity")] with
  | error e =>
      have unread := (failed e).mp run
      rw [coerced] at unread
      cases unread
  | ok computed => exact ⟨computed, rfl, shown computed run⟩

theorem entryFault?_ofNat {n : Nat} (large : rangeBound ≤ n) :
    entryFault? levels (.int (Int.ofNat n)) = some .outOfRange := by
  rw [entryFault?]
  split
  next => rfl
  next small => exact absurd large small

theorem textFault?_ofNat {n : Nat} (long : Nat.pow 10 digitLimit ≤ n) :
    textFault? (levels + 1) (.int (Int.ofNat n)) = some .tooManyDigits := by
  have oversized : Json.isOversized (Int.ofNat n) = true := by
    rw [Json.isOversized, decide_eq_true_iff]
    exact long
  rw [textFault?, oversized, if_pos rfl]

/-- An integer of 401 digits is not read, nor is a tool computed from it, even one whose formula does not
use it.  An integer of 5001 digits has no text to look at. -/
theorem not_read_large :
    let t : Tool := { inputs := [{ id := "a" }], outputs := [{ id := "x", formula := "1" }] }
    let large := Json.int (Int.ofNat (Nat.pow 10 400))
    let long := Json.int (Int.ofNat (Nat.pow 10 5000))
    t.coerce {} [("a", large)] = .error .outOfRange ∧ t.compute {} [("a", large)] = .error .outOfRange ∧
      t.coerce {} [("a", .array [long])] = .error .tooManyDigits ∧
      t.hasInput {} [("a", long)] = .error .tooManyDigits := by
  intro t large long
  have far : rangeBound ≤ Nat.pow 10 400 := by decide +kernel
  have fault : entryFault? 990 large = some .outOfRange := entryFault?_ofNat far
  have digits : Nat.pow 10 digitLimit ≤ Nat.pow 10 5000 := by decide +kernel
  have written : textFault? 990 long = some .tooManyDigits := textFault?_ofNat digits
  have written' : textFault? 991 long = some .tooManyDigits := textFault?_ofNat digits
  clear_value large long
  have coerced : t.coerce {} [("a", large)] = .error .outOfRange :=
    coerce_eq_error_iff.mpr (by simp [t, fault])
  have coerced' : t.coerce {} [("a", .array [long])] = .error .tooManyDigits :=
    coerce_eq_error_iff.mpr (by simp [t, entryFault?, textFault?, written])
  have states : t.fieldStates [("a", long)] = [("a", long)] := rfl
  have first : isBlankState 990 long = false := by
    rw [isBlankState, isInputState_eq_error_iff.mpr written']
  refine ⟨coerced, compute_eq_error_iff.mpr coerced, coerced', ?_⟩
  exact hasInput_eq_error_iff.mpr ⟨long, by simp [states, first], written'⟩

end LessonCalc.Tool
