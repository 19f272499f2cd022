import LessonCalc.Proofs.Data.Entries
import LessonCalc.Proofs.Number.Binary64
import LessonCalc.Tool.Entry

/-!
# What is read from the fields of a tool

Reading the fields gives a number for each input and for nothing else.  The fields are looked through a
second time to see whether anything was entered, which meets other limits on the way.

* `coerce_eq`, `hasInput_eq`: both depend only on the inputs of the tool.
* `mem_keys_of_coerce`: the names that have a number are the ids of the inputs.
* `exists_hasInput`: where the fields can be read, they can be looked through.
-/

namespace LessonCalc.Tool

open LessonCalc.Number

variable {levels : Nat} {room : Room} {t u : Tool} {entered : Entered}

theorem coerce_eq (room : Room) (same : t.inputs = u.inputs) (entered : Entered) :
    t.coerce room entered = u.coerce room entered := by
  simp only [coerce, fieldStates, initialTexts, same]

theorem hasInput_eq (room : Room) (same : t.inputs = u.inputs) (entered : Entered) :
    t.hasInput room entered = u.hasInput room entered := by
  simp only [hasInput, fieldStates, initialTexts, same]

/-! ## The content of the fields -/

/-- What is entered goes over the texts that the fields start with. -/
theorem fieldStates_eq (t : Tool) (entered : Entered) :
    t.fieldStates entered =
      Entries.insertAll (t.initialTexts.map fun (id, s) => (id, Json.string s))
        (t.inputs.filterMap fun i => (entered.lookup i.id).map fun v => (i.id, v)) :=
  rfl

/-- The field of an input holds what was entered for it, and else the text that it starts with. -/
theorem get?_fieldStates {i : Input} (listed : i ∈ t.inputs) :
    (t.fieldStates entered).get? i.id = (entered.lookup i.id).or
      (Entries.get? (t.initialTexts.map fun (id, s) => (id, Json.string s)) i.id) := by
  rw [fieldStates_eq, Entries.get?_insertAll]
  congr 1
  -- two inputs of one name have the same entry
  have only : ∀ v, (i.id, v) ∈ (t.inputs.filterMap fun i =>
      (entered.lookup i.id).map fun v => (i.id, v)).reverse → entered.lookup i.id = some v := by
    intro v member
    obtain ⟨i', _, found⟩ := List.mem_filterMap.mp (List.mem_reverse.mp member)
    obtain ⟨v', value, same⟩ := Option.map_eq_some_iff.mp found
    rw [Prod.mk.injEq] at same
    rw [← same.1, value, same.2]
  cases value : entered.lookup i.id with
  | none =>
      refine Entries.get?_eq_none_iff.mpr fun member => ?_
      obtain ⟨⟨_, v⟩, entry, rfl⟩ := List.mem_map.mp member
      rw [only v entry] at value
      cases value
  | some v =>
      refine Entries.lookup_eq_some_of_forall ?_ fun v' entry =>
        Option.some.inj ((only v' entry).symm.trans value)
      have entry : (i.id, v) ∈ t.inputs.filterMap fun i =>
          (entered.lookup i.id).map fun v => (i.id, v) :=
        List.mem_filterMap.mpr ⟨i, listed, by rw [value]; rfl⟩
      exact List.mem_map_of_mem (List.mem_reverse.mpr entry)

/-- What is entered under other names does not count. -/
theorem fieldStates_congr {entered' : Entered}
    (agree : ∀ i ∈ t.inputs, entered.lookup i.id = entered'.lookup i.id) :
    t.fieldStates entered = t.fieldStates entered' := by
  rw [fieldStates_eq, fieldStates_eq]
  congr 1
  exact List.filterMap_congr fun i listed => by rw [agree i listed]

/-! ## Reading the fields -/

/-- Each field that is read gives one number. -/
theorem map_fst_readFields {states : Entries String Json} {inputs : List Input}
    {xs : List (String × Float)} (fields : readFields levels states inputs = .ok xs) :
    xs.map Prod.fst = inputs.map (·.id) := by
  induction inputs generalizing xs with
  | nil =>
      cases fields
      rfl
  | cons i rest ih =>
      simp only [readFields] at fields
      split at fields
      · cases fields
      · split at fields
        · cases fields
        · rename_i xs' more
          cases fields
          rw [List.map_cons, List.map_cons, ih more]

/-- The names that have a number are the ids of the inputs. -/
theorem mem_keys_of_coerce {numbers : Entries String Float}
    (coerced : t.coerce room entered = .ok numbers) (name : String) :
    name ∈ numbers.keys ↔ name ∈ t.inputs.map (·.id) := by
  unfold coerce at coerced
  split at coerced
  · cases coerced
  · rename_i xs fields
    cases coerced
    rw [Entries.mem_keys_ofList, map_fst_readFields fields]

/-- Each input has one number. -/
theorem nodup_keys_of_coerce {numbers : Entries String Float}
    (coerced : t.coerce room entered = .ok numbers) : numbers.keys.Nodup := by
  unfold coerce at coerced
  split at coerced
  · cases coerced
  · cases coerced
    exact Entries.nodup_keys_ofList _

/-- Each number is that of the field of an input. -/
theorem readEntry_of_readFields {states : Entries String Json} {inputs : List Input}
    {xs : List (String × Float)} (fields : readFields levels states inputs = .ok xs) :
    ∀ entry ∈ xs, readEntry levels ((states.get? entry.1).getD .null) = .ok entry.2 := by
  induction inputs generalizing xs with
  | nil =>
      cases fields
      exact fun _ member => absurd member List.not_mem_nil
  | cons i rest ih =>
      simp only [readFields] at fields
      split at fields
      · cases fields
      · rename_i x here
        split at fields
        · cases fields
        · rename_i xs' more
          cases fields
          exact List.forall_mem_cons.mpr ⟨here, ih more⟩

/-- The number of an input is that of its field. -/
theorem readEntry_of_coerce {numbers : Entries String Float}
    (coerced : t.coerce room entered = .ok numbers) {i : Input} (listed : i ∈ t.inputs) :
    ∃ x, readEntry room.entry (fieldState (t.fieldStates entered) i) = .ok x ∧
      numbers.get? i.id = some x := by
  have named : i.id ∈ numbers.keys :=
    (mem_keys_of_coerce coerced i.id).mpr (List.mem_map_of_mem listed)
  unfold coerce at coerced
  split at coerced
  · cases coerced
  · rename_i xs fields
    cases coerced
    cases found : Entries.get? (Entries.ofList xs) i.id with
    | none => exact absurd named (Entries.get?_eq_none_iff.mp found)
    | some x =>
        rw [Entries.ofList, Entries.get?_insertAll, Entries.get?, List.lookup_nil, Option.or_none] at found
        obtain ⟨before, after, split, _⟩ := List.lookup_eq_some_iff.mp found
        have entry : (i.id, x) ∈ xs := List.mem_reverse.mp (by simp [split])
        exact ⟨x, readEntry_of_readFields fields _ entry, rfl⟩

/-- The number of an input depends only on what was entered for it. -/
theorem get?_coerce_congr {entered' : Entered} {numbers numbers' : Entries String Float}
    (coerced : t.coerce room entered = .ok numbers) (coerced' : t.coerce room entered' = .ok numbers')
    {i : Input} (listed : i ∈ t.inputs) (agree : entered.lookup i.id = entered'.lookup i.id) :
    numbers.get? i.id = numbers'.get? i.id := by
  obtain ⟨x, number, value⟩ := readEntry_of_coerce coerced listed
  obtain ⟨x', number', value'⟩ := readEntry_of_coerce coerced' listed
  have content : fieldState (t.fieldStates entered) i = fieldState (t.fieldStates entered') i := by
    rw [fieldState, fieldState, get?_fieldStates listed, get?_fieldStates listed, agree]
  rw [content, number'] at number
  cases number
  exact value.trans value'.symm

/-! ## Looking through the fields -/

/-- The fields are those of the inputs. -/
theorem mem_keys_fieldStates {name : String} :
    name ∈ (t.fieldStates entered).keys → name ∈ t.inputs.map (·.id) := by
  intro member
  rcases Entries.mem_keys_insertAll.mp member with started | replaced
  · rw [Entries.keys_map _ fun s : String => Json.string s] at started
    simpa using Entries.mem_keys_ofList.mp started
  · simp only [List.map_filterMap, List.mem_filterMap, Option.map_map] at replaced
    obtain ⟨i, listed, found⟩ := replaced
    cases value : entered.lookup i.id with
    | none => simp [value] at found
    | some v =>
        simp only [value, Option.map_some, Function.comp_apply, Option.some.injEq] at found
        exact found ▸ List.mem_map_of_mem listed

/-- There is one field of each name. -/
theorem nodup_keys_fieldStates : (t.fieldStates entered).keys.Nodup := by
  refine Entries.nodup_keys_insertAll ?_
  rw [Entries.keys_map _ fun s : String => Json.string s]
  exact Entries.nodup_keys_ofList _

/-- If the fields are read, the field of each input is. -/
theorem exists_readEntry {states : Entries String Json} {inputs : List Input}
    {xs : List (String × Float)} (fields : readFields levels states inputs = .ok xs) {i : Input}
    (listed : i ∈ inputs) : ∃ x, readEntry levels (fieldState states i) = .ok x := by
  induction inputs generalizing xs with
  | nil => cases listed
  | cons first rest ih =>
      simp only [readFields] at fields
      split at fields
      · cases fields
      · rename_i x here
        split at fields
        · cases fields
        · rename_i xs' more
          rcases List.mem_cons.mp listed with rfl | listed
          · exact ⟨x, here⟩
          · exact ih more listed

/-- An integer that has a nearest number can be written. -/
theorem isOversized_eq_false {n : Int} {x : Float} (near : ofInt? n = some x) :
    Json.isOversized n = false := by
  have few := log2_of_ofInt? near
  refine decide_eq_false fun long => ?_
  rw [Nat.pow_eq] at long
  have large : 2 ^ digitLimit ≤ n.natAbs :=
    Nat.le_trans (Nat.pow_le_pow_left (by decide) digitLimit) long
  have positive : 0 < n.natAbs := Nat.lt_of_lt_of_le (Nat.two_pow_pos digitLimit) large
  have many := (Nat.le_log2 (Nat.ne_of_gt positive)).mpr large
  have limit : 1024 ≤ digitLimit := by decide
  exact absurd (Nat.le_trans limit many) (Nat.not_le.mpr few)

/-- Writing a text fails for one reason, and finds out what it is for otherwise. -/
theorem byText_eq_error_iff {α : Type} {v : Json} {result : α} {e : EntryError} :
    byText levels v result = .error e ↔ textFault? (levels + 1) v = some e := by
  rw [byText]
  cases textFault? (levels + 1) v <;> simp

theorem byText_eq_ok_iff {α : Type} {v : Json} {result found : α} :
    byText levels v result = .ok found ↔ textFault? (levels + 1) v = none ∧ result = found := by
  rw [byText]
  cases textFault? (levels + 1) v <;> simp

/-- What can be read as a number can be compared with a blank and a zero. -/
theorem exists_isInputState {v : Json} {x : Float} (number : readEntry levels v = .ok x) :
    ∃ b, isInputState levels v = .ok b := by
  cases v with
  | int n =>
      simp only [readEntry] at number
      split at number
      · rename_i near
        have writable : textFault? (levels + 1) (.int n) = none := by
          rw [textFault?, isOversized_eq_false near, if_neg Bool.false_ne_true]
        exact ⟨n != 0, by rw [isInputState, byText, writable]⟩
      · cases number
  | array items => exact ⟨true, byText_eq_ok_iff.mpr ⟨(byText_eq_ok_iff.mp number).1, rfl⟩⟩
  | object fields => exact ⟨true, byText_eq_ok_iff.mpr ⟨(byText_eq_ok_iff.mp number).1, rfl⟩⟩
  | _ => exact ⟨_, rfl⟩

theorem exists_anyInputState {states : List Json}
    (each : ∀ v ∈ states, ∃ b, isInputState levels v = .ok b) : ∃ b, anyInputState levels states = .ok b := by
  induction states with
  | nil => exact ⟨false, rfl⟩
  | cons v rest ih =>
      obtain ⟨b, here⟩ := each v List.mem_cons_self
      have more := ih fun v' member => each v' (List.mem_cons_of_mem v member)
      cases b with
      | true => exact ⟨true, by simp only [anyInputState, here]⟩
      | false => simpa only [anyInputState, here] using more

/-- If the fields can be read, they can be looked through. -/
theorem exists_hasInput {numbers : Entries String Float}
    (coerced : t.coerce room entered = .ok numbers) : ∃ shown, t.hasInput room entered = .ok shown := by
  unfold coerce at coerced
  split at coerced
  · cases coerced
  · rename_i xs fields
    refine exists_anyInputState fun v member => ?_
    obtain ⟨⟨name, v⟩, entry, rfl⟩ := List.mem_map.mp member
    have named := mem_keys_fieldStates (List.mem_map_of_mem entry)
    obtain ⟨i, listed, rfl⟩ := List.mem_map.mp named
    obtain ⟨x, number⟩ := exists_readEntry fields listed
    have content : fieldState (t.fieldStates entered) i = v := by
      simp [fieldState, Entries.get?_of_mem nodup_keys_fieldStates entry]
    rw [content] at number
    exact exists_isInputState number

end LessonCalc.Tool
