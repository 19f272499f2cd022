import LessonCalc.Data.Entries
import Mathlib.Data.List.Nodup

/-!
# Keys of entries

Which keys a map has after some of its operations, and that it has each of them once.
-/

namespace LessonCalc.Entries

/-- Keys stay when values change. -/
theorem keys_map {κ α β : Type} (entries : Entries κ α) (f : α → β) :
    keys (entries.map fun (k, v) => (k, f v)) = entries.keys := by
  simp only [keys, List.map_map, Function.comp_def]

section Keys

variable {κ α : Type} [DecidableEq κ] {entries : Entries κ α} {key other : κ} {value : α}

theorem get?_eq_none_iff : entries.get? key = none ↔ key ∉ entries.keys := by
  induction entries with
  | nil => simp [get?, keys]
  | cons entry rest ih =>
      obtain ⟨k, v⟩ := entry
      simp only [get?, keys, List.lookup_cons, List.map_cons, List.mem_cons, not_or] at ih ⊢
      by_cases same : key = k
      · simp [same]
      · have differ : (key == k) = false := beq_eq_false_iff_ne.mpr same
        rw [differ]
        simp only [same, not_false_eq_true, true_and]
        exact ih

theorem contains_iff : entries.contains key = true ↔ key ∈ entries.keys := by
  simp [contains, keys]

theorem mem_keys_insert :
    other ∈ (entries.insert key value).keys ↔ other ∈ entries.keys ∨ other = key := by
  rw [keys_insert]
  split
  · rename_i member
    refine ⟨Or.inl, fun either => ?_⟩
    rcases either with member' | rfl
    · exact member'
    · exact member
  · simp

theorem nodup_keys_insert (nodup : entries.keys.Nodup) : (entries.insert key value).keys.Nodup := by
  rw [keys_insert]
  split
  · exact nodup
  · rename_i absent
    refine List.nodup_append.mpr ⟨nodup, by simp, fun k member k' last same => ?_⟩
    rw [List.mem_singleton] at last
    exact absent (last ▸ same ▸ member)

theorem mem_keys_insertAll {list : List (κ × α)} :
    key ∈ (entries.insertAll list).keys ↔ key ∈ entries.keys ∨ key ∈ list.map Prod.fst := by
  induction list generalizing entries with
  | nil => simp [insertAll]
  | cons entry rest ih =>
      obtain ⟨k, v⟩ := entry
      have step : entries.insertAll ((k, v) :: rest) = (entries.insert k v).insertAll rest := rfl
      rw [step, ih, mem_keys_insert, List.map_cons, List.mem_cons, or_assoc]

theorem nodup_keys_insertAll {list : List (κ × α)} (nodup : entries.keys.Nodup) :
    (entries.insertAll list).keys.Nodup := by
  induction list generalizing entries with
  | nil => exact nodup
  | cons entry rest ih => exact ih (nodup_keys_insert nodup)

theorem mem_keys_ofList {list : List (κ × α)} :
    key ∈ (ofList list).keys ↔ key ∈ list.map Prod.fst := by
  rw [ofList, mem_keys_insertAll]
  simp [keys]

theorem nodup_keys_ofList (list : List (κ × α)) : (ofList list).keys.Nodup :=
  nodup_keys_insertAll List.nodup_nil

/-- In a map that has each key once, an entry is what its key gives. -/
theorem get?_of_mem (nodup : entries.keys.Nodup) (member : (key, value) ∈ entries) :
    entries.get? key = some value := by
  induction entries with
  | nil => cases member
  | cons entry rest ih =>
      obtain ⟨k, v⟩ := entry
      simp only [keys, List.map_cons, List.nodup_cons] at nodup
      rcases List.mem_cons.mp member with same | member
      · cases same
        simp [get?]
      · have differ : (key == k) = false := beq_eq_false_iff_ne.mpr fun same =>
          nodup.1 (same ▸ List.mem_map_of_mem member)
        simp only [get?, List.lookup_cons, differ]
        exact ih nodup.2 member

theorem mem_of_get? (found : entries.get? key = some value) : (key, value) ∈ entries := by
  obtain ⟨before, after, rfl, _⟩ := List.lookup_eq_some_iff.mp found
  simp

/-- The first entry is that of the first key. -/
theorem head?_of_get? (first : entries.keys.head? = some key) (found : entries.get? key = some value) :
    entries.head? = some (key, value) := by
  cases entries with
  | nil => cases first
  | cons entry rest =>
      obtain ⟨k, v⟩ := entry
      cases first
      rw [get?, List.lookup_cons_self] at found
      cases found
      rfl

/-- After setting the keys of a list, a key has the last value that the list gives it. -/
theorem get?_insertAll {list : List (κ × α)} :
    (entries.insertAll list).get? key = (list.reverse.lookup key).or (entries.get? key) := by
  induction list generalizing entries with
  | nil => rfl
  | cons entry rest ih =>
      obtain ⟨k, v⟩ := entry
      have step : entries.insertAll ((k, v) :: rest) = (entries.insert k v).insertAll rest := rfl
      rw [step, ih, get?_insert, List.reverse_cons, List.lookup_append, Option.or_assoc]
      by_cases same : key = k
      · simp [same]
      · have differ : (key == k) = false := beq_eq_false_iff_ne.mpr same
        simp [same, List.lookup_cons, differ]

/-- A key that a list gives only one value has that value in it. -/
theorem lookup_eq_some_of_forall {list : List (κ × α)} (member : key ∈ list.map Prod.fst)
    (only : ∀ v, (key, v) ∈ list → v = value) : list.lookup key = some value := by
  cases found : list.lookup key with
  | none =>
      have absent : key ∉ keys list := get?_eq_none_iff.mp found
      exact absurd member absent
  | some v =>
      obtain ⟨before, after, rfl, _⟩ := List.lookup_eq_some_iff.mp found
      rw [only v (by simp)]

/-- A key that a list does not set keeps its value. -/
theorem get?_insertAll_of_notMem {more : List (κ × α)} (other : key ∉ keys more) :
    (entries.insertAll more).get? key = entries.get? key := by
  have absent : more.reverse.lookup key = none := by
    refine get?_eq_none_iff.mpr ?_
    rwa [keys, List.map_reverse, List.mem_reverse]
  rw [get?_insertAll, absent, Option.none_or]

/-- A key that a list sets once has the value that the list gives it. -/
theorem get?_insertAll_of_mem {more : List (κ × α)} (distinct : (keys more).Nodup)
    (member : (key, value) ∈ more) : (entries.insertAll more).get? key = some value := by
  have found : more.reverse.lookup key = some value := by
    refine get?_of_mem ?_ (List.mem_reverse.mpr member)
    rwa [keys, List.map_reverse, List.nodup_reverse]
  rw [get?_insertAll, found, Option.some_or]

/-- Setting keys that differ adds those that are not there yet, in their order. -/
theorem keys_insertAll {more : List (κ × α)} (distinct : (keys more).Nodup) :
    (entries.insertAll more).keys =
      entries.keys ++ (keys more).filter fun key => decide (key ∉ entries.keys) := by
  induction more generalizing entries with
  | nil => exact (List.append_nil _).symm
  | cons entry rest ih =>
      obtain ⟨k, v⟩ := entry
      have step : entries.insertAll ((k, v) :: rest) = (entries.insert k v).insertAll rest := rfl
      obtain ⟨fresh, distinct⟩ := List.nodup_cons.mp distinct
      have first : keys ((k, v) :: rest) = k :: keys rest := rfl
      rw [step, ih distinct, keys_insert, first]
      by_cases known : k ∈ entries.keys
      · rw [if_pos known, List.filter_cons_of_neg (by simpa using known)]
      · -- the key that is new now is none of those that follow
        have others : (keys rest).filter (fun key => decide (key ∉ entries.keys ++ [k])) =
            (keys rest).filter fun key => decide (key ∉ entries.keys) := by
          refine List.filter_congr fun key member => ?_
          have differ : key ≠ k := fun same => fresh (same ▸ member)
          simp [differ]
        rw [if_neg known, others, List.filter_cons_of_pos (by simpa using known),
          List.append_assoc, List.singleton_append]

/-- A key that is not set yet comes last. -/
theorem insert_of_notMem (fresh : key ∉ entries.keys) :
    entries.insert key value = entries ++ [(key, value)] := by
  induction entries with
  | nil => rfl
  | cons entry rest ih =>
      obtain ⟨k, v⟩ := entry
      simp only [keys, List.map_cons, List.mem_cons, not_or] at fresh
      have differ : (k == key) = false := beq_eq_false_iff_ne.mpr fun same => fresh.1 same.symm
      rw [insert, differ, if_neg Bool.false_ne_true, ih fresh.2, List.cons_append]

/-- Keys that are all new come after those that are there, in their order. -/
theorem insertAll_eq_append {more : List (κ × α)} (nodup : (entries ++ more).keys.Nodup) :
    entries.insertAll more = entries ++ more := by
  induction more generalizing entries with
  | nil => exact (List.append_nil entries).symm
  | cons entry rest ih =>
      obtain ⟨k, v⟩ := entry
      have fresh : k ∉ entries.keys := by
        intro member
        simp only [keys, List.map_append, List.map_cons] at nodup
        exact (List.nodup_append.mp nodup).2.2 k member k List.mem_cons_self rfl
      have step : entries.insertAll ((k, v) :: rest) = (entries.insert k v).insertAll rest := rfl
      rw [step, insert_of_notMem fresh, List.append_cons entries (k, v) rest]
      rw [List.append_cons] at nodup
      exact ih nodup

/-- A list that has each key once is the map of its entries. -/
theorem ofList_eq_self {list : List (κ × α)} (nodup : keys list |>.Nodup) : ofList list = list :=
  insertAll_eq_append nodup

/-- Looking up every key of a map gives its values in order. -/
theorem map_get?_keys (nodup : entries.keys.Nodup) :
    entries.keys.map entries.get? = entries.map fun entry => some entry.2 := by
  rw [keys, List.map_map]
  exact List.map_congr_left fun entry member => get?_of_mem nodup member

/-- Setting a key and changing all values can change places. -/
theorem map_insert {β : Type} (f : α → β) :
    (entries.insert key value).map (fun (k, v) => (k, f v)) =
      insert (entries.map fun (k, v) => (k, f v)) key (f value) := by
  induction entries with
  | nil => rfl
  | cons entry rest ih =>
      obtain ⟨k, v⟩ := entry
      simp only [insert, List.map_cons]
      split
      · rfl
      · rw [List.map_cons, ih]

theorem map_insertAll {β : Type} (f : α → β) (list : List (κ × α)) :
    (entries.insertAll list).map (fun (k, v) => (k, f v)) =
      insertAll (entries.map fun (k, v) => (k, f v)) (list.map fun (k, v) => (k, f v)) := by
  induction list generalizing entries with
  | nil => rfl
  | cons entry rest ih =>
      obtain ⟨k, v⟩ := entry
      have step : entries.insertAll ((k, v) :: rest) = (entries.insert k v).insertAll rest := rfl
      rw [step, ih, map_insert]
      rfl

/-- A changed map gives the changed value of a key. -/
theorem get?_map {β : Type} (f : α → β) :
    get? (entries.map fun (k, v) => (k, f v)) key = (entries.get? key).map f := by
  induction entries with
  | nil => rfl
  | cons entry rest ih =>
      obtain ⟨k, v⟩ := entry
      simp only [get?, List.map_cons, List.lookup_cons] at ih ⊢
      cases key == k with
      | true => rfl
      | false => exact ih

/-- Dropping keys leaves the values of the others. -/
theorem get?_filter (entries : Entries κ α) (kept : κ → Bool) (key : κ) :
    get? (entries.filter fun (k, _) => kept k) key = if kept key then entries.get? key else none := by
  induction entries with
  | nil => simp [get?]
  | cons entry rest ih =>
      obtain ⟨k, v⟩ := entry
      simp only [get?, List.filter_cons, List.lookup_cons] at ih ⊢
      by_cases same : key = k
      · subst same
        cases keeps : kept key with
        | true => simp
        | false => simpa [keeps] using ih
      · have differ : (key == k) = false := beq_eq_false_iff_ne.mpr same
        cases kept k with
        | true => simpa [List.lookup_cons, differ] using ih
        | false => simpa [differ] using ih

end Keys

end LessonCalc.Entries
