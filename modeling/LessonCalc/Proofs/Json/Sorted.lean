import LessonCalc.Proofs.Data.Entries
import LessonCalc.Proofs.Json.RoundTrip

/-!
# What sorting leaves as it is

Before a value is written, the keys of its objects are sorted and its numbers that are not finite are
dropped.  A sound value has none of these numbers, and is as sound, as deep and has as large integers
with its keys sorted.

* `finiteOnly_of_sound`: in a sound value no number is dropped.
* `Holds.sorted`, `levels_sorted_le`: sorting keeps a value sound, and no deeper than it was.
* `hasOversized_sorted_iff`, `hasOversized_finiteOnly_iff`: the integers that are too long stay.
-/

namespace LessonCalc.Json

open LessonCalc.Text

variable {v : Json}

/-- In a sound value no number is dropped. -/
theorem finiteOnly_of_sound (sound : v.Holds Sound) : finiteOnly v = v := by
  induction v using Json.induct with
  | null | bool _ | int _ | string _ => rfl
  | float x => exact if_pos sound.self
  | array items ih =>
      have parts := (holds_array_iff.mp sound).2
      rw [finiteOnly_array, List.map_congr_left fun w member => ih w member (parts w member), List.map_id']
  | object entries ih =>
      have parts := (holds_object_iff.mp sound).2
      have same : ∀ e ∈ entries, (e.1, finiteOnly e.2) = e :=
        fun e member => Prod.ext rfl (ih e member (parts e member))
      rw [finiteOnly_object, List.map_congr_left same, List.map_id']

/-- Entries in another order, with other values, have the same keys in another order. -/
theorem keys_perm {entries entries' : List (RawText × Json)} {f : Json → Json}
    (perm : entries'.Perm (entries.map fun (k, v) => (k, f v))) :
    (Entries.keys entries').Perm (Entries.keys entries) := by
  rw [← Entries.keys_map entries f]
  exact perm.map Prod.fst

/-- What holds of all values of entries holds of them in another order. -/
theorem forall_values_of_perm {entries entries' : List (RawText × Json)} {f : Json → Json}
    {p : Json → Prop} (perm : entries'.Perm (entries.map fun (k, v) => (k, f v)))
    (each : ∀ e ∈ entries, p (f e.2)) : ∀ e ∈ entries', p e.2 := by
  intro e member
  obtain ⟨e', member', rfl⟩ := List.mem_map.mp (perm.mem_iff.mp member)
  exact each e' member'

/-- A sound value stays sound when its keys are sorted. -/
theorem Holds.sorted (sound : v.Holds Sound) : (sorted v).Holds Sound := by
  induction v using Json.induct with
  | null | bool _ | int _ | float _ | string _ => exact sound
  | array items ih =>
      have parts := (holds_array_iff.mp sound).2
      rw [sorted_array]
      exact holds_array_iff.mpr ⟨trivial, List.forall_mem_map.mpr fun w member =>
        ih w member (parts w member)⟩
  | object entries ih =>
      obtain ⟨⟨nodup, whole⟩, parts⟩ := holds_object_iff.mp sound
      obtain ⟨entries', eq, perm⟩ := sorted_object entries
      have keys := keys_perm perm
      rw [eq]
      refine holds_object_iff.mpr ⟨⟨keys.nodup_iff.mpr nodup,
        fun k member => whole k (keys.mem_iff.mp member)⟩, ?_⟩
      exact forall_values_of_perm perm fun e member => ih e member (parts e member)

/-! ## Levels -/

theorem itemsLevels_le_iff {items : List Json} {n : Nat} :
    itemsLevels items ≤ n ↔ ∀ w ∈ items, levels w ≤ n := by
  induction items with
  | nil => simp [itemsLevels]
  | cons v vs ih => rw [itemsLevels_cons, Nat.max_le, ih, List.forall_mem_cons]

theorem entriesLevels_le_iff {entries : List (RawText × Json)} {n : Nat} :
    entriesLevels entries ≤ n ↔ ∀ e ∈ entries, levels e.2 ≤ n := by
  induction entries with
  | nil => simp [entriesLevels]
  | cons e es ih => rw [entriesLevels_cons, Nat.max_le, ih, List.forall_mem_cons]

/-- A value is no deeper with its keys sorted. -/
theorem levels_sorted_le (v : Json) : levels (sorted v) ≤ levels v := by
  induction v using Json.induct with
  | null | bool _ | int _ | float _ | string _ => exact Nat.le_refl _
  | array items ih =>
      have each := itemsLevels_le_iff.mp (Nat.le_refl (itemsLevels items))
      rw [sorted_array, levels_array, levels_array]
      exact Nat.succ_le_succ (itemsLevels_le_iff.mpr (List.forall_mem_map.mpr fun w member =>
        (ih w member).trans (each w member)))
  | object entries ih =>
      have each := entriesLevels_le_iff.mp (Nat.le_refl (entriesLevels entries))
      obtain ⟨entries', eq, perm⟩ := sorted_object entries
      rw [eq, levels_object, levels_object]
      have bound := forall_values_of_perm (p := (levels · ≤ entriesLevels entries)) perm
        fun e member => (ih e member).trans (each e member)
      exact Nat.succ_le_succ (entriesLevels_le_iff.mpr bound)

/-! ## Integers that are too long -/

/-- Sorting keys makes no integer longer or shorter. -/
theorem hasOversized_sorted_iff (v : Json) : hasOversized (sorted v) = false ↔ hasOversized v = false := by
  induction v using Json.induct with
  | null | bool _ | int _ | float _ | string _ => exact Iff.rfl
  | array items ih =>
      rw [sorted_array, hasOversized, hasOversized, itemsOversized_eq_false_iff,
        itemsOversized_eq_false_iff, List.forall_mem_map]
      exact forall₂_congr ih
  | object entries ih =>
      obtain ⟨entries', eq, perm⟩ := sorted_object entries
      rw [eq, hasOversized, hasOversized, entriesOversized_eq_false_iff, entriesOversized_eq_false_iff]
      simp only [perm.mem_iff]
      rw [List.forall_mem_map]
      exact forall₂_congr ih

/-- Dropping the numbers that are not finite leaves the integers. -/
theorem hasOversized_finiteOnly_iff (v : Json) :
    hasOversized (finiteOnly v) = false ↔ hasOversized v = false := by
  induction v using Json.induct with
  | null | bool _ | int _ | string _ => exact Iff.rfl
  | float x =>
      rw [finiteOnly]
      split <;> exact Iff.rfl
  | array items ih =>
      rw [finiteOnly_array, hasOversized, hasOversized, itemsOversized_eq_false_iff,
        itemsOversized_eq_false_iff, List.forall_mem_map]
      exact forall₂_congr ih
  | object entries ih =>
      rw [finiteOnly_object, hasOversized, hasOversized, entriesOversized_eq_false_iff,
        entriesOversized_eq_false_iff, List.forall_mem_map]
      exact forall₂_congr ih

end LessonCalc.Json
