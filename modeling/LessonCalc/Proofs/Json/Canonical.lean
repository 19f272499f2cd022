import LessonCalc.Proofs.Json.Sorted
import LessonCalc.Proofs.Text.Order

/-!
# One line for each value

Once its keys are sorted, the line of a value tells the value and nothing else: not the order in which the
keys of its objects arrived.

* `Alike`: two values are the same but for the order of the keys of objects, at every depth.
* `alike_sorted`, `Alike.sorted_eq`: a value is alike itself with its keys sorted, and alike values become
  equal.
* `alike_of_perm`, `alike_of_value`: objects are alike when entries change places, or one value becomes an
  alike one.
* `line_eq_iff`: different values have different lines.
* `line_sorted_eq_iff`: sorted values have one line exactly if the values are alike.
* `ofString_line_end`: the line of a value is read as the value together with its end.
-/

namespace LessonCalc.Json

open LessonCalc.Text

/-! ## The same value in another order -/

/-- Two values are the same but for the order of the keys of objects: arrays have alike items one by one,
and objects have the same keys with alike values. -/
inductive Alike : Json → Json → Prop where
  | null : Alike null null
  | bool (b : Bool) : Alike (bool b) (bool b)
  | int (n : Int) : Alike (int n) (int n)
  | float (x : Float) : Alike (float x) (float x)
  | string (s : RawText) : Alike (string s) (string s)
  | array {items items' : List Json} (length : items.length = items'.length)
      (each : ∀ (i : Nat) (v w : Json), items[i]? = some v → items'[i]? = some w → Alike v w) :
      Alike (array items) (array items')
  | object {entries entries' : List (RawText × Json)}
      (keys : (Entries.keys entries).Perm (Entries.keys entries'))
      (each : ∀ key v w, (key, v) ∈ entries → (key, w) ∈ entries' → Alike v w) :
      Alike (object entries) (object entries')

namespace Alike

variable {u v w : Json}

theorem symm (alike : Alike v w) : Alike w v := by
  induction alike with
  | null => exact .null
  | bool b => exact .bool b
  | int n => exact .int n
  | float x => exact .float x
  | string s => exact .string s
  | array length _ ih => exact .array length.symm fun i w v there here => ih i v w here there
  | object keys _ ih => exact .object keys.symm fun key w v there here => ih key v w here there

theorem trans (first : Alike u v) (second : Alike v w) : Alike u w := by
  induction first generalizing w with
  | null | bool _ | int _ | float _ | string _ => exact second
  | @array items items' length _ ih =>
      cases second with
      | @array _ items'' length' each' =>
          refine .array (length.trans length') fun i u w here there => ?_
          obtain ⟨inside, _⟩ := List.getElem?_eq_some_iff.mp here
          have between := List.getElem?_eq_getElem (length ▸ inside : i < items'.length)
          exact ih i u _ here between (each' i _ w between there)
  | @object entries entries' keys _ ih =>
      cases second with
      | @object _ entries'' keys' each' =>
          refine .object (keys.trans keys') fun key u w here there => ?_
          have known : key ∈ Entries.keys entries' :=
            keys.mem_iff.mp (List.mem_map_of_mem (f := Prod.fst) here)
          obtain ⟨⟨_, v⟩, between, rfl⟩ := List.mem_map.mp known
          exact ih _ u v here between (each' _ v w between there)

end Alike

/-! ## Sorting -/

section Sorting

variable {v w : Json} {entries entries' : List (RawText × Json)}

theorem sorted_object_eq (entries : List (RawText × Json)) :
    sorted (object entries) =
      object ((entries.map fun (k, v) => (k, sorted v)).mergeSort keyLe) := by
  rw [sorted, sortedEntries_eq_map]

/-- An object that has each key once has one value under a key. -/
theorem value_unique (nodup : (Entries.keys entries).Nodup) {key : RawText} (here : (key, v) ∈ entries)
    (there : (key, w) ∈ entries) : v = w := by
  have found := Entries.get?_of_mem nodup here
  rw [Entries.get?_of_mem nodup there] at found
  exact (Option.some.inj found).symm

/-- A value is alike itself with its keys sorted. -/
theorem alike_sorted (sound : v.Holds Sound) : Alike v (sorted v) := by
  induction v using Json.induct with
  | null => exact .null
  | bool b => exact .bool b
  | int n => exact .int n
  | float x => exact .float x
  | string s => exact .string s
  | array items ih =>
      have parts := (holds_array_iff.mp sound).2
      rw [sorted_array]
      refine .array (List.length_map _).symm fun i v w here there => ?_
      have member := List.mem_of_getElem? here
      rw [List.getElem?_map, here] at there
      cases there
      exact ih v member (parts v member)
  | object entries ih =>
      obtain ⟨⟨nodup, _⟩, parts⟩ := holds_object_iff.mp sound
      obtain ⟨entries', eq, perm⟩ := sorted_object entries
      rw [eq]
      refine .object (keys_perm perm).symm fun key v w here there => ?_
      obtain ⟨⟨key', v'⟩, member, same⟩ := List.mem_map.mp (perm.mem_iff.mp there)
      cases same
      obtain rfl := value_unique nodup here member
      exact ih _ here (parts _ here)

theorem alike_refl (sound : v.Holds Sound) : Alike v v :=
  (alike_sorted sound).trans (alike_sorted sound).symm

/-- Objects with the same entries in another order are alike. -/
theorem alike_of_perm (sound : (object entries).Holds Sound) (perm : entries.Perm entries') :
    Alike (object entries) (object entries') := by
  obtain ⟨⟨nodup, _⟩, parts⟩ := holds_object_iff.mp sound
  refine .object (perm.map Prod.fst) fun key v w here there => ?_
  obtain rfl := value_unique nodup here (perm.mem_iff.mpr there)
  exact alike_refl (parts _ here)

/-- Objects with alike values under one key, and the same entries else, are alike. -/
theorem alike_of_value (before after : List (RawText × Json)) {key : RawText}
    (sound : (object (before ++ (key, v) :: after)).Holds Sound) (alike : Alike v w) :
    Alike (object (before ++ (key, v) :: after)) (object (before ++ (key, w) :: after)) := by
  obtain ⟨⟨nodup, _⟩, parts⟩ := holds_object_iff.mp sound
  have keys : Entries.keys (before ++ (key, w) :: after) = Entries.keys (before ++ (key, v) :: after) := by
    simp [Entries.keys]
  refine .object (keys ▸ .refl _) fun key' v' w' here there => ?_
  by_cases same : key' = key
  · subst same
    have here' : (key', v) ∈ before ++ (key', v) :: after := by simp
    have there' : (key', w) ∈ before ++ (key', w) :: after := by simp
    rw [value_unique nodup here here', value_unique (keys ▸ nodup) there there']
    exact alike
  · have there' : (key', w') ∈ before ++ (key, v) :: after := by simpa [same] using there
    obtain rfl := value_unique nodup here there'
    exact alike_refl (parts _ here)

/-- Entries in the order of their keys are told by which they are, if they have each key once. -/
theorem mergeSort_eq_of_perm (nodup : (Entries.keys entries).Nodup) (perm : entries.Perm entries') :
    entries.mergeSort keyLe = entries'.mergeSort keyLe := by
  have trans : ∀ a b c : RawText × Json, keyLe a b = true → keyLe b c = true → keyLe a c = true :=
    fun a b c => RawText.le_trans a.1 b.1 c.1
  have total : ∀ a b : RawText × Json, (keyLe a b || keyLe b a) = true :=
    fun a b => RawText.le_total a.1 b.1
  refine List.Perm.eq_of_pairwise ?_ (List.pairwise_mergeSort trans total entries)
    (List.pairwise_mergeSort trans total entries')
    (((List.mergeSort_perm _ _).trans perm).trans (List.mergeSort_perm _ _).symm)
  rintro ⟨key, v⟩ ⟨key', w⟩ here there le ge
  obtain rfl : key = key' := RawText.le_antisymm le ge
  have here := (List.mergeSort_perm _ _).mem_iff.mp here
  have there := perm.mem_iff.mpr ((List.mergeSort_perm _ _).mem_iff.mp there)
  rw [value_unique nodup here there]

/-- Alike values are equal with their keys sorted. -/
theorem Alike.sorted_eq (alike : Alike v w) (sound : v.Holds Sound) (sound' : w.Holds Sound) :
    sorted v = sorted w := by
  induction alike with
  | null | bool _ | int _ | float _ | string _ => rfl
  | @array items items' length _ ih =>
      have parts := (holds_array_iff.mp sound).2
      have parts' := (holds_array_iff.mp sound').2
      rw [sorted_array, sorted_array]
      refine congrArg Json.array (List.ext_getElem (by simp [length]) fun i here there => ?_)
      rw [List.getElem_map, List.getElem_map]
      rw [List.length_map] at here there
      exact ih i _ _ (List.getElem?_eq_getElem here) (List.getElem?_eq_getElem there)
        (parts _ (List.getElem_mem here)) (parts' _ (List.getElem_mem there))
  | @object entries entries' keys _ ih =>
      obtain ⟨⟨nodup, _⟩, parts⟩ := holds_object_iff.mp sound
      obtain ⟨_, parts'⟩ := holds_object_iff.mp sound'
      rw [sorted_object_eq, sorted_object_eq]
      have nodup' : (Entries.keys (entries.map fun (k, v) => (k, sorted v))).Nodup := by
        rwa [Entries.keys_map]
      refine congrArg Json.object (mergeSort_eq_of_perm nodup' ?_)
      -- the sorted values under a key are equal, so every entry of one object is one of the other
      have subset : (entries.map fun (k, v) => (k, sorted v)) ⊆
          entries'.map fun (k, v) => (k, sorted v) := by
        intro e member
        obtain ⟨⟨key, v⟩, here, rfl⟩ := List.mem_map.mp member
        have known : key ∈ Entries.keys entries' :=
          keys.mem_iff.mp (List.mem_map_of_mem (f := Prod.fst) here)
        obtain ⟨⟨_, w⟩, there, rfl⟩ := List.mem_map.mp known
        have same := ih _ v w here there (parts _ here) (parts' _ there)
        exact List.mem_map.mpr ⟨_, there, Prod.ext rfl same.symm⟩
      have length := keys.length_eq
      simp only [Entries.keys, List.length_map] at length
      exact (List.subperm_of_subset nodup'.of_map subset).perm_of_length_le (by simp [length])

/-- Sorting keys makes values equal exactly if they are alike. -/
theorem sorted_eq_iff (sound : v.Holds Sound) (sound' : w.Holds Sound) :
    sorted v = sorted w ↔ Alike v w := by
  refine ⟨fun same => ?_, fun alike => alike.sorted_eq sound sound'⟩
  have between := alike_sorted sound
  rw [same] at between
  exact between.trans (alike_sorted sound').symm

end Sorting

/-! ## Lines -/

section Lines

variable {v w : Json}

/-- Different values have different lines. -/
theorem line_eq_iff (sound : v.Holds Sound) (sound' : w.Holds Sound) (short : hasOversized v = false)
    (short' : hasOversized w = false) : v.line = w.line ↔ v = w := by
  refine ⟨fun same => ?_, congrArg line⟩
  have text : gapChars [' '] [' '] v = gapChars [' '] [' '] w := by
    rw [← toList_line, ← toList_line, same]
  have ends : EndsNumber [] := by simp [EndsNumber]
  -- both values are read from the one text
  have read := reads_of_sound gaps_space gaps_space sound short
    ((gapChars [' '] [' '] v).length + 1) (max (levels v) (levels w)) []
    (Nat.lt_succ_self _) (Nat.le_max_left _ _) ends
  have read' := reads_of_sound gaps_space gaps_space sound' short'
    ((gapChars [' '] [' '] w).length + 1) (max (levels v) (levels w)) []
    (Nat.lt_succ_self _) (Nat.le_max_right _ _) ends
  rw [text, read'] at read
  cases read
  rfl

/-- The lines of sorted values are equal exactly if the values are alike. -/
theorem line_sorted_eq_iff (sound : v.Holds Sound) (sound' : w.Holds Sound)
    (short : hasOversized v = false) (short' : hasOversized w = false) :
    (sorted v).line = (sorted w).line ↔ Alike v w := by
  rw [line_eq_iff sound.sorted sound'.sorted ((hasOversized_sorted_iff v).mpr short)
    ((hasOversized_sorted_iff w).mpr short'), sorted_eq_iff sound sound']

/-- The line of a value is read as the value together with its end. -/
theorem ofString_line_end (sound : v.Holds Sound) (short : hasOversized v = false)
    (shallow : levels v ≤ depthLimit) : ofString (v.line ++ "\n") = .ok v := by
  rw [ofString, String.toList_append]
  exact readText_line_append sound short shallow (List.forall_mem_singleton.mpr rfl)

end Lines

end LessonCalc.Json
