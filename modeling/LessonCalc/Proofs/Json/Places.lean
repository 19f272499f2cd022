import LessonCalc.Json.Writer

/-!
# Places inside a value

A place inside a value is told by positions: which item of an array, or which entry of an object, at
every level.  A property of all that a value holds is a property of what stands at each place.

* `Json.induct`: induction over a value, through the items of arrays and the entries of objects.
* `Holds`, `holds_array_iff`, `holds_object_iff`: a property of everything inside a value, level by
  level.
* `sorted_object`, `finiteOnly_object`: what a value goes through before it is written is done to each of
  its parts.
-/

namespace LessonCalc.Json

/-- Induction over a value, through the items of arrays and the entries of objects. -/
@[elab_as_elim]
theorem induct {motive : Json → Prop} (null : motive .null) (bool : ∀ b, motive (.bool b))
    (int : ∀ n, motive (.int n)) (float : ∀ x, motive (.float x)) (string : ∀ s, motive (.string s))
    (array : ∀ items, (∀ v ∈ items, motive v) → motive (.array items))
    (object : ∀ entries : List (RawText × Json), (∀ e ∈ entries, motive e.2) →
      motive (.object entries)) (v : Json) : motive v :=
  Json.rec (motive_1 := motive) (motive_2 := fun items => ∀ v ∈ items, motive v)
    (motive_3 := fun entries => ∀ e ∈ entries, motive e.2) (motive_4 := fun e => motive e.2)
    null bool int float string array object
    (fun _ none => absurd none List.not_mem_nil)
    (fun _ _ first rest => List.forall_mem_cons.mpr ⟨first, rest⟩)
    (fun _ none => absurd none List.not_mem_nil)
    (fun _ _ first rest => List.forall_mem_cons.mpr ⟨first, rest⟩)
    (fun _ _ value => value) v

/-! ## Places -/

/-- The value of an item of an array or of an entry of an object, by its position. -/
def child? : Json → Nat → Option Json
  | .array items, i => items[i]?
  | .object entries, i => entries[i]?.map Prod.snd
  | _, _ => none

/-- The value at a place, which is reached by the positions of a list one after the other. -/
def at? (v : Json) : List Nat → Option Json
  | [] => some v
  | i :: place => (v.child? i).bind fun w => w.at? place

/-- A property of everything inside a value, the value itself included. -/
def Holds (p : Json → Prop) (v : Json) : Prop :=
  ∀ place w, v.at? place = some w → p w

variable {p : Json → Prop} {v : Json}

theorem Holds.self (holds : Holds p v) : p v :=
  holds [] v rfl

theorem holds_iff : Holds p v ↔ p v ∧ ∀ i w, v.child? i = some w → Holds p w := by
  constructor
  · intro holds
    refine ⟨holds.self, fun i w child place w' found => holds (i :: place) w' ?_⟩
    rw [at?, child]
    exact found
  · rintro ⟨self, children⟩ place w found
    cases place with
    | nil =>
        cases found
        exact self
    | cons i place =>
        obtain ⟨w', child, found⟩ := Option.bind_eq_some_iff.mp found
        exact children i w' child place w found

/-- A property of everything inside an array is one of the array and of everything inside its items. -/
theorem holds_array_iff {items : List Json} :
    Holds p (.array items) ↔ p (.array items) ∧ ∀ w ∈ items, Holds p w := by
  rw [holds_iff]
  refine and_congr_right fun _ => ⟨fun children w member => ?_, fun each i w child => ?_⟩
  · obtain ⟨i, place⟩ := List.mem_iff_getElem?.mp member
    exact children i w place
  · exact each w (List.mem_of_getElem? child)

/-- A property of everything inside an object is one of the object and of everything inside its
values. -/
theorem holds_object_iff {entries : List (RawText × Json)} :
    Holds p (.object entries) ↔ p (.object entries) ∧ ∀ e ∈ entries, Holds p e.2 := by
  rw [holds_iff]
  refine and_congr_right fun _ => ⟨fun children e member => ?_, fun each i w child => ?_⟩
  · obtain ⟨i, place⟩ := List.mem_iff_getElem?.mp member
    exact children i e.2 (by rw [child?, place]; rfl)
  · obtain ⟨e, place, rfl⟩ := Option.map_eq_some_iff.mp child
    exact each e (List.mem_of_getElem? place)

/-- A property of everything inside a scalar is one of the scalar. -/
theorem holds_scalar_iff (scalar : ∀ i, v.child? i = none) : Holds p v ↔ p v := by
  rw [holds_iff]
  refine and_iff_left fun i w child => ?_
  rw [scalar i] at child
  cases child

/-! ## Values part by part -/

theorem sortedItems_eq_map (items : List Json) : sortedItems items = items.map sorted := by
  induction items with
  | nil => rfl
  | cons v rest ih => rw [sortedItems, ih, List.map_cons]

theorem sortedEntries_eq_map (entries : List (RawText × Json)) :
    sortedEntries entries = entries.map fun (k, v) => (k, sorted v) := by
  induction entries with
  | nil => rfl
  | cons e rest ih => rw [sortedEntries, ih, List.map_cons]

theorem finiteItems_eq_map (items : List Json) : finiteItems items = items.map finiteOnly := by
  induction items with
  | nil => rfl
  | cons v rest ih => rw [finiteItems, ih, List.map_cons]

theorem finiteEntries_eq_map (entries : List (RawText × Json)) :
    finiteEntries entries = entries.map fun (k, v) => (k, finiteOnly v) := by
  induction entries with
  | nil => rfl
  | cons e rest ih => rw [finiteEntries, ih, List.map_cons]

section Parts

variable {itemSep keySep : List Char} {v : Json} {items : List Json} {key : RawText}
  {entries : List (RawText × Json)}

theorem lineChars_array : lineChars itemSep keySep (.array (v :: items)) =
    '[' :: lineChars itemSep keySep v ++ itemsChars itemSep keySep items ++ [']'] :=
  rfl

theorem lineChars_object : lineChars itemSep keySep (.object ((key, v) :: entries)) =
    '\x7b' :: stringChars key ++ keySep ++ lineChars itemSep keySep v ++
      entriesChars itemSep keySep entries ++ ['\x7d'] :=
  rfl

theorem itemsChars_cons : itemsChars itemSep keySep (v :: items) =
    itemSep ++ lineChars itemSep keySep v ++ itemsChars itemSep keySep items :=
  rfl

theorem entriesChars_cons : entriesChars itemSep keySep ((key, v) :: entries) =
    itemSep ++ stringChars key ++ keySep ++ lineChars itemSep keySep v ++
      entriesChars itemSep keySep entries :=
  rfl

theorem levels_array : levels (.array items) = itemsLevels items + 1 :=
  rfl

theorem levels_object : levels (.object entries) = entriesLevels entries + 1 :=
  rfl

theorem itemsLevels_cons : itemsLevels (v :: items) = max (levels v) (itemsLevels items) :=
  rfl

theorem entriesLevels_cons :
    entriesLevels ((key, v) :: entries) = max (levels v) (entriesLevels entries) :=
  rfl

end Parts

theorem sorted_array (items : List Json) : sorted (.array items) = .array (items.map sorted) := by
  rw [sorted, sortedItems_eq_map]

/-- The entries of a sorted object are those of the object, with sorted values, in another order. -/
theorem sorted_object (entries : List (RawText × Json)) :
    ∃ entries', sorted (.object entries) = .object entries' ∧
      entries'.Perm (entries.map fun (k, v) => (k, sorted v)) := by
  rw [sorted, sortedEntries_eq_map]
  exact ⟨_, rfl, List.mergeSort_perm _ _⟩

theorem finiteOnly_array (items : List Json) :
    finiteOnly (.array items) = .array (items.map finiteOnly) := by
  rw [finiteOnly, finiteItems_eq_map]

theorem finiteOnly_object (entries : List (RawText × Json)) :
    finiteOnly (.object entries) = .object (entries.map fun (k, v) => (k, finiteOnly v)) := by
  rw [finiteOnly, finiteEntries_eq_map]

end LessonCalc.Json
