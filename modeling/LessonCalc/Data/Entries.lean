/-!
# Entries in order of arrival

A finite map that remembers in which order its keys arrived.  A key that is set again keeps its
place and takes the new value.
-/

namespace LessonCalc

/-- The entries of a map, oldest key first. -/
abbrev Entries (κ α : Type) := List (κ × α)

namespace Entries

variable {κ α : Type} [BEq κ]

/-- The value of a key. -/
def get? (entries : Entries κ α) (key : κ) : Option α :=
  entries.lookup key

/-- Whether a key is set. -/
def contains (entries : Entries κ α) (key : κ) : Bool :=
  entries.any (·.1 == key)

/-- Sets a key, in its place if it has one and else at the end. -/
def insert : Entries κ α → κ → α → Entries κ α
  | [], key, value => [(key, value)]
  | (k, v) :: rest, key, value =>
    if k == key then (k, value) :: rest else (k, v) :: insert rest key value

/-- The keys, oldest first. -/
def keys (entries : Entries κ α) : List κ :=
  entries.map Prod.fst

/-- Sets the keys of a list one after the other. -/
def insertAll (entries : Entries κ α) (more : List (κ × α)) : Entries κ α :=
  more.foldl (fun es (k, v) => es.insert k v) entries

/-- The map with the entries of a list, in which a later value of a key replaces an earlier one. -/
def ofList (list : List (κ × α)) : Entries κ α :=
  insertAll [] list

/-- Setting a key adds it at the end or changes no key. -/
theorem keys_insert [LawfulBEq κ] [DecidableEq κ] (entries : Entries κ α) (key : κ) (value : α) :
    (insert entries key value).keys =
      if key ∈ entries.keys then entries.keys else entries.keys ++ [key] := by
  induction entries with
  | nil => simp [insert, keys]
  | cons head rest ih =>
    obtain ⟨k, v⟩ := head
    by_cases same : k = key
    · simp [insert, keys, same]
    · have other : key ≠ k := fun h => same h.symm
      simp only [keys] at ih
      by_cases known : key ∈ rest.map Prod.fst
      · simp [insert, same, keys, ih, known]
      · simp [insert, same, keys, ih, known, other]

/-- The value of a key after setting one. -/
theorem get?_insert [LawfulBEq κ] [DecidableEq κ] (entries : Entries κ α) (key other : κ)
    (value : α) :
    (insert entries key value).get? other =
      if other = key then some value else entries.get? other := by
  induction entries with
  | nil =>
    by_cases h : other = key
    · simp [insert, get?, h]
    · have no : (other == key) = false := by simpa using h
      simp [insert, get?, List.lookup_cons, h, no]
  | cons head rest ih =>
    obtain ⟨k, v⟩ := head
    simp only [get?] at ih
    by_cases same : k = key
    · subst same
      by_cases h : other = k
      · simp [insert, get?, h]
      · have no : (other == k) = false := by simpa using h
        simp [insert, get?, List.lookup_cons, h, no]
    · by_cases h : other = k
      · subst h
        simp [insert, get?, same]
      · have no : (other == k) = false := by simpa using h
        simp [insert, same, get?, List.lookup_cons, no, ih]

end Entries

end LessonCalc
