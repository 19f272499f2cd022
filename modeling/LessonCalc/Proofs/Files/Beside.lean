import LessonCalc.Proofs.Files.Folders

/-!
# Folders that change in one entry

What a path leads to in a folder depends on the entries of the folder that the path goes through.  So it
stays as it is while another entry of the folder changes, with all that is below it.

* `FileTree.SameBeside`: two trees hold the same in a folder, but for one of its entries.
* `FileTree.SameBeside.find_below`: a path through another entry leads to the same.
* `FileTree.names_set`: the names in a folder stay when something elsewhere changes.
* `FileTree.ensureFolder_of_no_file`: a folder that is made is new, and nothing else is.
-/

namespace LessonCalc.FileTree

variable {t t' t'' : FileTree} {p : Path} {name other : String} {place names : List String}
  {entry : FileEntry}

/-! ## Ways -/

/-- A way leads to the same in two trees that hold the same below its first name. -/
theorem walk_below (plain : ".." ∉ other :: names)
    (same : ∀ more, t'.entryAt? (place ++ other :: more) = t.entryAt? (place ++ other :: more)) :
    t'.walk place (other :: names) = t.walk place (other :: names) := by
  induction names generalizing place other with
  | nil =>
      have down : other ≠ ".." := fun up => plain (up ▸ List.mem_cons_self)
      by_cases long : nameLimit < other.utf8ByteSize
      · rw [walk_of_long down long, walk_of_long down long]
      · have short := Nat.not_lt.mp long
        rw [walk_name down short, walk_name down short, same []]
        cases t.entryAt? (place ++ [other]) <;> rfl
  | cons next names ih =>
      have down : other ≠ ".." := fun up => plain (up ▸ List.mem_cons_self)
      by_cases long : nameLimit < other.utf8ByteSize
      · rw [walk_of_long down long, walk_of_long down long]
      · have short := Nat.not_lt.mp long
        have inner : t'.walk (place ++ [other]) (next :: names) =
            t.walk (place ++ [other]) (next :: names) := by
          refine ih (fun up => plain (List.mem_cons_of_mem _ up)) fun more => ?_
          rw [← List.append_cons]
          exact same (next :: more)
        rw [walk_name down short, walk_name down short, same []]
        cases t.entryAt? (place ++ [other]) with
        | none => rfl
        | some found =>
            cases found with
            | file content => rfl
            | folder => exact inner

/-- Reading a file goes by what its path leads to. -/
theorem read_of_find (same : t'.find p = t.find p) : t'.read p = t.read p := by
  rw [read, read, same]

/-! ## Folders -/

/-- Two trees hold the same in a folder, apart from an entry of a name and what is below that. -/
structure SameBeside (t t' : FileTree) (p : Path) (name : String) : Prop where
  found : t.find p = .ok .folder
  found' : t'.find p = .ok .folder
  locate : t'.locate p = t.locate p
  entryAt? : ∀ other more, other ≠ name →
    t'.entryAt? (t.locate p ++ other :: more) = t.entryAt? (t.locate p ++ other :: more)

namespace SameBeside

theorem refl (found : t.find p = .ok .folder) (name : String) : SameBeside t t p name :=
  ⟨found, found, rfl, fun _ _ _ => rfl⟩

theorem trans (first : SameBeside t t' p name) (second : SameBeside t' t'' p name) :
    SameBeside t t'' p name := by
  refine ⟨first.found, second.found', second.locate.trans first.locate, fun other more differ => ?_⟩
  have later := second.entryAt? other more differ
  rw [first.locate] at later
  rw [later, first.entryAt? other more differ]

/-- A change of the entry itself or below it, which is not one of a folder. -/
theorem set {more : List String} (found : t.find p = .ok .folder)
    (free : t.entryAt? (t.locate p ++ name :: more) ≠ some .folder) :
    SameBeside t (t.set (t.locate p ++ name :: more) entry) p name := by
  have inside : t.locate p ++ name :: more ≠ [] :=
    List.append_ne_nil_of_right_ne_nil _ (List.cons_ne_nil _ _)
  refine ⟨found, find_set found inside free, rfl, fun other rest differ => ?_⟩
  have apart : t.locate p ++ other :: rest ≠ t.locate p ++ name :: more := by
    intro same
    exact differ (List.cons.inj (List.append_cancel_left same)).1
  rw [entryAt?_set inside, if_neg apart]

variable (same : SameBeside t t' p name) (differ : other ≠ name)
include same differ

/-- A path through another entry leads to the same. -/
theorem find_below (plain : ".." ∉ other :: names) :
    t'.find { p with parts := p.parts ++ other :: names } =
      t.find { p with parts := p.parts ++ other :: names } := by
  have ahead' : t'.find { p with parts := p.parts ++ other :: names } =
      t'.walk (t'.locate p) (other :: names) := walk_append same.found' _
  have ahead : t.find { p with parts := p.parts ++ other :: names } =
      t.walk (t.locate p) (other :: names) := walk_append same.found _
  rw [ahead', ahead, same.locate]
  exact walk_below plain fun more => same.entryAt? other more differ

theorem find_child (plain : other ≠ "..") : t'.find (p.child other) = t.find (p.child other) :=
  same.find_below differ fun up => plain (List.mem_singleton.mp up).symm

theorem find_grandchild {inner : String} (plain : other ≠ "..") (plain' : inner ≠ "..") :
    t'.find ((p.child other).child inner) = t.find ((p.child other).child inner) := by
  have path : (p.child other).child inner = { p with parts := p.parts ++ [other, inner] } := by
    rw [Path.child, Path.child, ← List.append_cons]
  rw [path]
  refine same.find_below differ fun up => ?_
  rcases List.mem_cons.mp up with up | up
  · exact plain up.symm
  · exact plain' (List.mem_singleton.mp up).symm

end SameBeside

/-- The names in a folder stay when something changes that is not an entry of it. -/
theorem names_set (apart : place.dropLast ≠ t.locate p) : (t.set place entry).names p = t.names p := by
  rw [names, names, locate_set, set]
  dsimp only
  rw [Entries.keys_insert]
  split
  · rfl
  · rw [List.filterMap_append]
    simp [apart]

/-! ## New folders -/

/-- A tree is another one, or that with a folder at a place where nothing stood. -/
def Added (t t' : FileTree) (place : List String) : Prop :=
  t' = t ∨ t.entryAt? place = none ∧ t' = t.set place .folder

namespace Added

theorem locate (added : Added t t' place) (p : Path) : t'.locate p = t.locate p := by
  rcases added with rfl | ⟨_, rfl⟩ <;> rfl

theorem entryAt?_of_ne {target : List String} (added : Added t t' target) (inside : target ≠ [])
    (apart : place ≠ target) : t'.entryAt? place = t.entryAt? place := by
  rcases added with rfl | ⟨_, rfl⟩
  · rfl
  · rw [entryAt?_set inside, if_neg apart]

theorem names_of_ne (added : Added t t' place) (apart : place.dropLast ≠ t.locate p) :
    t'.names p = t.names p := by
  rcases added with rfl | ⟨_, rfl⟩
  · rfl
  · exact names_set apart

theorem sameBeside {more : List String} (added : Added t t' (t.locate p ++ name :: more))
    (found : t.find p = .ok .folder) : SameBeside t t' p name := by
  rcases added with rfl | ⟨free, rfl⟩
  · exact .refl found name
  · refine .set found ?_
    rw [free]
    exact fun same => by cases same

end Added

/-- Where no file stands in the way, a folder inside a folder is there afterwards. -/
theorem ensureFolder_of_no_file (found : t.find p = .ok .folder) (plain : name ≠ "..")
    (short : name.utf8ByteSize ≤ nameLimit)
    (free : ∀ content, t.entryAt? (t.locate p ++ [name]) ≠ some (.file content)) :
    ∃ t', t.ensureFolder (p.child name) = .ok t' ∧ t.ensureFolders (p.child name) = (.ok (), t') ∧
      t'.find (p.child name) = .ok .folder ∧ Added t t' (t.locate p ++ [name]) := by
  cases there : t.entryAt? (t.locate p ++ [name]) with
  | none =>
      obtain ⟨one, all⟩ := ensureFolder_set found plain short there
      exact ⟨_, one, all, (Grown.ensureFolder one).2, .inr ⟨there, rfl⟩⟩
  | some entry =>
      cases entry with
      | file content => exact absurd there (free content)
      | folder =>
          obtain ⟨one, all⟩ := ensureFolder_of_folder found plain short there
          exact ⟨t, one, all, (Grown.ensureFolder one).2, .inl rfl⟩

end LessonCalc.FileTree
