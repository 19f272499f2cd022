import LessonCalc.Files.Tree

/-!
# Entries of a folder

What an operation on an entry of a folder does is told by what stands at one place: that of the folder
with the name of the entry.

* `FileTree.entryAt?_set`: a change at one place leaves all others as they are.
* `FileTree.walk_mono`: a way through folders stays one as long as all folders stay.
* `FileTree.find_child`, `FileTree.append_child`, `FileTree.makeFolder_child`: the operations on an entry
  of a folder.
* `FileTree.ensureFolder_of_folder`, `FileTree.ensureFolder_of_free`: a folder inside a folder is made
  once.
-/

namespace LessonCalc

namespace Path

theorem parent_child (p : Path) (name : String) : (p.child name).parent = p := by
  rw [child, parent, List.dropLast_concat]

theorem name_child (p : Path) (name : String) : (p.child name).name = name := by
  rw [child, Path.name, List.getLast?_concat, Option.getD_some]

end Path

namespace FileTree

variable {t : FileTree} {p : Path} {name : String} {place target : List String} {entry : FileEntry}

/-! ## Places -/

theorem follow_append (place names : List String) (plain : name ≠ "..") :
    follow place (names ++ [name]) = follow place names ++ [name] := by
  induction names generalizing place with
  | nil => simp only [List.nil_append, follow, if_neg plain]
  | cons first names ih =>
      rw [List.cons_append, follow, follow]
      split <;> exact ih _

theorem locate_child (plain : name ≠ "..") : t.locate (p.child name) = t.locate p ++ [name] :=
  follow_append _ _ plain

theorem locate_set (p : Path) : (t.set place entry).locate p = t.locate p :=
  rfl

theorem entryAt?_set (inside : target ≠ []) :
    (t.set target entry).entryAt? place = if place = target then some entry else t.entryAt? place := by
  cases place with
  | nil => exact (if_neg inside.symm).symm
  | cons _ _ => exact Entries.get?_insert _ _ _ _

/-! ## Ways -/

theorem walk_up (names : List String) : t.walk place (".." :: names) = t.walk place.dropLast names := by
  rw [walk.eq_def]
  exact if_pos rfl

theorem walk_of_long {names : List String} (plain : name ≠ "..")
    (long : nameLimit < name.utf8ByteSize) : t.walk place (name :: names) = .error .nameTooLong := by
  rw [walk.eq_def]
  exact (if_neg plain).trans (if_pos long)

/-- A name leads to what stands at its place. -/
theorem walk_name {names : List String} (plain : name ≠ "..") (short : name.utf8ByteSize ≤ nameLimit) :
    t.walk place (name :: names) =
      match t.entryAt? (place ++ [name]), names with
      | none, _ => .error .notFound
      | some entry, [] => .ok entry
      | some .folder, _ :: _ => t.walk (place ++ [name]) names
      | some (.file _), _ :: _ => .error .notFolder := by
  rw [walk.eq_def]
  exact (if_neg plain).trans (if_neg (Nat.not_lt.mpr short))

/-- A name that stands for a folder leads into it. -/
theorem walk_down {names : List String} (plain : name ≠ "..") (short : name.utf8ByteSize ≤ nameLimit)
    (there : t.entryAt? (place ++ [name]) = some .folder) :
    t.walk place (name :: names) = t.walk (place ++ [name]) names := by
  rw [walk_name plain short, there]
  cases names <;> rfl

/-- The first name of a way is there: as a folder if the way goes on, and else as what it ends in. -/
theorem step_of_walk {names : List String} (way : t.walk place (name :: names) = .ok entry)
    (plain : name ≠ "..") :
    name.utf8ByteSize ≤ nameLimit ∧
      t.entryAt? (place ++ [name]) = some (if names = [] then entry else .folder) := by
  by_cases long : nameLimit < name.utf8ByteSize
  · rw [walk_of_long plain long] at way
    cases way
  · have short := Nat.not_lt.mp long
    rw [walk_name plain short] at way
    refine ⟨short, ?_⟩
    cases there : t.entryAt? (place ++ [name]) with
    | none =>
        rw [there] at way
        cases way
    | some found =>
        rw [there] at way
        cases names with
        | nil => cases way; rfl
        | cons next names =>
            cases found with
            | folder => rfl
            | file content => cases way

/-- A way that ends in a folder goes through folders. -/
theorem folder_of_walk {names : List String} (way : t.walk place (name :: names) = .ok .folder)
    (plain : name ≠ "..") :
    name.utf8ByteSize ≤ nameLimit ∧ t.entryAt? (place ++ [name]) = some .folder := by
  obtain ⟨short, there⟩ := step_of_walk way plain
  rw [ite_self] at there
  exact ⟨short, there⟩

/-- A way through folders leads on from where it ends. -/
theorem walk_append {names : List String} (way : t.walk place names = .ok .folder)
    (more : List String) : t.walk place (names ++ more) = t.walk (follow place names) more := by
  induction names generalizing place with
  | nil => rfl
  | cons first names ih =>
      rw [List.cons_append, follow]
      split
      next up =>
        subst up
        rw [walk_up] at way ⊢
        exact ih way
      next plain =>
        obtain ⟨short, there⟩ := folder_of_walk way plain
        rw [walk_down plain short there] at way ⊢
        exact ih way

/-- A way through folders stays one as long as all folders stay. -/
theorem walk_mono {t' : FileTree} {names : List String}
    (kept : ∀ place, t.entryAt? place = some .folder → t'.entryAt? place = some .folder)
    (way : t.walk place names = .ok .folder) : t'.walk place names = .ok .folder := by
  induction names generalizing place with
  | nil => rfl
  | cons first names ih =>
      by_cases up : first = ".."
      · subst up
        rw [walk_up] at way ⊢
        exact ih way
      · obtain ⟨short, there⟩ := folder_of_walk way up
        rw [walk_down up short there] at way
        rw [walk_down up short (kept _ there)]
        exact ih way

/-- A change of something else than a folder leaves all folders. -/
theorem find_set (folder : t.find p = .ok .folder) (inside : target ≠ [])
    (other : t.entryAt? target ≠ some .folder) : (t.set target entry).find p = .ok .folder := by
  refine walk_mono (fun place there => ?_) folder
  rw [entryAt?_set inside, there]
  split
  next same => exact absurd (same ▸ there) other
  next => rfl

/-- A tree is another one with a new folder at the end of a path, and nothing else new. -/
structure Made (t t' : FileTree) (p : Path) : Prop where
  locate : ∀ q, t'.locate q = t.locate q
  entryAt? : ∀ place,
    t'.entryAt? place = if place = t.locate p then some .folder else t.entryAt? place
  kept : ∀ q, t.find q = .ok .folder → t'.find q = .ok .folder
  found : t'.find p = .ok .folder

/-! ## Entries of a folder -/

section Child

variable (folder : t.find p = .ok .folder) (plain : name ≠ "..")
include folder

/-- Below a folder a path leads on from the place of the folder. -/
theorem find_child_eq_walk : t.find (p.child name) = t.walk (t.locate p) [name] :=
  walk_append folder [name]

/-- A name that is too long leads nowhere. -/
theorem find_child_of_long (plain : name ≠ "..") (long : nameLimit < name.utf8ByteSize) :
    t.find (p.child name) = .error .nameTooLong := by
  rw [find_child_eq_walk folder, walk_of_long plain long]

variable (short : name.utf8ByteSize ≤ nameLimit)

include plain short in
/-- A name leads to what stands at its place in the folder. -/
theorem find_child :
    t.find (p.child name) =
      match t.entryAt? (t.locate p ++ [name]) with
      | some entry => .ok entry
      | none => .error .notFound := by
  rw [find_child_eq_walk folder, walk_name plain short]
  cases t.entryAt? (t.locate p ++ [name]) <;> rfl

/-- A name that leads to something leads to what stands at its place in the folder. -/
theorem entryAt?_of_find_child (plain : name ≠ "..") (found : t.find (p.child name) = .ok entry) :
    t.entryAt? (t.locate (p.child name)) = some entry := by
  rw [find_child_eq_walk folder] at found
  rw [locate_child plain]
  exact (step_of_walk found plain).2

theorem wayFault?_child :
    t.wayFault? (p.child name) = if nameLimit < name.utf8ByteSize then some .nameTooLong else none := by
  rw [wayFault?, Path.parent_child, folder, Path.name_child]

theorem append_child_of_long (long : nameLimit < name.utf8ByteSize) (more : Bytes) :
    t.append (p.child name) more = .error ⟨.nameTooLong, p.child name⟩ := by
  rw [append, update, wayFault?_child folder, if_pos long]

include plain short

/-- Changing a file of a folder changes what stands at its place. -/
theorem update_child (free : t.entryAt? (t.locate p ++ [name]) ≠ some .folder)
    (change : Bytes → Bytes) :
    t.update (p.child name) change = .ok (t.set (t.locate p ++ [name]) (.file (change
      (match t.entryAt? (t.locate p ++ [name]) with
        | some (.file content) => content
        | _ => [])))) := by
  rw [update, wayFault?_child folder, if_neg (Nat.not_lt.mpr short), locate_child plain]
  cases there : t.entryAt? (t.locate p ++ [name]) with
  | none => rfl
  | some entry =>
      cases entry with
      | file content => rfl
      | folder => exact absurd there free

theorem update_child_of_folder (taken : t.entryAt? (t.locate p ++ [name]) = some .folder)
    (change : Bytes → Bytes) : t.update (p.child name) change = .error ⟨.isFolder, p.child name⟩ := by
  rw [update, wayFault?_child folder, if_neg (Nat.not_lt.mpr short), locate_child plain, taken]

/-- Adding to a file of a folder changes what stands at its place. -/
theorem append_child (free : t.entryAt? (t.locate p ++ [name]) ≠ some .folder) (more : Bytes) :
    t.append (p.child name) more = .ok (t.set (t.locate p ++ [name]) (.file
      (match t.entryAt? (t.locate p ++ [name]) with
        | some (.file content) => content ++ more
        | _ => more))) := by
  rw [append, update_child folder plain short free]
  cases there : t.entryAt? (t.locate p ++ [name]) with
  | none => rfl
  | some entry =>
      cases entry with
      | file content => rfl
      | folder => exact absurd there free

theorem makeFolder_child :
    t.makeFolder (p.child name) =
      match t.entryAt? (t.locate p ++ [name]) with
      | some _ => .error ⟨.taken, p.child name⟩
      | none => .ok (t.set (t.locate p ++ [name]) .folder) := by
  have way := @wayFault?_child t p name folder
  rw [if_neg (Nat.not_lt.mpr short)] at way
  cases there : t.entryAt? (t.locate p ++ [name]) <;>
    simp only [makeFolder, way, locate_child plain, there]

/-- A folder that is there is not made again. -/
theorem ensureFolder_of_folder (there : t.entryAt? (t.locate p ++ [name]) = some .folder) :
    t.ensureFolder (p.child name) = .ok t ∧ t.ensureFolders (p.child name) = (.ok (), t) := by
  have taken := makeFolder_child folder plain short
  have found := find_child folder plain short
  rw [there] at taken found
  have isFolder : t.isFolder (p.child name) = true := by rw [isFolder, found]
  constructor
  · rw [ensureFolder, taken]
    exact if_pos isFolder
  · rw [ensureFolders, ensureFoldersFrom, taken]
    exact if_pos isFolder

/-- Where there is a file, there can be no folder. -/
theorem ensureFolder_of_file {content : Bytes}
    (taken : t.entryAt? (t.locate p ++ [name]) = some (.file content)) :
    t.ensureFolder (p.child name) = .error ⟨.taken, p.child name⟩ ∧
      t.ensureFolders (p.child name) = (.error ⟨.taken, p.child name⟩, t) := by
  have unmade := makeFolder_child folder plain short
  have found := find_child folder plain short
  rw [taken] at unmade found
  have noFolder : t.isFolder (p.child name) ≠ true := by
    rw [isFolder, found]
    exact Bool.false_ne_true
  constructor
  · rw [ensureFolder, unmade]
    exact if_neg noFolder
  · rw [ensureFolders, ensureFoldersFrom, unmade]
    exact if_neg noFolder

/-- A folder is made where there is nothing. -/
theorem ensureFolder_set (free : t.entryAt? (t.locate p ++ [name]) = none) :
    t.ensureFolder (p.child name) = .ok (t.set (t.locate p ++ [name]) .folder) ∧
      t.ensureFolders (p.child name) = (.ok (), t.set (t.locate p ++ [name]) .folder) := by
  have made := makeFolder_child folder plain short
  rw [free] at made
  constructor
  · rw [ensureFolder, made]
  · rw [ensureFolders, ensureFoldersFrom, made]

/-- A folder that is made is new, and nothing else is. -/
theorem ensureFolder_of_free (free : t.entryAt? (t.locate p ++ [name]) = none) :
    ∃ t', t.ensureFolder (p.child name) = .ok t' ∧ t.ensureFolders (p.child name) = (.ok (), t') ∧
      Made t t' (p.child name) := by
  obtain ⟨one, all⟩ := ensureFolder_set folder plain short free
  have inside : t.locate p ++ [name] ≠ [] :=
    List.append_ne_nil_of_right_ne_nil _ (List.cons_ne_nil _ _)
  have kept : ∀ q, t.find q = .ok .folder →
      (t.set (t.locate p ++ [name]) .folder).find q = .ok .folder :=
    fun q there => find_set there inside (by rw [free]; exact fun same => by cases same)
  refine ⟨t.set (t.locate p ++ [name]) .folder, one, all, fun _ => rfl, fun place => ?_, kept, ?_⟩
  · rw [locate_child plain, entryAt?_set inside]
  · rw [find_child (kept p folder) plain short, locate_set, entryAt?_set inside, if_pos rfl]

end Child

end FileTree

end LessonCalc
