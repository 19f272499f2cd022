import LessonCalc.Proofs.Files.Tree

/-!
# Making folders

A folder is made together with the folders on the way to it.  However that ends, the tree only gains
folders on this way, at places where nothing stood.

* `FileTree.KeepsFolders`: the folders of a tree stay, whatever becomes of its files.
* `FileTree.Grown`: a tree has gained nothing but folders on the way to the end of a path.
* `FileTree.Grown.ensureFolders`: this is all that making a folder does, and if it succeeds, the folder is
  there.
* `FileTree.entryAt?_of_find`: a path from the top that leads to a folder leads to the place of one.
* `FileTree.ensureFolders_of_folder`: a folder that is there is not made again.
* `FileTree.Lost`, `FileTree.Obstacle`: why a way leads nowhere, and the file that keeps a folder from being
  made.
* `FileTree.WellFormed`, `FileTree.WellFormed.ensureFoldersFrom_error`: where everything stands in a folder,
  a folder that cannot be made leaves the tree as it was, unless a name on the way is too long.
-/

namespace LessonCalc

theorem Path.child_parent {p : Path} (inside : p.parts ≠ []) : p.parent.child p.name = p := by
  have name : p.name = p.parts.getLast inside := by
    rw [Path.name, List.getLast?_eq_some_getLast inside, Option.getD_some]
  rw [Path.child, Path.parent, name, List.dropLast_concat_getLast inside]

namespace FileTree

variable {t t' t'' : FileTree} {p : Path} {place names more : List String} {entry : FileEntry}
  {e : FileError}

/-! ## Fronts of ways -/

/-- A way that leads on from some names leads through a folder there. -/
theorem walk_front (way : t.walk place (names ++ more) = .ok entry) (further : more ≠ []) :
    t.walk place names = .ok .folder := by
  induction names generalizing place with
  | nil => rfl
  | cons first names ih =>
      rw [List.cons_append] at way
      by_cases up : first = ".."
      · subst up
        rw [walk_up] at way ⊢
        exact ih way
      · have inner : names ++ more ≠ [] := List.append_ne_nil_of_right_ne_nil _ further
        obtain ⟨short, there⟩ := step_of_walk way up
        rw [if_neg inner] at there
        rw [walk_down up short there] at way ⊢
        exact ih way

/-- What a path leads to is in a folder and has a name that is not too long. -/
theorem find_parent (way : t.find p = .ok entry) :
    t.find p.parent = .ok .folder ∧ p.name.utf8ByteSize ≤ nameLimit := by
  by_cases top : p.parts = []
  · have parent : p.parent = p := by rw [Path.parent, top, List.dropLast_nil, ← top]
    have name : p.name = "" := by rw [Path.name, top]; rfl
    rw [find, top] at way
    cases way
    refine ⟨?_, name ▸ (by decide)⟩
    rw [parent, find, top]
    rfl
  · rw [← Path.child_parent top] at way
    have folder : t.find p.parent = .ok .folder := walk_front way (List.cons_ne_nil _ _)
    refine ⟨folder, ?_⟩
    by_cases up : p.name = ".."
    · exact up ▸ (by decide)
    · rw [find_child_eq_walk folder] at way
      exact (step_of_walk way up).1

/-- A path leads to a folder if it leads through its parent to the place of one. -/
theorem find_of_parent (folder : t.find p.parent = .ok .folder)
    (short : p.name.utf8ByteSize ≤ nameLimit) (there : t.entryAt? (t.locate p) = some .folder) :
    t.find p = .ok .folder := by
  by_cases top : p.parts = []
  · rw [find, top]
    rfl
  · rw [← Path.child_parent top] at there ⊢
    by_cases up : p.name = ".."
    · rw [find_child_eq_walk folder, up, walk_up]
      rfl
    · rw [locate_child up] at there
      rw [find_child folder up short, there]

theorem wayFault?_eq_none_iff :
    t.wayFault? p = none ↔ t.find p.parent = .ok .folder ∧ p.name.utf8ByteSize ≤ nameLimit := by
  unfold wayFault?
  split
  next fault way => simp [way]
  next content way => simp [way]
  next way => simp [way]

theorem makeFolder_eq_ok_iff :
    t.makeFolder p = .ok t' ↔ t.wayFault? p = none ∧ t.entryAt? (t.locate p) = none ∧
      t.set (t.locate p) .folder = t' := by
  unfold makeFolder
  split
  next fault way => simp [way]
  next way =>
    dsimp only
    split
    next found there => simp [there]
    next free => simp [way, free]

/-- A folder is missing only on the way to its parent. -/
theorem parent_of_notFound {q : Path} (missing : t.makeFolder p = .error ⟨.notFound, q⟩) :
    t.find p.parent = .error .notFound ∧ p.parts ≠ [] := by
  have lost : t.find p.parent = .error .notFound := by
    unfold makeFolder at missing
    split at missing
    next fault way =>
      cases missing
      unfold wayFault? at way
      split at way
      next fault lost => rw [lost, Option.some.inj way]
      next => cases way
      next => split at way <;> cases way
    next =>
      dsimp only at missing
      split at missing <;> cases missing
  refine ⟨lost, fun empty => ?_⟩
  rw [Path.parent, empty, find, List.dropLast_nil] at lost
  cases lost

/-! ## Folders that stay -/

/-- Whatever becomes of the files, the folders of a tree are folders of another one. -/
structure KeepsFolders (t t' : FileTree) : Prop where
  home : t'.home = t.home
  folder : ∀ place, t.entryAt? place = some .folder → t'.entryAt? place = some .folder

namespace KeepsFolders

theorem refl (t : FileTree) : KeepsFolders t t :=
  ⟨rfl, fun _ there => there⟩

theorem trans (first : KeepsFolders t t') (second : KeepsFolders t' t'') : KeepsFolders t t'' :=
  ⟨second.home.trans first.home, fun place there => second.folder place (first.folder place there)⟩

theorem start (keeps : KeepsFolders t t') (q : Path) : t'.start q = t.start q := by
  unfold FileTree.start
  rw [keeps.home]

theorem locate (keeps : KeepsFolders t t') (q : Path) : t'.locate q = t.locate q := by
  rw [FileTree.locate, FileTree.locate, keeps.start]

theorem find (keeps : KeepsFolders t t') {q : Path} (folder : t.find q = .ok .folder) :
    t'.find q = .ok .folder := by
  rw [FileTree.find, keeps.start]
  exact walk_mono keeps.folder folder

/-- The folders stay when something else than a folder changes. -/
theorem set (other : t.entryAt? place ≠ some .folder) : KeepsFolders t (t.set place entry) := by
  have inside : place ≠ [] := fun top => other (top ▸ rfl)
  refine ⟨rfl, fun place' folder => ?_⟩
  have apart : place' ≠ place := fun same => other (same ▸ folder)
  rw [entryAt?_set inside, if_neg apart, folder]

/-- Changing a file keeps the folders. -/
theorem update {change : Bytes → Bytes} (changed : t.update p change = .ok t') : KeepsFolders t t' := by
  unfold FileTree.update at changed
  dsimp only at changed
  split at changed
  next => cases changed
  next =>
    split at changed
    next => cases changed
    next content there =>
      cases changed
      exact .set fun folder => by rw [there] at folder; cases folder
    next free =>
      cases changed
      exact .set fun folder => by rw [free] at folder; cases folder

end KeepsFolders

/-! ## Growth -/

/-- A place on the way to the end of a path. -/
def OnWay (t : FileTree) (p : Path) (place : List String) : Prop :=
  ∃ n, place = t.locate { p with parts := p.parts.take n }

theorem OnWay.last (t : FileTree) (p : Path) : t.OnWay p (t.locate p) :=
  ⟨p.parts.length, by rw [List.take_length]⟩

theorem OnWay.of_parent (way : t.OnWay p.parent place) : t.OnWay p place := by
  obtain ⟨n, rfl⟩ := way
  refine ⟨min n (p.parts.length - 1), ?_⟩
  rw [Path.parent, List.dropLast_eq_take, List.take_take]

/-- A tree is another one with new folders on the way to the end of a path, and nothing else new. -/
structure Grown (t t' : FileTree) (p : Path) : Prop where
  top : t'.top = t.top
  home : t'.home = t.home
  entryAt? : ∀ place, t'.entryAt? place = t.entryAt? place ∨
    t.OnWay p place ∧ t.entryAt? place = none ∧ t'.entryAt? place = some .folder

namespace Grown

theorem refl (t : FileTree) (p : Path) : Grown t t p :=
  ⟨rfl, rfl, fun _ => .inl rfl⟩

/-- What was there stays. -/
theorem kept (grown : Grown t t' p) (there : t.entryAt? place = some entry) :
    t'.entryAt? place = some entry := by
  rcases grown.entryAt? place with same | ⟨_, free, _⟩
  · rw [same, there]
  · rw [there] at free
    cases free

theorem keepsFolders (grown : Grown t t' p) : KeepsFolders t t' :=
  ⟨grown.home, fun _ there => grown.kept there⟩

theorem locate (grown : Grown t t' p) (q : Path) : t'.locate q = t.locate q :=
  grown.keepsFolders.locate q

theorem onWay (grown : Grown t t' p) (way : t'.OnWay p place) : t.OnWay p place := by
  obtain ⟨n, rfl⟩ := way
  exact ⟨n, grown.locate _⟩

theorem trans (first : Grown t t' p) (second : Grown t' t'' p) : Grown t t'' p := by
  refine ⟨second.top.trans first.top, second.home.trans first.home, fun place => ?_⟩
  rcases second.entryAt? place with same | ⟨way, free, folder⟩
  · rw [same]
    exact first.entryAt? place
  · right
    rcases first.entryAt? place with same | ⟨_, _, there⟩
    · exact ⟨first.onWay way, same ▸ free, folder⟩
    · rw [there] at free
      cases free

theorem of_parent (grown : Grown t t' p.parent) : Grown t t' p := by
  refine ⟨grown.top, grown.home, fun place => ?_⟩
  rcases grown.entryAt? place with same | ⟨way, new⟩
  · exact .inl same
  · exact .inr ⟨way.of_parent, new⟩

/-- A file was there before. -/
theorem file (grown : Grown t t' p) {content : Bytes}
    (there : t'.entryAt? place = some (.file content)) : t.entryAt? place = some (.file content) := by
  rcases grown.entryAt? place with same | ⟨_, _, folder⟩
  · rw [← same, there]
  · rw [there] at folder
    cases folder

theorem find (grown : Grown t t' p) {q : Path} (folder : t.find q = .ok .folder) :
    t'.find q = .ok .folder :=
  grown.keepsFolders.find folder

/-! ## Growing -/

theorem makeFolder (made : t.makeFolder p = .ok t') : Grown t t' p ∧ t'.find p = .ok .folder := by
  obtain ⟨way, free, rfl⟩ := makeFolder_eq_ok_iff.mp made
  obtain ⟨parent, short⟩ := wayFault?_eq_none_iff.mp way
  have inside : t.locate p ≠ [] := by
    intro top
    rw [top] at free
    cases free
  have other : t.entryAt? (t.locate p) ≠ some .folder := by
    rw [free]
    exact fun same => by cases same
  have there : ∀ place, (t.set (t.locate p) .folder).entryAt? place =
      if place = t.locate p then some .folder else t.entryAt? place :=
    fun _ => entryAt?_set inside
  refine ⟨⟨rfl, rfl, fun place => ?_⟩, ?_⟩
  · rw [there]
    split
    next same =>
      subst same
      exact .inr ⟨OnWay.last t p, free, rfl⟩
    next => exact .inl rfl
  · apply find_of_parent (find_set parent inside other) short
    rw [locate_set, there, if_pos rfl]

theorem ensureFolder (made : t.ensureFolder p = .ok t') :
    Grown t t' p ∧ t'.find p = .ok .folder := by
  unfold FileTree.ensureFolder at made
  split at made
  next new =>
    cases made
    exact makeFolder new
  next =>
    split at made
    next there =>
      cases made
      refine ⟨refl t p, ?_⟩
      unfold isFolder at there
      split at there
      next folder => exact folder
      next => cases there
    next => cases made

/-- Whatever comes of it, making folders only adds folders on the way. -/
theorem ensureFoldersFrom {fuel : Nat} {result : Except FileError Unit}
    (made : FileTree.ensureFoldersFrom fuel t p = (result, t')) :
    Grown t t' p ∧ (result = .ok () → t'.find p = .ok .folder) := by
  induction fuel generalizing t t' p result with
  | zero =>
      cases made
      exact ⟨refl t p, fun done => by cases done⟩
  | succ fuel ih =>
      unfold FileTree.ensureFoldersFrom at made
      split at made
      next new =>
        cases made
        obtain ⟨grown, there⟩ := makeFolder new
        exact ⟨grown, fun _ => there⟩
      next =>
        split at made
        next below =>
          cases made
          exact ⟨(ih below).1.of_parent, fun done => by cases done⟩
        next t₁ below =>
          have first := (ih below).1.of_parent
          split at made
          next last =>
            cases made
            obtain ⟨second, there⟩ := ensureFolder last
            exact ⟨first.trans second, fun _ => there⟩
          next =>
            cases made
            exact ⟨first, fun done => by cases done⟩
      next =>
        split at made
        next there =>
          cases made
          refine ⟨refl t p, fun _ => ?_⟩
          unfold isFolder at there
          split at there
          next folder => exact folder
          next => cases there
        next =>
          cases made
          exact ⟨refl t p, fun done => by cases done⟩

theorem ensureFolders {result : Except FileError Unit} (made : t.ensureFolders p = (result, t')) :
    Grown t t' p ∧ (result = .ok () → t'.find p = .ok .folder) :=
  ensureFoldersFrom made

end Grown

/-! ## Folders that are there -/

/-- All folders on the way from the top to a place are there, with the place itself. -/
def Solid (t : FileTree) (place : List String) : Prop :=
  ∀ n, t.entryAt? (place.take n) = some .folder

theorem solid_top (t : FileTree) : t.Solid [] := by
  intro n
  rw [List.take_nil]
  rfl

theorem Solid.up (solid : t.Solid place) : t.Solid place.dropLast := by
  intro n
  rw [List.dropLast_eq_take, List.take_take]
  exact solid _

theorem Solid.down {name : String} (solid : t.Solid place)
    (there : t.entryAt? (place ++ [name]) = some .folder) : t.Solid (place ++ [name]) := by
  intro n
  by_cases inner : n ≤ place.length
  · rw [List.take_append_of_le_length inner]
    exact solid n
  · rw [List.take_of_length_le (by rw [List.length_append, List.length_singleton]; omega)]
    exact there

theorem Solid.entryAt? (solid : t.Solid place) : t.entryAt? place = some .folder := by
  have whole := solid place.length
  rwa [List.take_length] at whole

/-- A way through folders from a place below which all folders are there leads to such a place. -/
theorem Solid.follow (solid : t.Solid place) (way : t.walk place names = .ok .folder) :
    t.Solid (follow place names) := by
  induction names generalizing place with
  | nil => exact solid
  | cons first names ih =>
      rw [FileTree.follow]
      split
      next up =>
        subst up
        rw [walk_up] at way
        exact ih solid.up way
      next plain =>
        obtain ⟨short, there⟩ := folder_of_walk way plain
        rw [walk_down plain short there] at way
        exact ih (solid.down there) way

/-- A path from the top that leads to a folder leads to the place of one. -/
theorem entryAt?_of_find {top : String} (fromTop : p.top? = some top)
    (folder : t.find p = .ok .folder) : t.entryAt? (t.locate p) = some .folder := by
  have start : t.start p = [] := by rw [FileTree.start, fromTop]
  rw [find, start] at folder
  rw [locate, start]
  exact ((solid_top t).follow folder).entryAt?

/-- A folder that is there is not made again. -/
theorem ensureFolders_of_folder {top : String} (fromTop : p.top? = some top)
    (folder : t.find p = .ok .folder) : t.ensureFolders p = (.ok (), t) := by
  have way : t.wayFault? p = none := wayFault?_eq_none_iff.mpr (find_parent folder)
  have taken : t.makeFolder p = .error ⟨.taken, p⟩ := by
    simp only [makeFolder, way, entryAt?_of_find fromTop folder]
  have isFolder : t.isFolder p = true := by rw [isFolder, folder]
  rw [ensureFolders, ensureFoldersFrom, taken]
  exact if_pos isFolder

/-! ## Well-formed trees -/

/-- A tree in which everything stands in a folder, and whose home is told without going up. -/
structure WellFormed (t : FileTree) : Prop where
  inFolder : ∀ place name entry, t.entryAt? (place ++ [name]) = some entry →
    t.entryAt? place = some .folder
  home : ".." ∉ t.home

/-- A tree is well-formed if each of its entries stands in a folder. -/
theorem wellFormed_of_forall (home : ".." ∉ t.home)
    (each : ∀ e ∈ t.entries, t.entryAt? e.1.dropLast = some .folder) : t.WellFormed := by
  refine ⟨fun place name entry there => ?_, home⟩
  have inside : (place ++ [name]).isEmpty = false := by simp
  rw [entryAt?, inside] at there
  obtain ⟨before, after, split, _⟩ := List.lookup_eq_some_iff.mp there
  have folder := each (place ++ [name], entry) (by simp [split])
  rwa [List.dropLast_concat] at folder

theorem follow_of_plain (plain : ".." ∉ names) : follow place names = place ++ names := by
  induction names generalizing place with
  | nil => rw [follow, List.append_nil]
  | cons first names ih =>
      rw [List.mem_cons, not_or] at plain
      rw [follow, if_neg (Ne.symm plain.1), ih plain.2, List.append_assoc, List.singleton_append]

theorem plain_follow (plain : ".." ∉ place) : ".." ∉ follow place names := by
  induction names generalizing place with
  | nil => exact plain
  | cons first names ih =>
      rw [follow]
      split
      next => exact ih fun member => plain (List.dropLast_subset _ member)
      next down =>
        apply ih
        rw [List.mem_append, List.mem_singleton, not_or]
        exact ⟨plain, Ne.symm down⟩

namespace WellFormed

variable (formed : t.WellFormed)
include formed

/-- The place that a path leads to is told without going up. -/
theorem plain_locate (p : Path) : ".." ∉ t.locate p := by
  apply plain_follow
  unfold start
  split
  · exact List.not_mem_nil
  · exact formed.home

/-- All that leads to something is a folder. -/
theorem front (there : t.entryAt? (place ++ more) = some entry) (further : more ≠ []) :
    t.entryAt? place = some .folder := by
  induction more generalizing place with
  | nil => exact absurd rfl further
  | cons first more ih =>
      rw [List.append_cons] at there
      by_cases last : more = []
      · rw [last, List.append_nil] at there
        exact formed.inFolder place first entry there
      · exact formed.inFolder place first .folder (ih there last)

/-- On the way to something no folder is missing. -/
theorem walk_ne_notFound (plain : ".." ∉ names) (there : t.entryAt? (place ++ names) = some entry) :
    t.walk place names ≠ .error .notFound := by
  induction names generalizing place with
  | nil => exact fun lost => by cases lost
  | cons first names ih =>
      rw [List.mem_cons, not_or] at plain
      have down : first ≠ ".." := Ne.symm plain.1
      rw [List.append_cons] at there
      by_cases long : nameLimit < first.utf8ByteSize
      · rw [walk_of_long down long]
        exact fun lost => by cases lost
      · have short := Nat.not_lt.mp long
        by_cases last : names = []
        · subst last
          rw [List.append_nil] at there
          rw [walk_name down short, there]
          exact fun lost => by cases lost
        · rw [walk_down down short (formed.front there last)]
          exact ih plain.2 there

end WellFormed

section FromTop

variable {top : String} (fromTop : p.top? = some top) (plain : ".." ∉ p.parts)
include fromTop plain

theorem locate_of_plain : t.locate p = p.parts := by
  rw [locate, start, fromTop, follow_of_plain plain, List.nil_append]

theorem OnWay.length_le (way : t.OnWay p place) : place.length ≤ p.parts.length := by
  obtain ⟨n, rfl⟩ := way
  have plainTake : ".." ∉ p.parts.take n := fun member => plain (List.mem_of_mem_take member)
  rw [locate_of_plain (p := { p with parts := p.parts.take n }) fromTop plainTake]
  exact List.length_take_le' n p.parts

/-- On the way to something no folder is missing. -/
theorem WellFormed.makeFolder_ne_notFound (formed : t.WellFormed) {q : Path}
    (there : t.entryAt? (t.locate p) = some entry) : t.makeFolder p ≠ .error ⟨.notFound, q⟩ := by
  intro missing
  obtain ⟨lost, inside⟩ := parent_of_notFound missing
  have plainParent : ".." ∉ p.parent.parts := fun member => plain (List.dropLast_subset _ member)
  have parentTop : p.parent.top? = some top := fromTop
  have start : t.start p.parent = [] := by rw [start, parentTop]
  rw [locate_of_plain fromTop plain, ← List.dropLast_concat_getLast inside] at there
  have folder := formed.front there (List.cons_ne_nil _ _)
  rw [find, start] at lost
  have below : t.entryAt? ([] ++ p.parent.parts) = some .folder := folder
  exact formed.walk_ne_notFound plainParent below lost

/-- Below the end of a path nothing changes when folders are made on the way to it. -/
theorem Grown.entryAt?_below (grown : Grown t t' p) (below : more ≠ []) :
    t'.entryAt? (p.parts ++ more) = t.entryAt? (p.parts ++ more) := by
  rcases grown.entryAt? (p.parts ++ more) with same | ⟨way, _, _⟩
  · exact same
  · have short := way.length_le fromTop plain
    have long : 0 < more.length := List.length_pos_iff.mpr below
    rw [List.length_append] at short
    omega

/-- What stands at the end of a path was there before folders were made on the way to its parent. -/
theorem Grown.entryAt?_of_parent (grown : Grown t t' p.parent) :
    t'.entryAt? (t.locate p) = t.entryAt? (t.locate p) := by
  rw [locate_of_plain fromTop plain]
  by_cases empty : p.parts = []
  · rw [empty]
    rfl
  · have plainParent : ".." ∉ p.parent.parts := fun member => plain (List.dropLast_subset _ member)
    rw [← List.dropLast_concat_getLast empty]
    exact Grown.entryAt?_below (p := p.parent) fromTop plainParent grown (List.cons_ne_nil _ _)

/-- Where a folder is wanted at a place that something holds, nothing is made. -/
theorem WellFormed.ensureFolders_of_entryAt? (formed : t.WellFormed)
    (there : t.entryAt? (t.locate p) = some entry) (made : t.ensureFolders p = (.ok (), t')) :
    t' = t := by
  unfold ensureFolders ensureFoldersFrom at made
  split at made
  next new =>
    obtain ⟨_, free, _⟩ := makeFolder_eq_ok_iff.mp new
    rw [there] at free
    cases free
  next missing => exact absurd missing (makeFolder_ne_notFound fromTop plain formed there)
  next =>
    split at made
    next =>
      cases made
      rfl
    next => cases made

end FromTop

/-! ## Folders that cannot be made -/

/-- Why a way leads nowhere: something on it is missing, is a file, or would have too long a name. -/
inductive Lost (t : FileTree) (place names : List String) : FileFault → Prop where
  | missing : Lost t place names .notFound
  | file {front rest : List String} {content : Bytes} : names = front ++ rest → rest ≠ [] →
      t.entryAt? (place ++ front) = some (.file content) → Lost t place names .notFolder
  | long {front rest : List String} {name : String} : names = front ++ name :: rest →
      nameLimit < name.utf8ByteSize → t.walk place front = .ok .folder → Lost t place names .nameTooLong

theorem lost_of_walk {fault : FileFault} (plain : ".." ∉ names)
    (way : t.walk place names = .error fault) : Lost t place names fault := by
  induction names generalizing place with
  | nil => cases way
  | cons first names ih =>
      rw [List.mem_cons, not_or] at plain
      have down : first ≠ ".." := Ne.symm plain.1
      by_cases long : nameLimit < first.utf8ByteSize
      · rw [walk_of_long down long] at way
        cases way
        exact .long (List.nil_append _).symm long rfl
      · have short := Nat.not_lt.mp long
        cases there : t.entryAt? (place ++ [first]) with
        | none =>
            rw [walk_name down short, there] at way
            cases way
            exact .missing
        | some entry =>
            cases entry with
            | file content =>
                rw [walk_name down short, there] at way
                cases names with
                | nil => cases way
                | cons next names =>
                    cases way
                    have split : first :: next :: names = [first] ++ next :: names := rfl
                    exact .file split (List.cons_ne_nil _ _) there
            | folder =>
                rw [walk_down down short there] at way
                cases ih plain.2 way with
                | missing => exact .missing
                | file split further taken =>
                    rw [List.append_assoc] at taken
                    exact .file (congrArg (first :: ·) split) further taken
                | @long front rest name split tooLong before =>
                    have split' : first :: names = (first :: front) ++ name :: rest :=
                      congrArg (first :: ·) split
                    refine .long split' tooLong ?_
                    rw [walk_down down short there, before]

/-- A way that does not go up leads to what stands at its end. -/
theorem entryAt?_of_walk (plain : ".." ∉ names) (inside : names ≠ [])
    (way : t.walk place names = .ok entry) : t.entryAt? (place ++ names) = some entry := by
  induction names generalizing place with
  | nil => exact absurd rfl inside
  | cons first names ih =>
      rw [List.mem_cons, not_or] at plain
      have down : first ≠ ".." := Ne.symm plain.1
      obtain ⟨short, there⟩ := step_of_walk way down
      by_cases last : names = []
      · subst last
        exact there
      · rw [if_neg last] at there
        rw [walk_down down short there] at way
        rw [List.append_cons]
        exact ih plain.2 last way

/-- No folder is missing on a way that leads to a file or through one. -/
theorem WellFormed.walk_file (formed : t.WellFormed) {content : Bytes} (plain : ".." ∉ names)
    (inside : names ≠ []) (taken : t.entryAt? (place ++ names) = some (.file content)) :
    t.walk place (names ++ more) ≠ .error .notFound := by
  induction names generalizing place with
  | nil => exact absurd rfl inside
  | cons first names ih =>
      rw [List.mem_cons, not_or] at plain
      have down : first ≠ ".." := Ne.symm plain.1
      rw [List.append_cons] at taken
      rw [List.cons_append]
      by_cases long : nameLimit < first.utf8ByteSize
      · rw [walk_of_long down long]
        exact fun lost => by cases lost
      · have short := Nat.not_lt.mp long
        by_cases last : names = []
        · subst last
          rw [List.append_nil] at taken
          rw [List.nil_append, walk_name down short, taken]
          cases more <;> exact fun lost => by cases lost
        · rw [walk_down down short (formed.front taken last)]
          exact ih plain.2 last taken

/-- What keeps a folder from being made in a folder: its name is too long, or its place is taken. -/
theorem fault_of_ensureFolder (parent : t.find p.parent = .ok .folder)
    (failed : t.ensureFolder p = .error e) :
    (e.fault = .nameTooLong ∧ nameLimit < p.name.utf8ByteSize) ∨
      ∃ found, t.entryAt? (t.locate p) = some found := by
  have cause : t.makeFolder p = .error e := by
    unfold ensureFolder at failed
    split at failed
    next => cases failed
    next fault unmade =>
      split at failed
      next => cases failed
      next => exact unmade.trans failed
  unfold makeFolder at cause
  split at cause
  next fault way =>
    cases cause
    rw [wayFault?, parent] at way
    dsimp only at way
    split at way
    next long => exact .inl ⟨(Option.some.inj way).symm, long⟩
    next => cases way
  next =>
    dsimp only at cause
    split at cause
    next found there => exact .inr ⟨found, there⟩
    next => cases cause

/-- A file keeps a folder from being made at the end of a path: it stands there, or on the way. -/
inductive Obstacle (t : FileTree) (p : Path) : FileFault → Prop where
  | atEnd {content : Bytes} : t.entryAt? p.parts = some (.file content) → Obstacle t p .taken
  | onWay {front rest : List String} {content : Bytes} : p.parts = front ++ rest → rest ≠ [] →
      t.entryAt? front = some (.file content) → Obstacle t p .notFolder

/-- A name on the way to the end of a path is too long, and all that a tree has over another one are the
folders before it. -/
def StopsAtLongName (t t' : FileTree) (p : Path) : Prop :=
  ∃ front name rest, p.parts = front ++ name :: rest ∧ nameLimit < name.utf8ByteSize ∧
    t'.find { p with parts := front } = .ok .folder ∧ Grown t t' { p with parts := front }

/-- The name of an entry of a folder is too long. -/
theorem stopsAtLongName_of_parent (parent : t'.find p.parent = .ok .folder)
    (long : nameLimit < p.name.utf8ByteSize) (grown : Grown t t' p.parent) : StopsAtLongName t t' p := by
  have inside : p.parts ≠ [] := by
    intro top
    rw [Path.name, top] at long
    exact absurd long (by decide)
  refine ⟨p.parent.parts, p.name, [], ?_, long, parent, grown⟩
  exact congrArg Path.parts (Path.child_parent inside).symm

/-- What keeps a way from a path whose parent it goes through keeps it from the path. -/
theorem StopsAtLongName.of_parent (stops : StopsAtLongName t t' p.parent) : StopsAtLongName t t' p := by
  obtain ⟨front, name, rest, split, long, found, grown⟩ := stops
  have inside : p.parts ≠ [] := by
    intro top
    rw [Path.parent, top] at split
    simp at split
  refine ⟨front, name, rest ++ [p.name], ?_, long, found, grown⟩
  rw [← List.cons_append, ← List.append_assoc, ← split]
  exact congrArg Path.parts (Path.child_parent inside).symm

section FromTop

variable {top : String} (fromTop : p.top? = some top) (plain : ".." ∉ p.parts)
include fromTop plain

/-- Why no folder is made at the end of a path: the folder that it would be in is missing, a name is too
long, or there is something else. -/
theorem cases_makeFolder (failed : t.makeFolder p = .error e) (unmade : t.isFolder p = false) :
    e.path = p ∧ (e.fault = .notFound ∨ Obstacle t p e.fault ∨
      e.fault = .nameTooLong ∧ StopsAtLongName t t p) := by
  have plainParent : ".." ∉ p.parent.parts := fun member => plain (List.dropLast_subset _ member)
  have find_eq (q : List String) : t.find { p with parts := q } = t.walk [] q := by
    rw [find, FileTree.start, fromTop]
  have parent_eq : t.find p.parent = t.walk [] p.parent.parts := find_eq _
  have whole (inside : p.parts ≠ []) : p.parts = p.parent.parts ++ [p.name] :=
    congrArg Path.parts (Path.child_parent inside).symm
  have inside : p.parts ≠ [] := by
    intro top
    have folder : t.find p = .ok .folder := by
      rw [find, top]
      rfl
    rw [isFolder, folder] at unmade
    cases unmade
  unfold makeFolder at failed
  rw [locate_of_plain fromTop plain] at failed
  split at failed
  next fault way =>
    cases failed
    refine ⟨rfl, ?_⟩
    unfold wayFault? at way
    split at way
    next fault' lost =>
      cases way
      rw [parent_eq] at lost
      cases lost_of_walk plainParent lost with
      | missing => exact .inl rfl
      | @file front rest content split further taken =>
          have split' : p.parts = front ++ (rest ++ [p.name]) := by
            rw [← List.append_assoc, ← split]
            exact whole inside
          exact .inr (.inl (.onWay split' (by simp) taken))
      | long split long before =>
          refine .inr (.inr ⟨rfl, StopsAtLongName.of_parent ?_⟩)
          exact ⟨_, _, _, split, long, (find_eq _).trans before, .refl _ _⟩
    next content found =>
      cases way
      have deep : p.parent.parts ≠ [] := by
        intro top
        rw [parent_eq, top] at found
        cases found
      have taken := entryAt?_of_walk plainParent deep (parent_eq ▸ found)
      exact .inr (.inl (.onWay (whole inside) (List.cons_ne_nil _ _) taken))
    next folder =>
      split at way
      next long =>
        cases way
        exact .inr (.inr ⟨rfl, stopsAtLongName_of_parent folder long (.refl _ _)⟩)
      next => cases way
  next way =>
    dsimp only at failed
    split at failed
    next entry there =>
      cases failed
      refine ⟨rfl, .inr (.inl ?_)⟩
      cases entry with
      | file content => exact .atEnd there
      | folder =>
          obtain ⟨parent, short⟩ := wayFault?_eq_none_iff.mp way
          have folder := find_of_parent parent short (by rw [locate_of_plain fromTop plain, there])
          rw [isFolder, folder] at unmade
          cases unmade
    next => cases failed

/-- No folder is missing on the way to a path that a file keeps from being one of a folder. -/
theorem WellFormed.find_of_obstacle (formed : t.WellFormed) {fault : FileFault}
    (obstacle : Obstacle t p fault) : t.find p ≠ .error .notFound := by
  have start : t.start p = [] := by rw [FileTree.start, fromTop]
  rw [find, start]
  cases obstacle with
  | atEnd taken =>
      have inside : p.parts ≠ [] := fun top => by rw [top] at taken; cases taken
      have way : t.walk [] (p.parts ++ []) ≠ .error .notFound := formed.walk_file plain inside taken
      rwa [List.append_nil] at way
  | @onWay front rest content split _ taken =>
      rw [split] at plain ⊢
      have inside : front ≠ [] := fun top => by rw [top] at taken; cases taken
      exact formed.walk_file (fun member => plain (List.mem_append_left _ member)) inside taken

/-- Where a folder cannot be made, the tree stays as it was, and it is a file that keeps the folder from
being made, unless a name on the way is too long. -/
theorem WellFormed.ensureFoldersFrom_error {fuel : Nat} (formed : t.WellFormed)
    (enough : p.parts.length < fuel) (failed : ensureFoldersFrom fuel t p = (.error e, t')) :
    t' = t ∧ e.path = p ∧ Obstacle t p e.fault ∨
      e.fault = .nameTooLong ∧ StopsAtLongName t t' p := by
  induction fuel generalizing p e t' with
  | zero => exact absurd enough (Nat.not_lt_zero _)
  | succ fuel ih =>
      unfold ensureFoldersFrom at failed
      split at failed
      next => cases failed
      next missing =>
        obtain ⟨lost, inside⟩ := parent_of_notFound missing
        have plainParent : ".." ∉ p.parent.parts := fun member => plain (List.dropLast_subset _ member)
        have parentTop : p.parent.top? = some top := fromTop
        have shorter : p.parent.parts.length < fuel := by
          have positive := List.length_pos_iff.mpr inside
          rw [Path.parent, List.length_dropLast]
          omega
        split at failed
        next below =>
          cases failed
          rcases ih parentTop plainParent shorter below with ⟨_, _, obstacle⟩ | ⟨long, stops⟩
          · exact absurd lost (formed.find_of_obstacle parentTop plainParent obstacle)
          · exact .inr ⟨long, stops.of_parent⟩
        next t₁ below =>
          obtain ⟨grown, made⟩ := Grown.ensureFoldersFrom below
          split at failed
          next => cases failed
          next e' last =>
            cases failed
            rcases fault_of_ensureFolder (made rfl) last with ⟨fault, long⟩ | ⟨found, there⟩
            · exact .inr ⟨fault, stopsAtLongName_of_parent (made rfl) long grown⟩
            · rw [grown.locate, grown.entryAt?_of_parent fromTop plain] at there
              exact absurd missing (makeFolder_ne_notFound fromTop plain formed there)
      next unmissing unmade =>
        split at failed
        next => cases failed
        next noFolder =>
          cases failed
          obtain ⟨path, causes⟩ := cases_makeFolder fromTop plain unmade (Bool.eq_false_iff.mpr noFolder)
          rcases causes with missing | obstacle | long
          · exact (unmissing e.path (by rw [← missing])).elim
          · exact .inl ⟨rfl, path, obstacle⟩
          · exact .inr long

end FromTop

end FileTree

end LessonCalc
