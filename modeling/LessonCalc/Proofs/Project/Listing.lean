import LessonCalc.Proofs.Data.Entries
import LessonCalc.Proofs.Project.Loading
import LessonCalc.Proofs.Text.Order
import Mathlib.Data.List.Pairwise

/-!
# Listing the tools of a project

A file with the ending of a tool file in the folder of tools stands for the tool of its name, unless a file
of the same name with an earlier ending does.  The tools are listed in the order of their files.  That is
the order of their names as long as no name goes on with what comes before the ending of another's file.

* `IsToolFile`, `mem_toolFiles_iff`, `pairwise_toolFiles`: the tool files of a project, in order.
* `Represents`: a tool file stands for the tool of its name.
* `get?_foldl_addFile`, `exists_foldl_addFile`: what becomes of files that are listed one after the other.
* `increasing_iff_agree`: when names in the order of their files are in order.
* `Lists`, `tools_listed`: the tools of a project, in their order, and how one is found.
-/

namespace LessonCalc

open LessonCalc.Text

/-! ## Names of files -/

namespace Path

/-- A name is put together again from its stem and its ending. -/
theorem splitName_append (name : String) : (splitName name).1 ++ (splitName name).2 = name := by
  have whole := List.takeWhile_append_dropWhile (p := fun c => decide (c ≠ '.')) (l := name.toList.reverse)
  unfold splitName
  dsimp only
  split
  next dot stem rest =>
    split
    next => exact String.append_empty
    next =>
      have stops := List.head?_dropWhile_not (fun c => decide (c ≠ '.')) name.toList.reverse
      rw [rest] at stops
      obtain rfl : dot = '.' := by simpa using stops
      rw [rest] at whole
      have parted := congrArg List.reverse whole
      rw [List.reverse_append, List.reverse_cons, List.append_assoc, List.reverse_reverse] at parted
      apply String.toList_inj.mp
      rw [String.toList_append, String.toList_ofList, String.toList_ofList]
      exact parted
  next => exact String.append_empty

theorem stem_append_extension (path : Path) : path.stem ++ path.extension = path.name :=
  splitName_append path.name

end Path

/-- A file in a folder is one of the names in it. -/
theorem FileTree.mem_names_of_isFile {t : FileTree} {p : Path} {name : String} (plain : name ≠ "..")
    (there : t.isFile (p.child name) = true) : name ∈ t.names p := by
  unfold isFile at there
  split at there
  next content found =>
    have folder := (find_parent found).1
    rw [Path.parent_child] at folder
    have entry := entryAt?_of_find_child folder plain found
    rw [locate_child plain, entryAt?, if_neg (by simp)] at entry
    obtain ⟨before, after, entries, _⟩ := List.lookup_eq_some_iff.mp entry
    have key : t.locate p ++ [name] ∈ t.entries.keys := by simp [Entries.keys, entries]
    exact List.mem_filterMap.mpr ⟨_, key, by simp⟩
  next => cases there

namespace Project

variable {t : FileTree} {project path other : Path} {name : String}

/-! ## Tool files -/

/-- A tool file of a project: a file in its folder of tools that has one of the endings of tool files. -/
structure IsToolFile (t : FileTree) (project path : Path) : Prop where
  inside : ∃ file, path = (toolFolder project).child file
  isFile : t.isFile path = true
  ending : path.extension ∈ toolExtensions

theorem mem_toolFiles_iff : path ∈ toolFiles t project ↔ IsToolFile t project path := by
  constructor
  · intro member
    obtain ⟨file, inside, _, isFile⟩ := exists_of_mem_toolFiles member
    have ending := (Bool.and_eq_true_iff.mp (List.mem_filter.mp member).2).2
    exact ⟨⟨file, inside⟩, isFile, List.contains_iff_mem.mp ending⟩
  · rintro ⟨⟨file, rfl⟩, isFile, ending⟩
    have ending := List.contains_iff_mem.mpr ending
    have plain := plain_of_extension ending
    rw [Path.name_child] at plain
    refine List.mem_filter.mpr ⟨List.mem_map_of_mem ?_, Bool.and_eq_true_iff.mpr ⟨isFile, ending⟩⟩
    exact List.mem_mergeSort.mpr (FileTree.mem_names_of_isFile plain isFile)

/-- The tool files are in the order of their names, endings included. -/
theorem pairwise_toolFiles (t : FileTree) (project : Path) :
    (toolFiles t project).Pairwise fun p q => p.name ≤ q.name := by
  refine List.Pairwise.filter _ (List.pairwise_map.mpr ?_)
  simp only [Path.name_child]
  exact pairwise_sortTexts _

/-- A tool file is known by its name. -/
theorem IsToolFile.eq_of_name (tool : IsToolFile t project path) (tool' : IsToolFile t project other)
    (same : path.name = other.name) : path = other := by
  obtain ⟨file, rfl⟩ := tool.inside
  obtain ⟨file', rfl⟩ := tool'.inside
  rw [Path.name_child, Path.name_child] at same
  rw [same]

/-- The files of one name are in the order of their endings. -/
theorem name_le_iff (same : path.stem = other.stem) :
    path.name ≤ other.name ↔ path.extension ≤ other.extension := by
  rw [← path.stem_append_extension, ← other.stem_append_extension, same, append_le_append_iff]

/-- A tool file stands for the tool of its name: no other one of that name has an earlier ending. -/
structure Represents (t : FileTree) (project : Path) (name : String) (path : Path) : Prop where
  tool : IsToolFile t project path
  stem : path.stem = name
  first : ∀ other, IsToolFile t project other → other.stem = name → path.extension ≤ other.extension

/-- One file stands for a tool. -/
theorem Represents.unique (represents : Represents t project name path)
    (represents' : Represents t project name other) : path = other := by
  refine represents.tool.eq_of_name represents'.tool ?_
  have endings := String.le_antisymm (represents.first other represents'.tool represents'.stem)
    (represents'.first path represents.tool represents.stem)
  rw [← path.stem_append_extension, ← other.stem_append_extension, represents.stem, represents'.stem,
    endings]

/-- The first tool file of a name stands for the tool. -/
theorem represents_of_find?
    (found : (toolFiles t project).find? (fun p => p.stem == name) = some path) :
    Represents t project name path := by
  obtain ⟨stem, before, after, files, earlier⟩ := List.find?_eq_some_iff_append.mp found
  have stem := beq_iff_eq.mp stem
  have order := pairwise_toolFiles t project
  rw [files] at order
  refine ⟨mem_toolFiles_iff.mp (files ▸ by simp), stem, fun other tool stem' => ?_⟩
  rw [← name_le_iff (stem.trans stem'.symm)]
  have member := mem_toolFiles_iff.mpr tool
  rw [files] at member
  rcases List.mem_append.mp member with early | late
  · exact absurd (earlier other early) (by simp [stem'])
  · rcases List.mem_cons.mp late with rfl | late
    · exact String.le_refl _
    · exact List.rel_of_pairwise_cons (List.pairwise_append.mp order).2.1 late

theorem find?_eq_some_iff :
    (toolFiles t project).find? (fun p => p.stem == name) = some path ↔
      Represents t project name path := by
  refine ⟨represents_of_find?, fun represents => ?_⟩
  cases found : (toolFiles t project).find? fun p => p.stem == name with
  | none =>
      have absent := List.find?_eq_none.mp found path (mem_toolFiles_iff.mpr represents.tool)
      exact absurd (beq_iff_eq.mpr represents.stem) absent
  | some other => rw [(represents_of_find? found).unique represents]

/-- There is a file that stands for a tool if there is any tool file of its name. -/
theorem exists_represents (tool : IsToolFile t project path) :
    ∃ other, Represents t project path.stem other := by
  cases found : (toolFiles t project).find? fun p => p.stem == path.stem with
  | none =>
      have absent := List.find?_eq_none.mp found path (mem_toolFiles_iff.mpr tool)
      exact absurd (beq_self_eq_true _) absent
  | some other => exact ⟨other, represents_of_find? found⟩

/-! ## Files one after the other -/

/-- A file is listed under its name unless one is already. -/
def addFile (found : Entries String Path) (p : Path) : Entries String Path :=
  if found.contains p.stem then found else found ++ [(p.stem, p)]

theorem tools_eq_foldl (t : FileTree) (project : Path) :
    tools t project = (toolFiles t project).foldl addFile [] :=
  rfl

variable {found : Entries String Path}

theorem get?_addFile (p : Path) :
    (addFile found p).get? name = (found.get? name).or (if p.stem == name then some p else none) := by
  unfold addFile
  by_cases same : p.stem = name
  · subst same
    split
    next known =>
      have there := mt Entries.get?_eq_none_iff.mp (not_not.mpr (Entries.contains_iff.mp known))
      rw [Option.or_of_isSome (Option.isSome_iff_ne_none.mpr there)]
    next => simp [Entries.get?, List.lookup_append]
  · have differ : (name == p.stem) = false := beq_eq_false_iff_ne.mpr (Ne.symm same)
    split <;> simp [Entries.get?, List.lookup_append, List.lookup_cons, same, differ]

/-- The first file of each name counts. -/
theorem get?_foldl_addFile (files : List Path) :
    (files.foldl addFile found).get? name =
      (found.get? name).or (files.find? fun p => p.stem == name) := by
  induction files generalizing found with
  | nil => rw [List.foldl_nil, List.find?_nil, Option.or_none]
  | cons p files ih =>
      rw [List.foldl_cons, ih, get?_addFile, Option.or_assoc, List.find?_cons]
      cases p.stem == name <;> rfl

theorem nodup_keys_addFile (nodup : found.keys.Nodup) (p : Path) : (addFile found p).keys.Nodup := by
  unfold addFile
  split
  next => exact nodup
  next unknown =>
    have fresh := mt Entries.contains_iff.mpr unknown
    rw [← Entries.insert_of_notMem fresh]
    exact Entries.nodup_keys_insert nodup

theorem nodup_keys_foldl_addFile (nodup : found.keys.Nodup) (files : List Path) :
    (files.foldl addFile found).keys.Nodup := by
  induction files generalizing found with
  | nil => exact nodup
  | cons p files ih => exact ih (nodup_keys_addFile nodup p)

/-- Files are listed in their order. -/
theorem exists_foldl_addFile (found : Entries String Path) (files : List Path) :
    ∃ more, files.foldl addFile found = found ++ more ∧
      more.Sublist (files.map fun p => (p.stem, p)) := by
  induction files generalizing found with
  | nil => exact ⟨[], (List.append_nil found).symm, .refl _⟩
  | cons p files ih =>
      obtain ⟨more, all, order⟩ := ih (addFile found p)
      rw [List.foldl_cons, all, List.map_cons]
      unfold addFile
      split
      next => exact ⟨more, rfl, .cons _ order⟩
      next => exact ⟨(p.stem, p) :: more, by rw [List.append_assoc, List.singleton_append], .cons_cons _ order⟩

/-! ## The order of names -/

/-- Names in the order of their files are in increasing order exactly if any two of them are in the order of
their files. -/
theorem increasing_iff_agree (nodup : found.keys.Nodup)
    (byFile : found.Pairwise fun a b => a.2.name < b.2.name) :
    found.keys.Pairwise (· < ·) ↔ ∀ a ∈ found, ∀ b ∈ found, a.1 < b.1 → a.2.name < b.2.name := by
  rw [Entries.keys, List.pairwise_map]
  constructor
  · intro increasing a here b there less
    -- whichever of two entries comes first, its name and its file are before those of the other
    have symmetric : Std.Symm fun c d : String × Path =>
        (c.1 < d.1 → c.2.name < d.2.name) ∧ (d.1 < c.1 → d.2.name < c.2.name) :=
      ⟨fun c d both => both.symm⟩
    have each := (increasing.and byFile).imp fun {c d} order =>
      (⟨fun _ => order.2, fun later => absurd later (String.lt_asymm order.1)⟩ :
        (c.1 < d.1 → c.2.name < d.2.name) ∧ (d.1 < c.1 → d.2.name < c.2.name))
    have differ : a ≠ b := by
      rintro rfl
      exact String.lt_irrefl _ less
    exact (each.forall here there differ).1 less
  · intro agree
    have distinct := List.pairwise_map.mp nodup
    refine (distinct.and byFile).imp_of_mem fun {c d} here there order => ?_
    by_contra later
    have less : d.1 < c.1 := by
      by_contra earlier
      exact order.1 (String.le_antisymm earlier later)
    exact String.lt_asymm order.2 (agree d there c here less)

/-- What stands for a tool has the name of the tool with an ending. -/
theorem Represents.name_eq (represents : Represents t project name path) :
    path.name = name ++ path.extension := by
  rw [← represents.stem, path.stem_append_extension]

/-- A name comes before one that it is the front of, and so does its file if its ending comes before what
follows the front. -/
theorem Represents.name_lt_iff {more : String} (represents : Represents t project name path)
    (represents' : Represents t project (name ++ more) other) :
    path.name < other.name ↔ path.extension < more ++ other.extension := by
  rw [represents.name_eq, represents'.name_eq, String.append_assoc, append_lt_append_iff]

/-- Files are in the order of their names if they are wherever one name is the front of another. -/
theorem Represents.name_lt {name' : String} (represents : Represents t project name path)
    (represents' : Represents t project name' other) (less : name < name')
    (fronts : ∀ more, name' = name ++ more → path.extension < more ++ other.extension) :
    path.name < other.name := by
  by_cases front : ∃ more, name' = name ++ more
  · obtain ⟨more, rfl⟩ := front
    exact (represents.name_lt_iff represents').mpr (fronts more rfl)
  · rw [represents.name_eq, represents'.name_eq]
    exact append_lt_append_of_lt less (not_exists.mp front) _ _

/-- An ending starts with a dot, so that it comes before a text that starts with a later character. -/
theorem IsToolFile.extension_lt (tool : IsToolFile t project path) {more : String} (nonempty : more ≠ "")
    (later : ∀ c ∈ more.toList, '.' < c) (rest : String) : path.extension < more ++ rest := by
  have dotted : ∀ ending ∈ toolExtensions, ending.toList.head? = some '.' := by decide
  obtain ⟨letters, ending⟩ := List.head?_eq_some_iff.mp (dotted _ tool.ending)
  change path.extension.toList < (more ++ rest).toList
  rw [String.toList_append, ending]
  cases text : more.toList with
  | nil => exact absurd (String.toList_inj.mp text) nonempty
  | cons c cs =>
      rw [text] at later
      exact List.cons_lt_cons_iff.mpr (.inl (later c List.mem_cons_self))

/-! ## The tools of a project -/

theorem nodup_keys_tools (t : FileTree) (project : Path) : (tools t project).keys.Nodup := by
  have none : (Entries.keys ([] : Entries String Path)).Nodup := List.nodup_nil
  exact nodup_keys_foldl_addFile none (toolFiles t project)

theorem get?_tools_eq_some_iff :
    (tools t project).get? name = some path ↔ Represents t project name path := by
  rw [← find?_eq_some_iff, tools_eq_foldl, get?_foldl_addFile]
  rfl

theorem mem_tools_iff : (name, path) ∈ tools t project ↔ Represents t project name path := by
  rw [← get?_tools_eq_some_iff]
  exact ⟨Entries.get?_of_mem (nodup_keys_tools t project), Entries.mem_of_get?⟩

theorem mem_keys_tools_iff :
    name ∈ (tools t project).keys ↔ ∃ path, IsToolFile t project path ∧ path.stem = name := by
  constructor
  · intro member
    obtain ⟨⟨_, path⟩, there, rfl⟩ := List.mem_map.mp member
    have represents := mem_tools_iff.mp there
    exact ⟨path, represents.tool, represents.stem⟩
  · rintro ⟨path, tool, rfl⟩
    obtain ⟨other, represents⟩ := exists_represents tool
    exact List.mem_map_of_mem (f := Prod.fst) (mem_tools_iff.mpr represents)

/-- The tools are in the order of their files. -/
theorem pairwise_tools (t : FileTree) (project : Path) :
    (tools t project).Pairwise fun a b => a.2.name < b.2.name := by
  obtain ⟨more, all, sublist⟩ := exists_foldl_addFile [] (toolFiles t project)
  rw [List.nil_append, ← tools_eq_foldl] at all
  have files : ((toolFiles t project).map fun p => (p.stem, p)).Pairwise fun a b =>
      a.2.name ≤ b.2.name := List.pairwise_map.mpr (pairwise_toolFiles t project)
  have order := files.sublist sublist
  rw [← all] at order
  have distinct := List.pairwise_map.mp (nodup_keys_tools t project)
  refine (distinct.and order).imp_of_mem fun {a b} here there both => ?_
  by_contra later
  have represents : Represents t project a.1 a.2 := mem_tools_iff.mp here
  have represents' : Represents t project b.1 b.2 := mem_tools_iff.mp there
  have same := represents.tool.eq_of_name represents'.tool (String.le_antisymm both.2 later)
  exact both.1 (by rw [← represents.stem, ← represents'.stem, same])

/-- The names of tools increase exactly if, wherever one is the front of another, the ending of its file
comes before what follows the front in the name of the other's file. -/
theorem increasing_tools_iff (t : FileTree) (project : Path) :
    (tools t project).keys.Pairwise (· < ·) ↔
      ∀ name more path other, more ≠ "" → Represents t project name path →
        Represents t project (name ++ more) other → path.extension < more ++ other.extension := by
  rw [increasing_iff_agree (nodup_keys_tools t project) (pairwise_tools t project)]
  constructor
  · intro agree name more path other nonempty represents represents'
    rw [← represents.name_lt_iff represents']
    exact agree _ (mem_tools_iff.mpr represents) _ (mem_tools_iff.mpr represents') (lt_append nonempty)
  · rintro fronts ⟨name, path⟩ here ⟨name', other⟩ there less
    have represents := mem_tools_iff.mp here
    have represents' := mem_tools_iff.mp there
    refine represents.name_lt represents' less fun more same => ?_
    have nonempty : more ≠ "" := by
      rintro rfl
      rw [same, String.append_empty] at less
      exact String.lt_irrefl _ less
    exact fronts name more path other nonempty represents (same ▸ represents')

/-- A map lists the tools of a project: each name of a tool file once, with the file that stands for it, in
the order of these files. -/
structure Lists (t : FileTree) (project : Path) (found : Entries String Path) : Prop where
  once : found.keys.Nodup
  names : ∀ name, name ∈ found.keys ↔ ∃ path, IsToolFile t project path ∧ path.stem = name
  files : ∀ name path, (name, path) ∈ found ↔ Represents t project name path
  order : found.Pairwise fun a b => a.2.name < b.2.name

theorem lists_tools (t : FileTree) (project : Path) : Lists t project (tools t project) :=
  ⟨nodup_keys_tools t project, fun _ => mem_keys_tools_iff, fun _ _ => mem_tools_iff,
    pairwise_tools t project⟩

/-- The tools of a project are listed in the order of their files, and each is found by its name.  Their
names increase if no name is the front of another that goes on with what comes before the ending of its
file, and only then. -/
theorem tools_listed (t : FileTree) (project : Path) :
    Lists t project (tools t project) ∧
    (∀ name path, findTool t project name = .ok path ↔ Represents t project name path) ∧
    (∀ name, (∀ path, IsToolFile t project path → path.stem ≠ name) →
      findTool t project name = .error (.unknownTool name (sortTexts (tools t project).keys))) ∧
    ((tools t project).keys.Pairwise (· < ·) ↔
      ∀ name more path other, more ≠ "" → Represents t project name path →
        Represents t project (name ++ more) other → path.extension < more ++ other.extension) ∧
    ((∀ name ∈ (tools t project).keys, ∀ c ∈ name.toList, '.' < c) →
      (tools t project).keys.Pairwise (· < ·)) := by
  have increasing := increasing_tools_iff t project
  refine ⟨lists_tools t project, fun name path => ?_, fun name absent => ?_, increasing, fun later => ?_⟩
  · rw [← get?_tools_eq_some_iff, findTool]
    cases found : (tools t project).get? name <;> simp
  · have unknown : name ∉ (tools t project).keys := fun member =>
      (mem_keys_tools_iff.mp member).elim fun path both => absent path both.1 both.2
    rw [findTool, Entries.get?_eq_none_iff.mpr unknown]
  · refine increasing.mpr fun name more path other nonempty represents represents' => ?_
    have member := mem_keys_tools_iff.mpr ⟨other, represents'.tool, represents'.stem⟩
    have inside := later _ member
    rw [String.toList_append, List.forall_mem_append] at inside
    exact represents.tool.extension_lt nonempty inside.2 other.extension

/-- A folder of tools with a hyphen in one of their names. -/
def hyphened : FileTree where
  entries :=
    [(["tools"], .folder), (["tools", "a-b.yaml"], .file []), (["tools", "a.yaml"], .file [])]

/-- A hyphen comes before the dot of an ending, so that a name with one is listed before its own front. -/
theorem not_increasing_hyphened :
    (tools hyphened {}).keys = ["a-b", "a"] ∧ ¬(tools hyphened {}).keys.Pairwise (· < ·) := by
  have files : toolFiles hyphened {} =
      [(toolFolder {}).child "a-b.yaml", (toolFolder {}).child "a.yaml"] := by
    have names : hyphened.names (toolFolder {}) = ["a-b.yaml", "a.yaml"] := rfl
    rw [toolFiles_of_sorted names (by decide)]
    rfl
  have keys : (tools hyphened {}).keys = ["a-b", "a"] := by
    rw [Project.tools, files]
    decide
  rw [keys]
  exact ⟨rfl, by decide⟩

end Project

end LessonCalc
