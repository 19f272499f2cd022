import LessonCalc.Project.Scaffold
import LessonCalc.Proofs.Files.Folders

/-!
# What a new project leaves of the files

A new project is made in a folder, part by part.  What stands there is met in one of three ways: its
settings keep a project from being made, a file in the place of a folder or a folder in the place of a
file stops the making, and any other file in the place of a part is written over.

* `Part.Blocked`: what stops the making of a part.
* `Laid`: the parts that a tree has over another one, with all else as it was.
* `exists_addPart`, `addParts_laid`: one part is laid over a tree, and so are parts up to the first that is
  blocked.
* `Outcome`, `outcome_scaffold`: how making a new project ends, and with which files.
* `scaffold_keeps`: no file changes but the three that a new project writes over.
-/

namespace LessonCalc.Project

open FileTree

/-! ## Parts -/

namespace Part

/-- The place of a part below the folder of the project. -/
def place : Part → List String
  | folder place => place
  | file place _ => place

/-- What stands at the place of a part when it is made. -/
def entry : Part → FileEntry
  | folder _ => .folder
  | file _ lines => .file (linesContent lines)

/-- Something stands at the place of a part that it cannot replace: a file in the place of a folder, or a
folder in the place of a file. -/
def Blocked (t : FileTree) (base : List String) : Part → Prop
  | folder place => ∃ content, t.entryAt? (base ++ place) = some (.file content)
  | file place _ => t.entryAt? (base ++ place) = some .folder

/-- Why a part that is blocked cannot be made. -/
def fault : Part → FileFault
  | folder _ => .taken
  | file _ _ => .isFolder

/-- A part can be made after others: it has a place of its own, in the folder of the project or in one that
is made before. -/
structure Ready (done : List Part) (part : Part) : Prop where
  inside : part.place ≠ []
  plain : ".." ∉ part.place
  short : (part.place.getLastD "").utf8ByteSize ≤ nameLimit
  parent : part.place.dropLast = [] ∨ folder part.place.dropLast ∈ done
  own : part.place ∉ done.map place

instance (done : List Part) (part : Part) : Decidable (part.Ready done) :=
  decidable_of_iff (part.place ≠ [] ∧ ".." ∉ part.place ∧
      (part.place.getLastD "").utf8ByteSize ≤ nameLimit ∧
      (part.place.dropLast = [] ∨ folder part.place.dropLast ∈ done) ∧ part.place ∉ done.map place)
    ⟨fun ⟨a, b, c, d, e⟩ => ⟨a, b, c, d, e⟩, fun ⟨a, b, c, d, e⟩ => ⟨a, b, c, d, e⟩⟩

/-- Parts can be made one after the other. -/
def Ordered : List Part → List Part → Prop
  | _, [] => True
  | done, part :: rest => part.Ready done ∧ Ordered (done ++ [part]) rest

instance decidableOrdered : (done rest : List Part) → Decidable (Ordered done rest)
  | _, [] => inferInstanceAs (Decidable True)
  | done, part :: rest =>
    haveI := decidableOrdered (done ++ [part]) rest
    inferInstanceAs (Decidable (part.Ready done ∧ Ordered (done ++ [part]) rest))

end Part

theorem ordered_demoParts : Part.Ordered [] demoParts := by
  decide

/-! ## One part -/

theorem placeIn_nil (folder : Path) : placeIn folder [] = folder := by
  rw [placeIn, List.append_nil]

theorem placeIn_append (folder : Path) (front : List String) (name : String) :
    placeIn folder (front ++ [name]) = (placeIn folder front).child name := by
  rw [placeIn, placeIn, Path.child, List.append_assoc]

/-- A tree is another one with something at a place, and all else as it was. -/
structure Put (t t' : FileTree) (place : List String) (entry : FileEntry) : Prop where
  top : t'.top = t.top
  home : t'.home = t.home
  entryAt? : ∀ other, t'.entryAt? other = if other = place then some entry else t.entryAt? other

section Step

variable {t t' t'' : FileTree} {folder : Path} {place : List String} {entry : FileEntry} {part : Part}

theorem put_set (inside : place ≠ []) : Put t (t.set place entry) place entry :=
  ⟨rfl, rfl, fun _ => entryAt?_set inside⟩

theorem put_self (there : t.entryAt? place = some entry) : Put t t place entry := by
  refine ⟨rfl, rfl, fun other => ?_⟩
  split
  next same => rw [same, there]
  next => rfl

section Making

variable {front : List String} {name : String}
  (split : part.place = front ++ [name])
  (located : t.locate (placeIn folder front) = folder.parts ++ front)
  (parent : t.find (placeIn folder front) = .ok .folder)
  (plain : name ≠ "..") (short : name.utf8ByteSize ≤ nameLimit)
include split located parent plain short

/-- A part that is not blocked comes to stand at its place. -/
theorem exists_addPart (free : ¬part.Blocked t folder.parts) :
    ∃ t', addPart t folder part = .ok t' ∧ Put t t' (folder.parts ++ part.place) part.entry := by
  have target : t.locate (placeIn folder front) ++ [name] = folder.parts ++ (front ++ [name]) := by
    rw [located, List.append_assoc]
  have inside : t.locate (placeIn folder front) ++ [name] ≠ [] :=
    List.append_ne_nil_of_right_ne_nil _ (List.cons_ne_nil _ _)
  cases part with
  | folder place =>
      obtain rfl : place = front ++ [name] := split
      rw [addPart, placeIn_append, Part.place, Part.entry, ← target]
      cases there : t.entryAt? (t.locate (placeIn folder front) ++ [name]) with
      | none =>
          obtain ⟨made, _⟩ := ensureFolder_set parent plain short there
          exact ⟨_, made, put_set inside⟩
      | some entry =>
          cases entry with
          | file content => exact absurd ⟨content, target ▸ there⟩ free
          | folder =>
              obtain ⟨kept, _⟩ := ensureFolder_of_folder parent plain short there
              exact ⟨t, kept, put_self there⟩
  | file place lines =>
      obtain rfl : place = front ++ [name] := split
      rw [Part.Blocked, ← target] at free
      rw [addPart, placeIn_append, Part.place, Part.entry, ← target]
      exact ⟨_, update_child parent plain short free fun _ => linesContent lines, put_set inside⟩

/-- A part that is blocked is not made. -/
theorem addPart_of_blocked (blocked : part.Blocked t folder.parts) :
    addPart t folder part = .error ⟨part.fault, placeIn folder part.place⟩ := by
  have target : t.locate (placeIn folder front) ++ [name] = folder.parts ++ (front ++ [name]) := by
    rw [located, List.append_assoc]
  cases part with
  | folder place =>
      obtain rfl : place = front ++ [name] := split
      obtain ⟨content, there⟩ := blocked
      rw [← target] at there
      rw [addPart, Part.place, placeIn_append]
      exact (ensureFolder_of_file parent plain short there).1
  | file place lines =>
      obtain rfl : place = front ++ [name] := split
      rw [Part.Blocked, ← target] at blocked
      rw [addPart, Part.place, placeIn_append]
      exact update_child_of_folder parent plain short blocked _

end Making

/-- Folders stay when a part that is not blocked comes to stand at its place. -/
theorem Put.find (put : Put t t' (folder.parts ++ part.place) part.entry)
    (free : ¬part.Blocked t folder.parts) {q : Path} (there : t.find q = .ok .folder) :
    t'.find q = .ok .folder := by
  have start : t'.start q = t.start q := by
    unfold FileTree.start
    rw [put.home]
  rw [FileTree.find, start]
  refine walk_mono (fun place folder => ?_) there
  rw [put.entryAt?]
  split
  next same =>
    cases part with
    | folder place => rfl
    | file place lines =>
        rw [same] at folder
        exact absurd folder free
  next => exact folder

end Step

/-! ## Parts one after the other -/

/-- A tree is another one with parts of a new project, and all else as it was. -/
structure Laid (folder : Path) (t t' : FileTree) (parts : List Part) : Prop where
  top : t'.top = t.top
  home : t'.home = t.home
  free : ∀ part ∈ parts, ¬part.Blocked t folder.parts
  made : ∀ part ∈ parts, t'.entryAt? (folder.parts ++ part.place) = some part.entry
  found : ∀ place, Part.folder place ∈ parts → t'.find (placeIn folder place) = .ok .folder
  other : ∀ place, (∀ part ∈ parts, place ≠ folder.parts ++ part.place) →
    t'.entryAt? place = t.entryAt? place

namespace Laid

variable {folder : Path} {t t' t'' : FileTree} {done rest : List Part} {part : Part}

theorem nil (folder : Path) (t : FileTree) : Laid folder t t [] :=
  ⟨rfl, rfl, List.forall_mem_nil _, List.forall_mem_nil _, fun _ absent => absurd absent List.not_mem_nil,
    fun _ _ => rfl⟩

/-- At a place there is what was there, or a part. -/
theorem entryAt?_or (laid : Laid folder t t' done) (place : List String) :
    t'.entryAt? place = t.entryAt? place ∨
      ∃ part ∈ done, place = folder.parts ++ part.place ∧ t'.entryAt? place = some part.entry := by
  by_cases own : ∃ part ∈ done, place = folder.parts ++ part.place
  · obtain ⟨part, member, same⟩ := own
    exact .inr ⟨part, member, same, same ▸ laid.made part member⟩
  · exact .inl (laid.other place fun part member same => own ⟨part, member, same⟩)

/-- Folders stay. -/
theorem kept (laid : Laid folder t t' done) {place : List String}
    (there : t.entryAt? place = some .folder) : t'.entryAt? place = some .folder := by
  rcases laid.entryAt?_or place with same | ⟨part, member, same, made⟩
  · rw [same, there]
  · cases part with
    | folder place => exact made
    | file place lines =>
        rw [same] at there
        exact absurd there (laid.free _ member)

theorem find (laid : Laid folder t t' done) {q : Path} (there : t.find q = .ok .folder) :
    t'.find q = .ok .folder := by
  have start : t'.start q = t.start q := by
    unfold FileTree.start
    rw [laid.home]
  rw [FileTree.find, start]
  exact walk_mono (fun _ => laid.kept) there

/-- What is laid does not block a part with a place of its own. -/
theorem blocked_iff (laid : Laid folder t t' done) (own : part.place ∉ done.map Part.place) :
    part.Blocked t' folder.parts ↔ part.Blocked t folder.parts := by
  have same : t'.entryAt? (folder.parts ++ part.place) = t.entryAt? (folder.parts ++ part.place) := by
    refine laid.other _ fun other member same => own ?_
    rw [List.append_cancel_left same]
    exact List.mem_map_of_mem member
  cases part with
  | folder place => rw [Part.Blocked, Part.Blocked]; exact same ▸ Iff.rfl
  | file place lines => rw [Part.Blocked, Part.Blocked]; exact same ▸ Iff.rfl

/-- One more part is laid. -/
theorem put (laid : Laid folder t t' done)
    (put : Put t' t'' (folder.parts ++ part.place) part.entry) (made : addPart t' folder part = .ok t'')
    (own : part.place ∉ done.map Part.place) (free : ¬part.Blocked t folder.parts) :
    Laid folder t t'' (done ++ [part]) := by
  have free' : ¬part.Blocked t' folder.parts := fun blocked => free ((laid.blocked_iff own).mp blocked)
  refine ⟨put.top.trans laid.top, put.home.trans laid.home, ?_, ?_, ?_, ?_⟩
  · exact List.forall_mem_append.mpr ⟨laid.free, List.forall_mem_singleton.mpr free⟩
  · refine List.forall_mem_append.mpr ⟨fun other member => ?_, List.forall_mem_singleton.mpr ?_⟩
    · have apart : folder.parts ++ other.place ≠ folder.parts ++ part.place := by
        intro same
        apply own
        rw [← List.append_cancel_left same]
        exact List.mem_map_of_mem member
      rw [put.entryAt?, if_neg apart, laid.made other member]
    · rw [put.entryAt?, if_pos rfl]
  · intro place member
    rcases List.mem_append.mp member with member | last
    · exact put.find free' (laid.found place member)
    · obtain rfl := List.mem_singleton.mp last
      exact (Grown.ensureFolder made).2
  · intro place apart
    rw [put.entryAt?, if_neg (apart part (List.mem_append_right _ List.mem_cons_self))]
    exact laid.other place fun other member => apart other (List.mem_append_left _ member)

end Laid

section Run

variable {folder : Path} {t t' : FileTree} {done rest : List Part} {part : Part} {top : String}
  (fromTop : folder.top? = some top) (plain : ".." ∉ folder.parts)
  (base : t.find folder = .ok .folder)
include fromTop plain

theorem locate_placeIn (t : FileTree) {front : List String} (inner : ".." ∉ front) :
    t.locate (placeIn folder front) = folder.parts ++ front := by
  have plainBoth : ".." ∉ (placeIn folder front).parts := by
    rw [placeIn, List.mem_append, not_or]
    exact ⟨plain, inner⟩
  exact locate_of_plain (p := placeIn folder front) fromTop plainBoth

include base

/-- A part that is ready is made over those that are laid, unless it is blocked. -/
theorem addPart_laid (laid : Laid folder t t' done) (ready : part.Ready done) :
    (part.Blocked t folder.parts ∧
        addPart t' folder part = .error ⟨part.fault, placeIn folder part.place⟩) ∨
      ∃ t'', addPart t' folder part = .ok t'' ∧ Laid folder t t'' (done ++ [part]) := by
  have split : part.place = part.place.dropLast ++ [part.place.getLastD ""] := by
    rw [List.getLastD_eq_getLast?, List.getLast?_eq_some_getLast ready.inside, Option.getD_some,
      List.dropLast_concat_getLast ready.inside]
  generalize name_eq : part.place.getLastD "" = name at split
  generalize front_eq : part.place.dropLast = front at split
  have short := ready.short
  have parent' := ready.parent
  rw [name_eq] at short
  rw [front_eq] at parent'
  have plainParts := ready.plain
  rw [split, List.mem_append, List.mem_singleton, not_or] at plainParts
  have down : name ≠ ".." := Ne.symm plainParts.2
  have located : ∀ t : FileTree, t.locate (placeIn folder front) = folder.parts ++ front :=
    fun t => locate_placeIn fromTop plain t plainParts.1
  have parent : t'.find (placeIn folder front) = .ok .folder := by
    rcases parent' with top | before
    · rw [top, placeIn_nil]
      exact laid.find base
    · exact laid.found front before
  by_cases blocked : part.Blocked t folder.parts
  · have blocked' := (laid.blocked_iff ready.own).mpr blocked
    exact .inl ⟨blocked, addPart_of_blocked split (located t') parent down short blocked'⟩
  · have free := fun blocked' => blocked ((laid.blocked_iff ready.own).mp blocked')
    obtain ⟨t'', made, put⟩ := exists_addPart split (located t') parent down short free
    exact .inr ⟨t'', made, laid.put put made ready.own blocked⟩

/-- Parts are made in order, up to the first that is blocked. -/
theorem addParts_laid (laid : Laid folder t t' done) (ordered : Part.Ordered done rest) :
    (∃ t'', addParts folder t' rest = (.ok (), t'') ∧ Laid folder t t'' (done ++ rest)) ∨
      ∃ before part after t'', rest = before ++ part :: after ∧
        addParts folder t' rest = (.error ⟨part.fault, placeIn folder part.place⟩, t'') ∧
        Laid folder t t'' (done ++ before) ∧ part.Blocked t folder.parts := by
  induction rest generalizing done t' with
  | nil =>
      refine .inl ⟨t', rfl, ?_⟩
      rw [List.append_nil]
      exact laid
  | cons part rest ih =>
      obtain ⟨ready, later⟩ := ordered
      rcases addPart_laid fromTop plain base laid ready with ⟨blocked, failed⟩ | ⟨t'', made, laid'⟩
      · refine .inr ⟨[], part, rest, t', rfl, ?_, ?_, blocked⟩
        · rw [addParts, failed]
        · rw [List.append_nil]
          exact laid
      · rw [addParts, made]
        rcases ih laid' later with ⟨last, all, laid''⟩ | ⟨before, stop, after, last, rfl, failed, laid'', blocked⟩
        · rw [List.append_assoc] at laid''
          exact .inl ⟨last, all, laid''⟩
        · rw [List.append_assoc] at laid''
          exact .inr ⟨part :: before, stop, after, last, rfl, failed, laid'', blocked⟩

end Run

/-! ## A new project -/

/-- The files that a new project writes over, below its folder. -/
def replacedPlaces : List (List String) :=
  [["tools", "profit.yaml"], ["tools", "pricing.yaml"], ["inputs", "profit_sweep.csv"]]

/-- The folder of a new project is there, without settings, and nothing else is new. -/
structure Bare (t t' : FileTree) (folder : Path) : Prop where
  grown : Grown t t' folder
  found : t'.find folder = .ok .folder
  absent : t'.contains (Settings.file folder) = false

/-- How making a new project in a folder ends, and with which files. -/
inductive Outcome (t : FileTree) (folder : Path) : Except ProjectError Path → FileTree → Prop
  /-- There is a project: nothing changes. -/
  | there : t.contains (Settings.file folder) = true →
      Outcome t folder (.error (.settingsThere folder)) t
  /-- A file stands on the way to the folder, or in its place: nothing changes. -/
  | noWay {fault : FileFault} : t.contains (Settings.file folder) = false → Obstacle t folder fault →
      Outcome t folder (.error (.file ⟨fault, folder⟩)) t
  /-- A name on the way to the folder is too long: the folders before it are made and stay. -/
  | longName {e : FileError} {t' : FileTree} : t.contains (Settings.file folder) = false →
      e.fault = .nameTooLong → StopsAtLongName t t' folder → Outcome t folder (.error (.file e)) t'
  /-- A part is blocked: those before it stay, and the settings are among them. -/
  | blocked {t₁ t' : FileTree} {before after : List Part} {part : Part} :
      t.contains (Settings.file folder) = false → Bare t t₁ folder →
      demoParts = before ++ part :: after → Laid folder t₁ t' before →
      t'.contains (Settings.file folder) = true → part.Blocked t folder.parts →
      Outcome t folder (.error (.file ⟨part.fault, placeIn folder part.place⟩)) t'
  /-- All parts are made. -/
  | made {t₁ t' : FileTree} : t.contains (Settings.file folder) = false → Bare t t₁ folder →
      Laid folder t₁ t' demoParts → Outcome t folder (.ok folder) t'

section Scaffold

variable {t t' : FileTree} {folder target : Path}

theorem contains_iff {p : Path} : t.contains p = true ↔ ∃ entry, t.find p = .ok entry := by
  unfold FileTree.contains
  split
  next entry found => exact ⟨fun _ => ⟨entry, found⟩, fun _ => rfl⟩
  next fault lost => simp [lost]

/-- Where there is a project, none is made. -/
theorem scaffold_of_contains (there : t.contains (Settings.file (t.resolve target)) = true) :
    scaffold t target = (.error (.settingsThere (t.resolve target)), t) := by
  obtain ⟨entry, found⟩ := contains_iff.mp there
  obtain ⟨parent, _⟩ := find_parent found
  rw [Settings.file, Path.parent_child] at parent
  have fromTop : (t.resolve target).top? = some t.top := rfl
  have opened : t.ensureFolders (t.resolve target) = (.ok (), t) :=
    ensureFolders_of_folder fromTop parent
  simp only [scaffold, opened, there, if_true]

/-- In a folder that is there, settings are there if something stands at their place. -/
theorem contains_settings_iff {top : String} (fromTop : folder.top? = some top)
    (plain : ".." ∉ folder.parts) (base : t.find folder = .ok .folder) :
    t.contains (Settings.file folder) = true ↔
      ∃ entry, t.entryAt? (folder.parts ++ ["calcblocks.yaml"]) = some entry := by
  have named : "calcblocks.yaml" ≠ ".." := by decide
  have found := find_child base named (by decide)
  rw [locate_of_plain fromTop plain] at found
  rw [contains_iff, Settings.file, found]
  cases t.entryAt? (folder.parts ++ ["calcblocks.yaml"]) <;> simp

/-- Making the folder of a project makes no settings. -/
theorem contains_of_ensureFolders {top : String} (formed : t.WellFormed)
    (fromTop : folder.top? = some top) (plain : ".." ∉ folder.parts)
    (opened : t.ensureFolders folder = (.ok (), t'))
    (absent : t.contains (Settings.file folder) = false) :
    t'.contains (Settings.file folder) = false := by
  obtain ⟨grown, base⟩ := Grown.ensureFolders opened
  apply Bool.eq_false_iff.mpr
  intro there
  obtain ⟨entry, there⟩ := (contains_settings_iff fromTop plain (base rfl)).mp there
  rw [grown.entryAt?_below fromTop plain (List.cons_ne_nil _ _)] at there
  have before : t.entryAt? (t.locate folder) = some .folder := by
    rw [locate_of_plain fromTop plain]
    exact formed.inFolder _ _ _ there
  obtain rfl := formed.ensureFolders_of_entryAt? fromTop plain before opened
  have contains := (contains_settings_iff fromTop plain (base rfl)).mpr ⟨entry, there⟩
  rw [absent] at contains
  cases contains

theorem Part.blocked_of_grown {top : String} {part : Part} (fromTop : folder.top? = some top)
    (plain : ".." ∉ folder.parts) (grown : Grown t t' folder) (inside : part.place ≠ [])
    (blocked : part.Blocked t' folder.parts) : part.Blocked t folder.parts := by
  have same := grown.entryAt?_below fromTop plain inside
  cases part with
  | folder place =>
      obtain ⟨content, there⟩ := blocked
      exact ⟨content, same ▸ there⟩
  | file place lines =>
      rw [Part.Blocked] at blocked ⊢
      exact same ▸ blocked

theorem scaffold_of_not_opened {e : FileError}
    (opened : t.ensureFolders (t.resolve target) = (.error e, t')) :
    scaffold t target = (.error (.file e), t') := by
  simp only [scaffold, opened]

theorem scaffold_of_opened (opened : t.ensureFolders (t.resolve target) = (.ok (), t'))
    (absent : t'.contains (Settings.file (t.resolve target)) = false) :
    scaffold t target = match addParts (t.resolve target) t' demoParts with
      | (.error e, last) => (.error (.file e), last)
      | (.ok (), last) => (.ok (t.resolve target), last) := by
  unfold scaffold
  dsimp only
  rw [opened]
  dsimp only
  rw [absent]
  exact if_neg Bool.false_ne_true

theorem demoParts_inside : ∀ part ∈ demoParts, part.place ≠ [] := by
  decide

/-- In a well-formed tree, making a new project ends in one of the ways told. -/
theorem outcome_scaffold (formed : t.WellFormed) (target : Path) :
    Outcome t (t.resolve target) (scaffold t target).1 (scaffold t target).2 := by
  cases there : t.contains (Settings.file (t.resolve target)) with
  | true =>
      rw [scaffold_of_contains there]
      exact .there there
  | false =>
      have fromTop : (t.resolve target).top? = some t.top := rfl
      have plain : ".." ∉ (t.resolve target).parts := formed.plain_locate target
      rcases opened : t.ensureFolders (t.resolve target) with ⟨result, t₁⟩
      obtain ⟨grown, base⟩ := Grown.ensureFolders opened
      cases result with
      | error e =>
          rw [scaffold_of_not_opened opened]
          rcases formed.ensureFoldersFrom_error fromTop plain (Nat.lt_succ_self _) opened with
            ⟨rfl, path, obstacle⟩ | ⟨long, stops⟩
          · obtain ⟨fault, _⟩ := e
            cases path
            exact .noWay there obstacle
          · exact .longName there long stops
      | ok _ =>
          have absent := contains_of_ensureFolders formed fromTop plain opened there
          have bare : Bare t t₁ (t.resolve target) := ⟨grown, base rfl, absent⟩
          rw [scaffold_of_opened opened absent]
          rcases addParts_laid fromTop plain (base rfl) (Laid.nil _ t₁) ordered_demoParts with
            ⟨t', all, laid⟩ | ⟨before, part, after, t', parts, failed, laid, blocked⟩
          · rw [all]
            dsimp only
            exact .made there bare laid
          · rw [failed]
            dsimp only
            have member : part ∈ demoParts := by simp [parts]
            have blocked' := Part.blocked_of_grown fromTop plain grown (demoParts_inside part member) blocked
            refine .blocked there bare parts laid ?_ blocked'
            -- The settings come first, and nothing stands at their place.
            cases before with
            | nil =>
                cases parts
                have taken := (contains_settings_iff fromTop plain (base rfl)).mpr ⟨_, blocked⟩
                rw [absent] at taken
                cases taken
            | cons first before =>
                have settings := laid.made first List.mem_cons_self
                obtain rfl := List.head_eq_of_cons_eq parts
                exact (contains_settings_iff fromTop plain (laid.find (base rfl))).mpr ⟨_, settings⟩

/-- A part of a new project is a folder, its settings or a file that it may write over. -/
theorem cases_demoParts : ∀ part ∈ demoParts, part = .folder part.place ∨
    part.place = ["calcblocks.yaml"] ∨ part.place ∈ replacedPlaces := by
  decide

/-- What became of a file: it is as it was, or a new project has written over it. -/
def KeepsOrReplaces (t' : FileTree) (folder : Path) (place : List String) (content : Bytes) : Prop :=
  t'.entryAt? place = some (.file content) ∨
    ∃ part ∈ demoParts, part.place ∈ replacedPlaces ∧ place = folder.parts ++ part.place ∧
      t'.entryAt? place = some part.entry

/-- A file changes only if a part is laid over it, and then it is one that a new project writes over. -/
theorem Bare.file {top : String} {t₁ : FileTree} {parts : List Part} (bare : Bare t t₁ folder)
    (fromTop : folder.top? = some top) (plain : ".." ∉ folder.parts)
    (laid : Laid folder t₁ t' parts) (known : ∀ part ∈ parts, part ∈ demoParts) {place : List String}
    {content : Bytes} (there : t.entryAt? place = some (.file content)) :
    KeepsOrReplaces t' folder place content := by
  have kept := bare.grown.kept there
  rcases laid.entryAt?_or place with same | ⟨part, member, same, made⟩
  · exact .inl (same.trans kept)
  · refine .inr ⟨part, known part member, ?_, same, made⟩
    rcases cases_demoParts part (known part member) with isFolder | settings | replaced
    · have free := laid.free part member
      rw [isFolder] at free
      exact absurd ⟨content, same ▸ kept⟩ free
    · rw [same, settings] at kept
      have taken := (contains_settings_iff fromTop plain bare.found).mpr ⟨_, kept⟩
      rw [bare.absent] at taken
      cases taken
    · exact replaced

namespace Outcome

variable {result : Except ProjectError Path} (outcome : Outcome t folder result t')
include outcome

/-- However it ends, paths lead to the same places. -/
theorem resolve (q : Path) : t'.resolve q = t.resolve q := by
  have same : t'.top = t.top ∧ t'.home = t.home := by
    cases outcome with
    | there _ => exact ⟨rfl, rfl⟩
    | noWay _ _ => exact ⟨rfl, rfl⟩
    | longName _ _ stops =>
        obtain ⟨_, _, _, _, _, _, grown⟩ := stops
        exact ⟨grown.top, grown.home⟩
    | blocked _ bare _ laid _ _ =>
        exact ⟨laid.top.trans bare.grown.top, laid.home.trans bare.grown.home⟩
    | made _ bare laid => exact ⟨laid.top.trans bare.grown.top, laid.home.trans bare.grown.home⟩
  unfold FileTree.resolve FileTree.locate FileTree.start
  rw [same.1, same.2]

/-- No file changes but those that a new project writes over, and these not where there is one. -/
theorem file {top : String} (fromTop : folder.top? = some top) (plain : ".." ∉ folder.parts)
    {place : List String} {content : Bytes} (there : t.entryAt? place = some (.file content)) :
    KeepsOrReplaces t' folder place content ∧
      (t.contains (Settings.file folder) = true → t'.entryAt? place = some (.file content)) := by
  cases outcome with
  | there _ => exact ⟨.inl there, fun _ => there⟩
  | noWay _ _ => exact ⟨.inl there, fun _ => there⟩
  | longName _ _ stops =>
      obtain ⟨_, _, _, _, _, _, grown⟩ := stops
      exact ⟨.inl (grown.kept there), fun _ => grown.kept there⟩
  | @blocked _ _ before after part absent bare parts laid _ _ =>
      have known : ∀ other ∈ before, other ∈ demoParts := by
        intro other member
        rw [parts]
        exact List.mem_append_left _ member
      refine ⟨bare.file fromTop plain laid known there, fun contains => ?_⟩
      rw [absent] at contains
      cases contains
  | made absent bare laid =>
      refine ⟨bare.file fromTop plain laid (fun _ member => member) there, fun contains => ?_⟩
      rw [absent] at contains
      cases contains

end Outcome

/-- Making a new project in a well-formed tree ends in one of the ways told.  No file changes but the
three that a new project writes over, and these only where there are no settings; once there are
settings, trying again changes nothing. -/
theorem scaffold_keeps (t : FileTree) (target : Path) (formed : t.WellFormed) :
    Outcome t (t.resolve target) (scaffold t target).1 (scaffold t target).2 ∧
      (∀ place content, t.entryAt? place = some (.file content) →
        KeepsOrReplaces (scaffold t target).2 (t.resolve target) place content ∧
          (t.contains (Settings.file (t.resolve target)) = true →
            (scaffold t target).2.entryAt? place = some (.file content))) ∧
      ((scaffold t target).2.contains (Settings.file (t.resolve target)) = true →
        scaffold (scaffold t target).2 target =
          (.error (.settingsThere (t.resolve target)), (scaffold t target).2)) := by
  have outcome := outcome_scaffold formed target
  have fromTop : (t.resolve target).top? = some t.top := rfl
  have plain : ".." ∉ (t.resolve target).parts := formed.plain_locate target
  refine ⟨outcome, fun place content there => ?_, fun again => ?_⟩
  · exact outcome.file fromTop plain there
  · rw [← outcome.resolve target] at again ⊢
    exact scaffold_of_contains again

end Scaffold

/-- A folder with a tool of its own, and without settings. -/
def ownTool : FileTree :=
  { entries := [(["tools"], .folder), (["tools", "profit.yaml"], .file [109])] }

/-- A folder with a file in the place of the tools. -/
def fileOfTools : FileTree :=
  { entries := [(["tools"], .file [])] }

theorem scaffold_keeps_beside :
    let t : FileTree := { ownTool with entries := ownTool.entries ++ [(["notes"], .file [110])] }
    t.WellFormed ∧ t.entryAt? ["notes"] = some (.file [110]) ∧
      KeepsOrReplaces (scaffold t {}).2 (t.resolve {}) ["notes"] [110] := by
  intro t
  have formed : t.WellFormed := wellFormed_of_forall (by decide) (by decide)
  have there : t.entryAt? ["notes"] = some (.file [110]) := by decide
  exact ⟨formed, there, ((scaffold_keeps t {} formed).2.1 _ _ there).1⟩

/-- A file of lines holds a line feed. -/
theorem mem_linesContent {lines : List String} (nonempty : lines ≠ []) : 0x0A ∈ linesContent lines := by
  obtain ⟨line, rest, rfl⟩ := List.exists_cons_of_ne_nil nonempty
  have feed : '\n' ∈ (String.join ((line :: rest).map (· ++ "\n"))).toList := by
    rw [String.toList_join]
    simp
  exact List.mem_flatMap.mpr ⟨'\n', feed, by decide⟩

/-- A tool of one's own is written over; and where the tools cannot be made, the settings stay, so that
there is no second try. -/
theorem scaffold_not_harmless :
    (ownTool.WellFormed ∧ ownTool.entryAt? ["tools", "profit.yaml"] = some (.file [109]) ∧
      (scaffold ownTool {}).2.entryAt? ["tools", "profit.yaml"] ≠ some (.file [109])) ∧
    fileOfTools.WellFormed ∧
      (scaffold fileOfTools {}).1 = .error (.file ⟨.taken, ⟨some "", ["tools"]⟩⟩) ∧
      (scaffold fileOfTools {}).2 ≠ fileOfTools ∧
      (scaffold ((scaffold fileOfTools {}).2.remove { parts := ["tools"] }) {}).1 =
        .error (.settingsThere ⟨some "", []⟩) := by
  refine ⟨⟨wellFormed_of_forall (by decide) (by decide), by decide, ?_⟩,
    wellFormed_of_forall (by decide) (by decide), rfl, ?_, rfl⟩
  · have written : (scaffold ownTool {}).2.entryAt? ["tools", "profit.yaml"] =
        some (.file (linesContent demoProfitTool)) := rfl
    intro same
    rw [written] at same
    have lines : demoProfitTool ≠ [] := List.cons_ne_nil _ _
    have feed := mem_linesContent lines
    rw [FileEntry.file.inj (Option.some.inj same)] at feed
    exact absurd feed (by decide)
  · intro same
    have settings : (scaffold fileOfTools {}).2.entryAt? ["calcblocks.yaml"] ≠ none := by decide
    rw [same] at settings
    exact settings rfl

end LessonCalc.Project
