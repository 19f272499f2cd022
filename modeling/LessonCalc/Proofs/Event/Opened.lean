import LessonCalc.Proofs.Event.Line
import LessonCalc.Proofs.Files.Beside

/-!
# Logs that are open

Opening a log makes its folders.  From then on a line can be added to each of its files, unless a folder
stands at the place of the file or its name is too long.

* `fileOf`, `locate_fileOf_inj`: the files of a log, each at a place of its own.
* `Opened`: the folders of a log are there.
* `opened_of_ensureFolders`: so they are when a log has been opened.
* `exists_ensureFolders`, `ensureFolders_of_blocked`: this succeeds unless a file stands in the way.
* `Opened.addTo`, `Opened.addTo_of_not_fits`: what adding a line to a file does.
* `Opened.kept`, `keepsFolders_write`: writing to any log keeps the folders, and so a log that is open.
-/

namespace LessonCalc.Log

open LessonCalc.Text

/-! ## Files of a log -/

/-- The folder of a file of the log: of the file of all events, or of the one of a batch. -/
def folderOf (log : Log) : Option String → Path
  | none => log.folder
  | some _ => log.batchFolder

/-- The name of a file of the log. -/
def fileName : Option String → String
  | none => "events.ndjson"
  | some id => id ++ ".ndjson"

/-- A file of the log: that of all events, or the one of a batch. -/
def fileOf (log : Log) (batch : Option String) : Path :=
  (log.folderOf batch).child (fileName batch)

theorem fileOf_none (log : Log) : log.fileOf none = log.globalFile :=
  rfl

theorem fileOf_some (log : Log) (id : String) : log.fileOf (some id) = log.batchFile id :=
  rfl

/-- A file can have the name that is meant for it. -/
def Fits (batch : Option String) : Prop :=
  (fileName batch).utf8ByteSize ≤ FileTree.nameLimit

instance : DecidablePred Fits :=
  fun _ => inferInstanceAs (Decidable (_ ≤ _))

theorem fits_none : Fits none := by
  decide

theorem plain_fileName (batch : Option String) : fileName batch ≠ ".." := by
  cases batch with
  | none => decide
  | some id =>
      intro same
      have length := congrArg String.length same
      rw [fileName, String.length_append] at length
      have long : ".ndjson".length = 7 := rfl
      have short : "..".length = 2 := rfl
      omega

section Places

variable (log : Log) (t : FileTree)

theorem locate_batchFolder : t.locate log.batchFolder = t.locate log.folder ++ ["batches"] :=
  FileTree.locate_child (by decide)

theorem locate_fileOf (batch : Option String) :
    t.locate (log.fileOf batch) = t.locate (log.folderOf batch) ++ [fileName batch] :=
  FileTree.locate_child (plain_fileName batch)

theorem locate_fileOf_ne_nil (batch : Option String) : t.locate (log.fileOf batch) ≠ [] := by
  rw [locate_fileOf]
  exact List.append_ne_nil_of_right_ne_nil _ (List.cons_ne_nil _ _)

/-- A file of a log is below its folder, and not at the place of the folder of batches. -/
theorem exists_locate_fileOf (batch : Option String) :
    ∃ more, t.locate (log.fileOf batch) = t.locate log.folder ++ more ∧ more ≠ [] ∧
      more ≠ ["batches"] := by
  cases batch with
  | none => exact ⟨["events.ndjson"], locate_fileOf log t none, by decide, by decide⟩
  | some id =>
      refine ⟨["batches", id ++ ".ndjson"], ?_, List.cons_ne_nil _ _, by simp⟩
      rw [locate_fileOf, folderOf, locate_batchFolder, List.append_assoc]
      rfl

/-- Different files of a log are at different places. -/
theorem locate_fileOf_inj {batch other : Option String} :
    t.locate (log.fileOf batch) = t.locate (log.fileOf other) ↔ batch = other := by
  refine ⟨fun same => ?_, fun same => same ▸ rfl⟩
  rw [locate_fileOf, locate_fileOf] at same
  obtain ⟨folders, names⟩ := List.append_inj' same rfl
  have apart : t.locate log.folder ≠ t.locate log.batchFolder := by
    rw [locate_batchFolder]
    exact fun same => absurd (congrArg List.length same) (by simp)
  cases batch with
  | none =>
      cases other with
      | none => rfl
      | some _ => exact absurd folders apart
  | some id =>
      cases other with
      | none => exact absurd folders.symm apart
      | some other =>
          have same : id ++ ".ndjson" = other ++ ".ndjson" := List.head_eq_of_cons_eq names
          exact congrArg some (String.append_left_inj _ |>.mp same)

end Places

/-- The bytes of a file; nothing where there is no file. -/
def contentAt : Option FileEntry → Bytes
  | some (.file content) => content
  | _ => []

/-! ## Open logs -/

/-- The folders of a log are there. -/
structure Opened (log : Log) (t : FileTree) : Prop where
  project : ∃ project : Path, log.folder = project.child "logs" ∧ t.find project = .ok .folder
  folder : t.entryAt? (t.locate log.folder) = some .folder
  batches : t.entryAt? (t.locate log.batchFolder) = some .folder

namespace Opened

variable {log : Log} {t t' : FileTree} {batch : Option String} (opened : Opened log t)
include opened

theorem find_project {project : Path} {window : Int} (same : log = ofProject project window) :
    t.find project = .ok .folder := by
  obtain ⟨project', name, there⟩ := opened.project
  have same' : project' = project := by
    rw [← Path.parent_child project' "logs", ← name, same, ofProject, Path.parent_child]
  exact same' ▸ there

theorem find_folder : t.find log.folder = .ok .folder := by
  obtain ⟨project, name, there⟩ := opened.project
  have folder := opened.folder
  rw [name, FileTree.locate_child (by decide)] at folder
  rw [name, FileTree.find_child there (by decide) (by decide), folder]

theorem find_batchFolder : t.find log.batchFolder = .ok .folder := by
  have batches := opened.batches
  rw [locate_batchFolder] at batches
  rw [batchFolder, FileTree.find_child opened.find_folder (by decide) (by decide), batches]

theorem find_folderOf (batch : Option String) : t.find (log.folderOf batch) = .ok .folder := by
  cases batch with
  | none => exact opened.find_folder
  | some _ => exact opened.find_batchFolder

theorem ensureFolders_folder : t.ensureFolders log.folder = (.ok (), t) := by
  obtain ⟨project, name, there⟩ := opened.project
  have folder := opened.folder
  rw [name, FileTree.locate_child (by decide)] at folder
  rw [name]
  exact (FileTree.ensureFolder_of_folder there (by decide) (by decide) folder).2

theorem ensureFolder_batchFolder :
    t.ensureFolder log.batchFolder = .ok t ∧ t.ensureFolders log.batchFolder = (.ok (), t) :=
  FileTree.ensureFolder_of_folder opened.find_folder (by decide) (by decide)
    ((locate_batchFolder log t) ▸ opened.batches)

/-- Opening a log that is there changes nothing. -/
theorem ensureFolders : log.ensureFolders t = (.ok (), t) := by
  rw [Log.ensureFolders, opened.ensureFolders_folder]
  dsimp only
  rw [opened.ensureFolder_batchFolder.1]

theorem ensureFolders_folderOf (batch : Option String) :
    t.ensureFolders (log.folderOf batch) = (.ok (), t) := by
  cases batch with
  | none => exact opened.ensureFolders_folder
  | some _ => exact opened.ensureFolder_batchFolder.2

/-! ## Adding a line -/

/-- A line is added at the end of a file. -/
theorem addTo (fits : Fits batch) (free : t.entryAt? (t.locate (log.fileOf batch)) ≠ some .folder)
    (line : String) :
    Log.addTo t (log.fileOf batch) line =
      (.ok (), t.set (t.locate (log.fileOf batch))
        (.file (contentAt (t.entryAt? (t.locate (log.fileOf batch))) ++ encodeUtf8 line))) := by
  have place := locate_fileOf log t batch
  rw [place] at free ⊢
  have added := FileTree.append_child (opened.find_folderOf batch) (plain_fileName batch) fits free
    (encodeUtf8 line)
  rw [Log.addTo, fileOf, Path.parent_child, opened.ensureFolders_folderOf batch]
  dsimp only
  rw [added]
  cases t.entryAt? (t.locate (log.folderOf batch) ++ [fileName batch]) with
  | none => rfl
  | some entry => cases entry <;> rfl

/-- Where a folder stands at the place of a file, it gets no line. -/
theorem addTo_of_folder (fits : Fits batch)
    (taken : t.entryAt? (t.locate (log.fileOf batch)) = some .folder) (line : String) :
    Log.addTo t (log.fileOf batch) line = (.error ⟨.isFolder, log.fileOf batch⟩, t) := by
  rw [locate_fileOf log t batch] at taken
  have failed := FileTree.update_child_of_folder (opened.find_folderOf batch) (plain_fileName batch) fits
    taken (· ++ encodeUtf8 line)
  rw [Log.addTo, fileOf, Path.parent_child, opened.ensureFolders_folderOf batch]
  dsimp only
  rw [FileTree.append, failed]

/-- A file that cannot have its name gets no line. -/
theorem addTo_of_not_fits (long : ¬Fits batch) (line : String) :
    Log.addTo t (log.fileOf batch) line = (.error ⟨.nameTooLong, log.fileOf batch⟩, t) := by
  have failed := FileTree.append_child_of_long (opened.find_folderOf batch) (Nat.lt_of_not_le long)
    (encodeUtf8 line)
  rw [Log.addTo, fileOf, Path.parent_child, opened.ensureFolders_folderOf batch]
  dsimp only
  rw [failed]

/-! ## Staying open -/

/-- A log stays open as long as the folders stay. -/
theorem kept (keeps : t.KeepsFolders t') : Opened log t' := by
  obtain ⟨project, name, there⟩ := opened.project
  refine ⟨⟨project, name, keeps.find there⟩, ?_, ?_⟩
  · rw [keeps.locate]
    exact keeps.folder _ opened.folder
  · rw [keeps.locate]
    exact keeps.folder _ opened.batches

/-- A log stays open when something else than a folder changes. -/
theorem set {target : List String} {entry : FileEntry} (other : t.entryAt? target ≠ some .folder) :
    Opened log (t.set target entry) :=
  opened.kept (.set other)

end Opened

/-! ## Folders that stay -/

section Folders

variable {log : Log} {t t' : FileTree}

theorem keepsFolders_ensureFolders {result : Except FileError Unit}
    (made : log.ensureFolders t = (result, t')) : t.KeepsFolders t' := by
  unfold Log.ensureFolders at made
  split at made
  next first =>
    cases made
    exact (FileTree.Grown.ensureFolders first).1.keepsFolders
  next first =>
    have outer := (FileTree.Grown.ensureFolders first).1.keepsFolders
    split at made
    next second =>
      cases made
      exact outer.trans (FileTree.Grown.ensureFolder second).1.keepsFolders
    next =>
      cases made
      exact outer

theorem keepsFolders_addTo {p : Path} {line : String} {result : Except FileError Unit}
    (added : addTo t p line = (result, t')) : t.KeepsFolders t' := by
  unfold addTo at added
  split at added
  next way =>
    cases added
    exact (FileTree.Grown.ensureFolders way).1.keepsFolders
  next way =>
    have parent := (FileTree.Grown.ensureFolders way).1.keepsFolders
    split at added
    next made =>
      cases added
      exact parent.trans (.update made)
    next =>
      cases added
      exact parent

/-- Writing an event keeps the folders, whatever comes of it. -/
theorem keepsFolders_write {e : Event} {batch : Option String} {result : Except LogError Unit}
    (written : log.write t e batch = (result, t')) : t.KeepsFolders t' := by
  unfold write at written
  split at written
  next =>
    cases written
    exact .refl t
  next =>
    split at written
    next all =>
      cases written
      exact keepsFolders_addTo all
    next all =>
      have first := keepsFolders_addTo all
      split at written
      next =>
        cases written
        exact first
      next =>
        split at written
        next =>
          split at written
          next own =>
            cases written
            exact first.trans (keepsFolders_addTo own)
          next own =>
            cases written
            exact first.trans (keepsFolders_addTo own)
        next =>
          cases written
          exact first

end Folders

/-- Opening the log of a project makes its folders, and nothing else. -/
theorem opened_of_ensureFolders {t t' : FileTree} {project : Path} {window : Int}
    (done : (ofProject project window).ensureFolders t = (.ok (), t')) :
    Opened (ofProject project window) t' ∧ FileTree.Grown t t' (ofProject project window).batchFolder := by
  unfold Log.ensureFolders at done
  split at done
  next => cases done
  next t₁ first =>
    split at done
    next t₂ second =>
      cases done
      obtain ⟨grown, made⟩ := FileTree.Grown.ensureFolders first
      obtain ⟨grown', made'⟩ := FileTree.Grown.ensureFolder second
      have logs : t'.find (project.child "logs") = .ok .folder := grown'.find (made rfl)
      have there : t'.find project = .ok .folder := by
        rw [← Path.parent_child project "logs"]
        exact (FileTree.find_parent logs).1
      have parent : (ofProject project window).batchFolder.parent = (ofProject project window).folder :=
        Path.parent_child _ _
      refine ⟨⟨⟨project, rfl, there⟩, ?_, ?_⟩, .trans (.of_parent (parent ▸ grown)) grown'⟩
      · exact FileTree.entryAt?_of_find_child there (by decide) logs
      · exact FileTree.entryAt?_of_find_child logs (by decide) made'
    next => cases done

/-! ## Opening in a folder -/

/-- A file stands where a folder of the log of a project has to be. -/
def Blocked (t : FileTree) (project : Path) : Prop :=
  ∃ place ∈ [["logs"], ["logs", "batches"]], ∃ content,
    t.entryAt? (t.locate project ++ place) = some (.file content)

section Project

variable {t : FileTree} {project : Path} (found : t.find project = .ok .folder)
include found

/-- Where no file stands in the way, the log of a project can be opened.  That makes its folders, and adds
no names to any folder but these and that of the project. -/
theorem exists_ensureFolders (free : ¬Blocked t project) (window : Int) :
    ∃ opened, (ofProject project window).ensureFolders t = (.ok (), opened) ∧
      FileTree.SameBeside t opened project "logs" ∧
      ∀ p, t.locate p ≠ t.locate project → t.locate p ≠ t.locate project ++ ["logs"] →
        opened.names p = t.names p := by
  have noFile : ∀ place ∈ [["logs"], ["logs", "batches"]], ∀ content,
      t.entryAt? (t.locate project ++ place) ≠ some (.file content) :=
    fun place member content there => free ⟨place, member, content, there⟩
  obtain ⟨t₁, _, first, logs, added⟩ := FileTree.ensureFolder_of_no_file found (by decide) (by decide)
    (noFile ["logs"] (by simp))
  have place : t₁.locate (project.child "logs") ++ ["batches"] =
      t.locate project ++ ["logs", "batches"] := by
    rw [FileTree.locate_child (by decide), added.locate, ← List.append_cons]
  have inner : t₁.entryAt? (t.locate project ++ ["logs", "batches"]) =
      t.entryAt? (t.locate project ++ ["logs", "batches"]) :=
    added.entryAt?_of_ne (by simp) (by simp)
  have noFile' : ∀ content,
      t₁.entryAt? (t₁.locate (project.child "logs") ++ ["batches"]) ≠ some (.file content) := by
    rw [place, inner]
    exact noFile ["logs", "batches"] (by simp)
  obtain ⟨opened, second, _, _, added'⟩ := FileTree.ensureFolder_of_no_file logs (by decide) (by decide)
    noFile'
  rw [place, ← added.locate project] at added'
  have same := added.sameBeside found
  refine ⟨opened, ?_, same.trans (added'.sameBeside same.found'), fun p apart apart' => ?_⟩
  · rw [ensureFolders, ofProject, first]
    dsimp only [batchFolder]
    rw [second]
  · rw [added'.names_of_ne, added.names_of_ne]
    · rw [List.dropLast_concat]
      exact apart.symm
    · rw [added.locate, added.locate, List.append_cons, List.dropLast_concat]
      exact apart'.symm

/-- Where a file stands in the way, the log of a project cannot be opened. -/
theorem ensureFolders_of_blocked (blocked : Blocked t project) (window : Int) :
    ∃ e t', (ofProject project window).ensureFolders t = (.error e, t') := by
  by_cases outer : ∃ content, t.entryAt? (t.locate project ++ ["logs"]) = some (.file content)
  · obtain ⟨content, taken⟩ := outer
    refine ⟨⟨.taken, project.child "logs"⟩, t, ?_⟩
    rw [ensureFolders, ofProject, (FileTree.ensureFolder_of_file found (by decide) (by decide) taken).2]
  · obtain ⟨t₁, _, first, logs, added⟩ := FileTree.ensureFolder_of_no_file found (by decide) (by decide)
      fun content there => outer ⟨content, there⟩
    obtain ⟨place, member, content, taken⟩ := blocked
    have inner : place = ["logs", "batches"] := by
      simp only [List.mem_cons, List.not_mem_nil, or_false] at member
      rcases member with rfl | inner
      · exact absurd ⟨content, taken⟩ outer
      · exact inner
    have taken' : t₁.entryAt? (t₁.locate (project.child "logs") ++ ["batches"]) = some (.file content) := by
      rw [FileTree.locate_child (by decide), added.locate, ← List.append_cons,
        added.entryAt?_of_ne (by simp) (by simp), ← inner, taken]
    refine ⟨⟨.taken, (project.child "logs").child "batches"⟩, t₁, ?_⟩
    rw [ensureFolders, ofProject, first]
    dsimp only [batchFolder]
    rw [(FileTree.ensureFolder_of_file logs (by decide) (by decide) taken').1]

end Project

end LessonCalc.Log
