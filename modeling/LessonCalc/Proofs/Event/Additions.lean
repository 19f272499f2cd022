import LessonCalc.Proofs.Event.Opened

/-!
# Additions to a log

Writing an event adds its line to one file or to two, one after the other.  An addition changes one file
of the log, at its end, or none at all.

* `Addition`, `write_eq_performAll`: the additions that writing an event consists of.
* `Keeps`: the files of a log hold the records of given events and nothing else.
* `Keeps.perform`: what an addition does to such a log.
* `Keeps.readFile`: what is read from such a log.
* `Fresh.keeps`: opening the log of a fresh project gives one without events.
-/

namespace LessonCalc.Log

open LessonCalc.Text

/-! ## Additions -/

/-- An addition to a log: an event, and the batch to whose file its line is added, or else to the file of
all events. -/
structure Addition where
  event : Event
  batch : Option String

/-- Makes an addition. -/
def perform (log : Log) (t : FileTree) (a : Addition) : Except LogError Unit × FileTree :=
  match lineOf a.event with
  | .error fault => (.error (.noLine fault), t)
  | .ok line =>
    match addTo t (log.fileOf a.batch) line with
    | (.error e, t) => (.error (.file e), t)
    | (.ok (), t) => (.ok (), t)

/-- Makes additions one after the other, up to the first that cannot be made. -/
def performAll (log : Log) : FileTree → List Addition → Except LogError Unit × FileTree
  | t, [] => (.ok (), t)
  | t, a :: more =>
    match log.perform t a with
    | (.error e, t) => (.error e, t)
    | (.ok (), t) => log.performAll t more

/-- The additions of an event: among all, and among those of its batch if the id of that is safe. -/
def additions (e : Event) (batch : Option String) : List Addition :=
  ⟨e, none⟩ ::
    match batch with
    | some id => if isSafeId id then [⟨e, some id⟩] else []
    | none => []

/-- Writing an event makes its additions. -/
theorem write_eq_performAll (log : Log) (t : FileTree) (e : Event) (batch : Option String) :
    log.write t e batch = log.performAll t (additions e batch) := by
  cases written : lineOf e with
  | error fault => simp only [write, additions, performAll, perform, written]
  | ok line =>
      simp only [write, additions, performAll, perform, written, fileOf_none]
      obtain ⟨result, t'⟩ := addTo t log.globalFile line
      cases result with
      | error e => rfl
      | ok _ =>
          cases batch with
          | none => rfl
          | some id =>
              by_cases safe : isSafeId id = true
              · simp only [if_pos safe, performAll, perform, written, fileOf_some]
                obtain ⟨result, t''⟩ := addTo t' (log.batchFile id) line
                cases result <;> rfl
              · simp only [if_neg safe, performAll]

/-! ## What a log keeps -/

/-- What stands at the place of a file in which events are recorded; nothing before the first of them. -/
def recorded : List Event → Option FileEntry
  | [] => none
  | e :: events => some (.file ((e :: events).flatMap Event.record))

/-- The folders of a log are there, and each of its files holds the records of the given events. -/
structure Keeps (log : Log) (t : FileTree) (events : Option String → List Event) : Prop where
  project : ∃ project : Path, log.folder = project.child "logs" ∧ t.find project = .ok .folder
  folder : t.entryAt? (t.locate log.folder) = some .folder
  batches : t.entryAt? (t.locate log.batchFolder) = some .folder
  file : ∀ batch, t.entryAt? (t.locate (log.fileOf batch)) = recorded (events batch)

theorem recorded_append (events : List Event) (e : Event) :
    recorded (events ++ [e]) = some (.file (events.flatMap Event.record ++ e.record)) := by
  rw [← List.flatMap_singleton Event.record e, ← List.flatMap_append]
  cases events <;> rfl

theorem recorded_ne_folder (events : List Event) : recorded events ≠ some .folder := by
  cases events <;> exact fun same => by cases same

namespace Keeps

variable {log : Log} {t : FileTree} {events : Option String → List Event} (keeps : Keeps log t events)
include keeps

theorem opened : Opened log t :=
  ⟨keeps.project, keeps.folder, keeps.batches⟩

/-! ## One addition -/

/-- A line is added at the end of a file. -/
theorem addTo_fileOf {batch : Option String} (fits : Fits batch) (e : Event) :
    addTo t (log.fileOf batch) (e.logged.line ++ "\n") =
      (.ok (), t.set (t.locate (log.fileOf batch))
        (.file ((events batch).flatMap Event.record ++ e.record))) := by
  have file := keeps.file batch
  have free : t.entryAt? (t.locate (log.fileOf batch)) ≠ some .folder := file ▸ recorded_ne_folder _
  rw [keeps.opened.addTo fits free, file]
  cases events batch <;> rfl

/-- After one more record at the end of a file the log keeps one more event. -/
theorem set (batch : Option String) (e : Event) :
    Keeps log
      (t.set (t.locate (log.fileOf batch)) (.file ((events batch).flatMap Event.record ++ e.record)))
      (Function.update events batch (events batch ++ [e])) := by
  have inside := locate_fileOf_ne_nil log t batch
  have other : t.entryAt? (t.locate (log.fileOf batch)) ≠ some .folder :=
    keeps.file batch ▸ recorded_ne_folder _
  obtain ⟨project, folder, batches⟩ := keeps.opened.set other
  refine ⟨project, folder, batches, fun batch' => ?_⟩
  rw [FileTree.locate_set, FileTree.entryAt?_set inside]
  simp only [locate_fileOf_inj]
  by_cases same : batch' = batch
  · rw [if_pos same, same, Function.update_self, recorded_append]
  · rw [if_neg same, Function.update_of_ne same, keeps.file]

end Keeps

/-- An addition can be made: its event has a line, and its file can have its name. -/
def Addition.Lands (a : Addition) : Prop :=
  a.event.Writable ∧ Fits a.batch

instance : DecidablePred Addition.Lands :=
  fun _ => inferInstanceAs (Decidable (_ ∧ _))

namespace Keeps

variable {log : Log} {t : FileTree} {events : Option String → List Event} (keeps : Keeps log t events)
include keeps

/-- An addition that can be made adds its event to those of its file. -/
theorem perform {a : Addition} (lands : a.Lands) :
    ∃ t', log.perform t a = (.ok (), t') ∧
      Keeps log t' (Function.update events a.batch (events a.batch ++ [a.event])) := by
  refine ⟨_, ?_, keeps.set a.batch a.event⟩
  rw [Log.perform, lineOf_of_writable lands.1]
  dsimp only
  rw [keeps.addTo_fileOf lands.2]

/-- An addition that cannot be made leaves the log as it is. -/
theorem perform_of_not_lands {a : Addition} (stays : ¬a.Lands) :
    ∃ error, log.perform t a = (.error error, t) := by
  by_cases writable : a.event.Writable
  · have long : ¬Fits a.batch := fun fits => stays ⟨writable, fits⟩
    refine ⟨.file ⟨.nameTooLong, log.fileOf a.batch⟩, ?_⟩
    rw [Log.perform, lineOf_of_writable writable]
    dsimp only
    rw [keeps.opened.addTo_of_not_fits long]
  · obtain ⟨fault, none⟩ := lineOf_of_not_writable writable
    refine ⟨.noLine fault, ?_⟩
    rw [Log.perform, none]

/-! ## Reading -/

/-- What a file of the log holds, if there is one. -/
theorem find_fileOf {batch : Option String} (fits : Fits batch) :
    t.find (log.fileOf batch) =
      match recorded (events batch) with
      | some entry => .ok entry
      | none => .error .notFound := by
  rw [← keeps.file, locate_fileOf]
  exact FileTree.find_child (keeps.opened.find_folderOf batch) (plain_fileName batch) fits

/-- A file that cannot have its name is not read. -/
theorem read_fileOf_of_not_fits {batch : Option String} (long : ¬Fits batch) :
    t.read (log.fileOf batch) = .error ⟨.nameTooLong, log.fileOf batch⟩ := by
  have lost := FileTree.find_child_of_long (keeps.opened.find_folderOf batch) (plain_fileName batch)
    (Nat.lt_of_not_le long)
  rw [FileTree.read, fileOf, lost]

/-- A file of the log holds records, one after the other. -/
theorem read_fileOf {batch : Option String} {content : Bytes}
    (read : t.read (log.fileOf batch) = .ok content) :
    content = (events batch).flatMap Event.record := by
  by_cases fits : Fits batch
  · rw [FileTree.read, keeps.find_fileOf fits] at read
    cases same : events batch with
    | nil =>
        rw [same] at read
        cases read
    | cons e rest =>
        rw [same] at read
        exact (Except.ok.inj read).symm
  · rw [keeps.read_fileOf_of_not_fits fits] at read
    cases read

/-- A file of the log is read as the events whose records it holds. -/
theorem readFile {batch : Option String} (fits : Fits batch)
    (each : ∀ e ∈ events batch, e.toJson.Holds Json.Sound ∧ e.Writable)
    (short : ∀ content, t.read (log.fileOf batch) = .ok content → (content.length : Int) ≤ log.window) :
    log.readFile t (log.fileOf batch) =
      .ok ((events batch).map fun e => Json.sorted e.toJson) := by
  have found := keeps.find_fileOf fits
  unfold Log.readFile
  cases read : t.read (log.fileOf batch) with
  | ok content =>
      have length := short content read
      obtain rfl := keeps.read_fileOf read
      exact readBytes_records _ each length
  | error e =>
      rw [FileTree.read, found] at read
      cases same : events batch with
      | nil =>
          rw [same] at read
          cases read
          rfl
      | cons _ _ =>
          rw [same] at read
          cases read

end Keeps

/-! ## Opening a log -/

/-- A project whose folder is there, with nothing at the place of its log or below. -/
structure Fresh (t : FileTree) (project : Path) : Prop where
  folder : t.find project = .ok .folder
  nothing : ∀ place, t.locate project ++ ["logs"] <+: place → t.entryAt? place = none

/-- Opening the log of a fresh project makes its folders, and no events are in it. -/
theorem Fresh.keeps {t : FileTree} {project : Path} (fresh : Fresh t project) (window : Int) :
    ∃ t', (ofProject project window).ensureFolders t = (.ok (), t') ∧
      Keeps (ofProject project window) t' fun _ => [] := by
  have folder : t.locate (ofProject project window).folder = t.locate project ++ ["logs"] :=
    FileTree.locate_child (by decide)
  have nothing : ∀ more, t.entryAt? (t.locate (ofProject project window).folder ++ more) = none :=
    fun more => fresh.nothing _ (folder ▸ List.prefix_append _ _)
  obtain ⟨t₁, -, first, made⟩ := FileTree.ensureFolder_of_free fresh.folder
    (by decide : "logs" ≠ "..") (by decide) (fresh.nothing _ (List.prefix_refl _))
  have free : t₁.entryAt? (t₁.locate (ofProject project window).folder ++ ["batches"]) = none := by
    rw [made.locate, made.entryAt?, nothing, ofProject, if_neg (by simp)]
  obtain ⟨t₂, second, -, made'⟩ := FileTree.ensureFolder_of_free made.found
    (by decide : "batches" ≠ "..") (by decide) free
  have entries : ∀ p, t₂.entryAt? (t₂.locate p) =
      if t.locate p = t.locate (ofProject project window).batchFolder then some .folder
      else if t.locate p = t.locate (ofProject project window).folder then some .folder
      else t.entryAt? (t.locate p) := by
    intro p
    rw [made'.locate, made.locate, made'.entryAt?, made.locate, made.entryAt?]
    rfl
  refine ⟨t₂, ?_, ⟨project, rfl, made'.kept _ (made.kept _ fresh.folder)⟩, ?_, ?_, fun batch => ?_⟩
  · rw [Log.ensureFolders, ofProject, first]
    dsimp only
    rw [batchFolder, second]
  · rw [entries, if_pos rfl, ite_self]
  · rw [entries, if_pos rfl]
  · obtain ⟨more, place, below, other⟩ := exists_locate_fileOf (ofProject project window) t batch
    rw [entries, locate_batchFolder, place, nothing, if_neg, if_neg]
    · rfl
    · exact fun same => below (List.append_right_eq_self.mp same)
    · exact fun same => other (List.append_cancel_left same)

end LessonCalc.Log
