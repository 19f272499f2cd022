import LessonCalc.Proofs.Event.Additions

/-!
# Logs that grow

Events are recorded at the ends of the files of an open log, whatever stands in these files, and nothing
else changes.

* `extended`: what becomes of a file when events are recorded in it.
* `Extends`: a tree is another one with more events in the files of a log.
* `Extends.sameBeside`: so nothing in the folder of a project changes but its log.
* `Opened.exists_performAll`: additions that can be made extend their files.
* `Opened.exists_write`: so does writing an event, if it has a line; and if not, nothing changes.
-/

namespace LessonCalc.Log

open LessonCalc.Text

/-! ## Files -/

/-- What stands at the place of a file when events have been recorded in it. -/
def extended (before : Option FileEntry) : List Event → Option FileEntry
  | [] => before
  | e :: events => some (.file (contentAt before ++ (e :: events).flatMap Event.record))

theorem contentAt_extended (before : Option FileEntry) (events : List Event) :
    contentAt (extended before events) = contentAt before ++ events.flatMap Event.record := by
  cases events with
  | nil => rw [extended, List.flatMap_nil, List.append_nil]
  | cons e events => rfl

/-- What is recorded later comes after what is recorded first. -/
theorem extended_append (before : Option FileEntry) (first second : List Event) :
    extended (extended before first) second = extended before (first ++ second) := by
  cases second with
  | nil => rw [extended, List.append_nil]
  | cons e second =>
      rw [extended, contentAt_extended, List.append_assoc, ← List.flatMap_append]
      cases first <;> rfl

theorem extended_ne_folder {before : Option FileEntry} (free : before ≠ some .folder)
    (events : List Event) : extended before events ≠ some .folder := by
  cases events with
  | nil => exact free
  | cons e events => exact fun same => by cases same

/-! ## Trees -/

/-- A tree is another one with more events in the files of a log, and with nothing else changed. -/
structure Extends (log : Log) (t t' : FileTree) (events : Option String → List Event) : Prop where
  top : t'.top = t.top
  home : t'.home = t.home
  file : ∀ batch, t'.entryAt? (t.locate (log.fileOf batch)) =
    extended (t.entryAt? (t.locate (log.fileOf batch))) (events batch)
  other : ∀ place, (∀ batch, place ≠ t.locate (log.fileOf batch)) →
    t'.entryAt? place = t.entryAt? place

namespace Extends

variable {log : Log} {t t' t'' : FileTree} {first second : Option String → List Event}

theorem refl (log : Log) (t : FileTree) : Extends log t t fun _ => [] :=
  ⟨rfl, rfl, fun _ => rfl, fun _ _ => rfl⟩

theorem locate (extends_ : Extends log t t' first) (p : Path) : t'.locate p = t.locate p := by
  unfold FileTree.locate FileTree.start
  rw [extends_.home]

theorem trans (before : Extends log t t' first) (after : Extends log t' t'' second) :
    Extends log t t'' fun batch => first batch ++ second batch := by
  refine ⟨after.top.trans before.top, after.home.trans before.home, fun batch => ?_, fun place apart => ?_⟩
  · have later := after.file batch
    rw [before.locate, before.file] at later
    rw [later, extended_append]
  · have apart' : ∀ batch, place ≠ t'.locate (log.fileOf batch) := by
      intro batch
      rw [before.locate]
      exact apart batch
    rw [after.other place apart', before.other place apart]

/-- The files of the log of a project do not depend on how much of them is read. -/
theorem window {project : Path} {window : Int} (extends_ : Extends (ofProject project window) t t' first)
    (window' : Int) : Extends (ofProject project window') t t' first :=
  ⟨extends_.top, extends_.home, extends_.file, extends_.other⟩

/-- No folder comes to stand at the place of a file. -/
theorem free (extends_ : Extends log t t' first) {batch : Option String}
    (free : t.entryAt? (t.locate (log.fileOf batch)) ≠ some .folder) :
    t'.entryAt? (t'.locate (log.fileOf batch)) ≠ some .folder := by
  rw [extends_.locate, extends_.file]
  exact extended_ne_folder free _

/-- Recording events changes nothing in the folder of a project but its log. -/
theorem sameBeside {project : Path} {window : Int} (extends_ : Extends (ofProject project window) t t' first)
    (opened : Opened (ofProject project window) t) (opened' : Opened (ofProject project window) t') :
    t.SameBeside t' project "logs" := by
  refine ⟨opened.find_project rfl, opened'.find_project rfl, extends_.locate project, ?_⟩
  intro other more differ
  refine extends_.other _ fun batch same => ?_
  obtain ⟨below, place, _⟩ := exists_locate_fileOf (ofProject project window) t batch
  have folder : t.locate (ofProject project window).folder = t.locate project ++ ["logs"] :=
    FileTree.locate_child (by decide)
  rw [place, folder, ← List.append_cons] at same
  exact differ (List.cons.inj (List.append_cancel_left same)).1

/-- One record at the end of a file. -/
theorem set (log : Log) (t : FileTree) (batch : Option String) (e : Event) :
    Extends log t
      (t.set (t.locate (log.fileOf batch))
        (.file (contentAt (t.entryAt? (t.locate (log.fileOf batch))) ++ e.record)))
      fun batch' => if batch' = batch then [e] else [] := by
  have inside := locate_fileOf_ne_nil log t batch
  refine ⟨rfl, rfl, fun batch' => ?_, fun place apart => ?_⟩
  · rw [FileTree.entryAt?_set inside]
    simp only [locate_fileOf_inj]
    split
    next same =>
      rw [same, extended, List.flatMap_singleton]
    next => rfl
  · rw [FileTree.entryAt?_set inside, if_neg (apart batch)]

end Extends

/-! ## Additions -/

namespace Opened

variable {log : Log} {t : FileTree}

/-- An addition that can be made extends its file. -/
theorem exists_perform (opened : Opened log t) {a : Addition} (lands : a.Lands)
    (free : t.entryAt? (t.locate (log.fileOf a.batch)) ≠ some .folder) :
    ∃ t', log.perform t a = (.ok (), t') ∧ Opened log t' ∧
      Extends log t t' fun batch => if batch = a.batch then [a.event] else [] := by
  have written : log.perform t a = (.ok (), t.set (t.locate (log.fileOf a.batch))
      (.file (contentAt (t.entryAt? (t.locate (log.fileOf a.batch))) ++ a.event.record))) := by
    rw [Log.perform, lineOf_of_writable lands.1]
    dsimp only
    rw [opened.addTo lands.2 free]
    rfl
  exact ⟨_, written, opened.set free,
    Extends.set log t a.batch a.event⟩

/-- Additions that can be made extend their files, each in order. -/
theorem exists_performAll (opened : Opened log t) (additions : List Addition)
    (lands : ∀ a ∈ additions, a.Lands)
    (free : ∀ a ∈ additions, t.entryAt? (t.locate (log.fileOf a.batch)) ≠ some .folder) :
    ∃ t', log.performAll t additions = (.ok (), t') ∧ Opened log t' ∧
      Extends log t t' fun batch => (additions.filter (·.batch = batch)).map (·.event) := by
  induction additions generalizing t with
  | nil => exact ⟨t, rfl, opened, Extends.refl log t⟩
  | cons a more ih =>
      obtain ⟨lands, lands'⟩ := List.forall_mem_cons.mp lands
      obtain ⟨free, free'⟩ := List.forall_mem_cons.mp free
      obtain ⟨t₁, made, opened₁, first⟩ := opened.exists_perform lands free
      obtain ⟨t₂, later, opened₂, second⟩ := ih opened₁ lands' fun a member => first.free (free' a member)
      refine ⟨t₂, ?_, opened₂, ?_⟩
      · rw [performAll, made]
        exact later
      · have each : (fun batch => ((a :: more).filter (·.batch = batch)).map (·.event)) =
            fun batch => (if batch = a.batch then [a.event] else []) ++
              (more.filter (·.batch = batch)).map (·.event) := by
          funext batch
          by_cases same : a.batch = batch
          · simp [same]
          · simp [same, Ne.symm same]
        rw [each]
        exact first.trans second

end Opened

/-! ## Events -/

/-- Events of a batch can be recorded in a file of its own: its id is safe, and the file can have the name
that is meant for it. -/
def Named (batch : Option String) : Prop :=
  ∀ id, batch = some id → isSafeId id = true ∧ Fits (some id)

theorem additions_of_named (e : Event) {batch : Option String} (named : Named batch) :
    additions e batch = ⟨e, none⟩ :: batch.toList.map fun id => ⟨e, some id⟩ := by
  cases batch with
  | none => rfl
  | some id =>
      have safe := (named id rfl).1
      simp [additions, safe]

/-- An event is recorded in two files: that of all events, and that of its batch. -/
theorem map_event_additions_filter (e : Event) {batch : Option String} (named : Named batch)
    (file : Option String) :
    ((additions e batch).filter (·.batch = file)).map (·.event) =
      if file = none ∨ file = batch then [e] else [] := by
  rw [additions_of_named e named]
  cases file with
  | none => cases batch <;> simp
  | some id =>
      cases batch with
      | none => simp
      | some id' =>
          by_cases same : id' = id
          · simp [same]
          · simp [same, Ne.symm same]

/-- Writing an event records it in its files, if it has a line, and changes nothing if it has none. -/
theorem Opened.exists_write {log : Log} {t : FileTree} (opened : Opened log t) (e : Event)
    {batch : Option String} (named : Named batch)
    (free : ∀ file, file = none ∨ file = batch →
      t.entryAt? (t.locate (log.fileOf file)) ≠ some .folder) :
    ∃ result t', log.write t e batch = (result, t') ∧ Opened log t' ∧
      Extends log t t' fun file =>
        if file = none ∨ file = batch then [e].filter fun e => e.Writable else [] := by
  rw [write_eq_performAll]
  by_cases writable : e.Writable
  · have files : ∀ a ∈ additions e batch,
        a.event = e ∧ (a.batch = none ∨ a.batch = batch) ∧ Fits a.batch := by
      rw [additions_of_named e named]
      refine List.forall_mem_cons.mpr ⟨⟨rfl, .inl rfl, fits_none⟩, List.forall_mem_map.mpr ?_⟩
      intro id member
      have given : batch = some id := Option.mem_toList.mp member
      exact ⟨rfl, .inr given.symm, (named id given).2⟩
    obtain ⟨t', made, opened', extends_⟩ := opened.exists_performAll (additions e batch)
      (fun a member => ⟨(files a member).1 ▸ writable, (files a member).2.2⟩)
      (fun a member => free a.batch (files a member).2.1)
    simp only [map_event_additions_filter e named] at extends_
    have kept : [e].filter (fun e => e.Writable) = [e] := by simp [writable]
    refine ⟨_, t', made, opened', ?_⟩
    rw [kept]
    exact extends_
  · obtain ⟨fault, none⟩ := lineOf_of_not_writable writable
    have stopped : log.performAll t (additions e batch) = (.error (.noLine fault), t) := by
      rw [additions_of_named e named, performAll, perform, none]
    have dropped : [e].filter (fun e => e.Writable) = [] := by simp [writable]
    refine ⟨_, t, stopped, opened, ?_⟩
    simp only [dropped, ite_self]
    exact Extends.refl log t

/-- Whether the file of all events can take a line: no folder stands at its place. -/
def TakesLines (log : Log) (t : FileTree) : Prop :=
  t.entryAt? (t.locate log.globalFile) ≠ some .folder

instance (log : Log) (t : FileTree) : Decidable (log.TakesLines t) :=
  inferInstanceAs (Decidable (_ ≠ _))

theorem Extends.takes_iff {log : Log} {t t' : FileTree} {events : Option String → List Event}
    (extends_ : Extends log t t' events) (none_ : ¬log.TakesLines t → events none = []) :
    log.TakesLines t' ↔ log.TakesLines t := by
  have file := extends_.file none
  rw [fileOf_none] at file
  unfold TakesLines at none_ ⊢
  rw [extends_.locate, file]
  by_cases taken : t.entryAt? (t.locate log.globalFile) = some .folder
  · rw [none_ (fun free => free taken)]
    rfl
  · exact iff_of_true (extended_ne_folder taken _) taken

/-- Writing an event that belongs to no batch records it among all, if it has a line and the file can take
it, and changes nothing else. -/
theorem Opened.exists_write_none {log : Log} {t : FileTree} (opened : Opened log t) (e : Event) :
    ∃ result t', log.write t e none = (result, t') ∧ Opened log t' ∧
      Extends log t t' fun file =>
        if file = none ∧ log.TakesLines t then [e].filter fun e => e.Writable else [] := by
  by_cases takes : log.TakesLines t
  · have named : Named none := fun _ absent => by cases absent
    obtain ⟨result, t', written, opened', extends_⟩ := opened.exists_write e named fun file own => by
      rw [or_self] at own
      rw [own]
      exact takes
    simp only [or_self] at extends_
    simp only [takes, and_true]
    exact ⟨result, t', written, opened', extends_⟩
  · have nothing : ∃ error, log.write t e none = (.error error, t) := by
      by_cases writable : e.Writable
      · refine ⟨.file ⟨.isFolder, log.fileOf none⟩, ?_⟩
        rw [write, lineOf_of_writable writable]
        dsimp only
        rw [← fileOf_none, opened.addTo_of_folder fits_none (not_not.mp takes)]
      · obtain ⟨fault, none_⟩ := lineOf_of_not_writable writable
        exact ⟨_, by rw [write, none_]⟩
    obtain ⟨error, written⟩ := nothing
    refine ⟨_, t, written, opened, ?_⟩
    simp only [takes, and_false, if_false]
    exact Extends.refl log t

end LessonCalc.Log
