import LessonCalc.Project.Session
import LessonCalc.Proofs.Event.Growth
import LessonCalc.Proofs.Number.Layout

/-!
# Recording in a session

A session whose events go to an open log records them there, and is otherwise as it was, apart from a
warning.

* `Work.bind_ok`, `Work.bind_error`: work goes on after a step that succeeds, and stops at one that fails.
* `Work.tryCatch_ok`, `Work.tryCatch_error`: only work that fails is handled.
* `Session.Attached`: the events of a session go to a log that is open.
* `Session.Records`: a session is another one that has recorded more events.
* `Session.Attached.record`, `Session.exists_attachLog`: what recording an event and opening the log of a
  project do.
* `Session.batchId_inj`: batches of one session have different ids.
-/

namespace LessonCalc

/-! ## Steps of work -/

namespace Work

variable {α β : Type} {step : Work α} {next : α → Work β} {s s' : Session}

theorem bind_eq (step : Work α) (next : α → Work β) (s : Session) : (step >>= next) s =
    (fun out : Except ProjectError α × Session => ExceptT.bindCont next out.1 out.2) (step s) :=
  rfl

/-- Work goes on after a step that succeeds. -/
theorem bind_ok {a : α} (done : step s = (.ok a, s')) : (step >>= next) s = next a s' := by
  rw [bind_eq, done]
  rfl

/-- Work stops at a step that fails. -/
theorem bind_error {e : ProjectError} (failed : step s = (.error e, s')) :
    (step >>= next) s = (.error e, s') := by
  rw [bind_eq, failed]
  rfl

section Catching

variable {work : Work α} {handler : ProjectError → Work α}

/-- Work that succeeds is not handled. -/
theorem tryCatch_ok {a : α} (done : work s = (.ok a, s')) :
    (tryCatch work handler : Work α) s = (.ok a, s') := by
  simp only [tryCatch, tryCatchThe, MonadExceptOf.tryCatch, ExceptT.tryCatch, ExceptT.mk, bind,
    StateT.bind, done]
  rfl

/-- An error is handled in the session that the work left behind. -/
theorem tryCatch_error {e : ProjectError} (failed : work s = (.error e, s')) :
    (tryCatch work handler : Work α) s = handler e s' := by
  simp only [tryCatch, tryCatchThe, MonadExceptOf.tryCatch, ExceptT.tryCatch, ExceptT.mk, bind,
    StateT.bind, failed]

end Catching

end Work

namespace Session

/-! ## Events -/

variable {log : Log} {s s' s'' : Session} {first second : Option String → List Event}

/-- The events of a session go to a log that is open. -/
structure Attached (log : Log) (s : Session) : Prop where
  log? : s.log? = some log
  opened : log.Opened s.tree

/-- A session is another one that has recorded more events, and may have shown a warning. -/
structure Records (log : Log) (s s' : Session) (events : Option String → List Event) : Prop where
  tree : log.Extends s.tree s'.tree events
  rest : ∃ warning?, s' = { s with tree := s'.tree, warning? }

namespace Records

theorem refl (log : Log) (s : Session) : Records log s s fun _ => [] :=
  ⟨Log.Extends.refl log s.tree, s.warning?, rfl⟩

theorem trans (before : Records log s s' first) (after : Records log s' s'' second) :
    Records log s s'' fun batch => first batch ++ second batch := by
  refine ⟨before.tree.trans after.tree, ?_⟩
  obtain ⟨_, same⟩ := before.rest
  obtain ⟨warning?, same'⟩ := after.rest
  refine ⟨warning?, ?_⟩
  rw [same', same]

theorem batches (records : Records log s s' first) : s'.batches = s.batches := by
  obtain ⟨_, same⟩ := records.rest
  rw [same]

theorem time (records : Records log s s' first) : s'.time = s.time := by
  obtain ⟨_, same⟩ := records.rest
  rw [same]

end Records

/-- Recording an event writes it without its secrets, and changes nothing but the files and a warning. -/
theorem exists_record (attached : s.log? = some log) (e : Event) (batch : Option String) :
    ∃ warning?, s.record e batch =
      { s with tree := (log.write s.tree e.redacted batch).2, warning? } := by
  unfold record withTree
  rw [attached]
  dsimp only
  rcases log.write s.tree e.redacted batch with ⟨result, t⟩
  cases result with
  | ok _ => exact ⟨s.warning?, rfl⟩
  | error _ => exact ⟨_, rfl⟩

/-- Recording an event changes nothing but the files and a warning, whether there is a log or not. -/
theorem exists_record_eq (s : Session) (e : Event) (batch : Option String) :
    ∃ tree warning?, s.record e batch = { s with tree, warning? } := by
  rcases Option.eq_none_or_eq_some s.log? with silent | ⟨log, attached⟩
  · have same : s.record e batch = s := by rw [record, silent]
    exact ⟨s.tree, s.warning?, same⟩
  · obtain ⟨_, recorded⟩ := exists_record attached e batch
    exact ⟨_, _, recorded⟩

theorem time_record (s : Session) (e : Event) (batch : Option String) :
    (s.record e batch).time = s.time := by
  obtain ⟨_, _, recorded⟩ := exists_record_eq s e batch
  rw [recorded]

theorem host_record (s : Session) (e : Event) (batch : Option String) :
    (s.record e batch).host = s.host := by
  obtain ⟨_, _, recorded⟩ := exists_record_eq s e batch
  rw [recorded]

/-- An event is recorded in the file of all events and in that of its batch, if it has a line. -/
theorem Attached.record (attached : s.Attached log) (e : Event) {batch : Option String}
    (named : Log.Named batch)
    (free : ∀ file, file = none ∨ file = batch →
      s.tree.entryAt? (s.tree.locate (log.fileOf file)) ≠ some .folder) :
    (s.record e batch).Attached log ∧
      Records log s (s.record e batch) fun file =>
        if file = none ∨ file = batch then [e.redacted].filter fun e => e.Writable else [] := by
  obtain ⟨result, t, written, opened, extended⟩ := attached.opened.exists_write e.redacted named free
  obtain ⟨warning?, recorded⟩ := exists_record attached.log? e batch
  rw [written] at recorded
  rw [recorded]
  exact ⟨⟨attached.log?, opened⟩, extended, warning?, rfl⟩

/-- An event that belongs to no batch is recorded among all, if it has a line and the file can take it. -/
theorem Attached.record_none (attached : s.Attached log) (e : Event) :
    (s.record e none).Attached log ∧
      Records log s (s.record e none) fun file =>
        if file = none ∧ log.TakesLines s.tree then [e.redacted].filter fun e => e.Writable else [] := by
  obtain ⟨result, t, written, opened, extended⟩ := attached.opened.exists_write_none e.redacted
  obtain ⟨warning?, recorded⟩ := exists_record attached.log? e none
  rw [written] at recorded
  rw [recorded]
  exact ⟨⟨attached.log?, opened⟩, extended, warning?, rfl⟩

/-- The folders of the log of a project do not depend on how much of its files is read. -/
theorem ensureFolders_window (project : Path) (window window' : Int) (t : FileTree) :
    (Log.ofProject project window).ensureFolders t = (Log.ofProject project window').ensureFolders t :=
  rfl

/-- Opening the log of a project makes its folders.  The events of the session go there if that
succeeds, and otherwise where they went before. -/
theorem exists_attachLog (project : Path) (window : Int) (s : Session) : ∃ window' warning? result t,
    (Log.ofProject project window).ensureFolders s.tree = (result, t) ∧
    attachLog project s = (result.mapError .file,
      { s with
        tree := t
        warning?
        log? := if result = .ok () then some (Log.ofProject project window') else s.log? }) := by
  cases opens : (Log.ofProject project window).ensureFolders s.tree with
  | mk result t =>
      unfold attachLog openLog withTree
      cases logWindow s.tree project with
      | ok window' =>
          refine ⟨window', s.warning?, result, t, rfl, ?_⟩
          dsimp only
          rw [ensureFolders_window project window' window, opens]
          cases result <;> rfl
      | error e =>
          refine ⟨Log.defaultWindow, (s.warn "could not read logging config").warning?, result, t, rfl, ?_⟩
          have opens' : (Log.ofProject project Log.defaultWindow).ensureFolders
              (s.warn "could not read logging config").tree = (result, t) := opens
          dsimp only
          rw [opens']
          cases result <;> rfl

theorem host_attachLog (project : Path) (s : Session) : (attachLog project s).2.host = s.host := by
  obtain ⟨_, _, _, _, _, attached⟩ := exists_attachLog project 0 s
  rw [attached]

/-- Opening the log of a project makes its folders, and the events of the session go there. -/
theorem attachLog_of_ensureFolders {project : Path} {window : Int} {t : FileTree}
    (opened : (Log.ofProject project window).ensureFolders s.tree = (.ok (), t)) :
    ∃ window' s', attachLog project s = (.ok (), s') ∧ s'.Attached (Log.ofProject project window') ∧
      ∃ warning?, s' = { s with tree := t, log? := some (Log.ofProject project window'), warning? } := by
  obtain ⟨window', warning?, _, _, opens, attached⟩ := exists_attachLog project window s
  cases opened.symm.trans opens
  rw [ensureFolders_window project window window'] at opened
  exact ⟨window', _, attached, ⟨rfl, (Log.opened_of_ensureFolders opened).1⟩, warning?, rfl⟩

/-- A log whose folders cannot be made is not opened. -/
theorem attachLog_of_error {project : Path} {window : Int} {t : FileTree} {e : FileError}
    (failed : (Log.ofProject project window).ensureFolders s.tree = (.error e, t)) :
    ∃ s', attachLog project s = (.error (.file e), s') := by
  obtain ⟨_, _, _, _, opens, attached⟩ := exists_attachLog project window s
  cases failed.symm.trans opens
  exact ⟨_, attached⟩

/-- Batches of one session have different ids. -/
theorem batchId_inj {stem : String} {m n : Nat} : batchId stem m = batchId stem n ↔ m = n := by
  refine ⟨fun same => ?_, fun same => same ▸ rfl⟩
  unfold batchId at same
  have digits := congrArg Number.ofDigitChars
    (String.ofList_injective (String.append_right_inj _ |>.mp same))
  rwa [Number.ofDigitChars_padZeros, Number.ofDigitChars_padZeros, Number.ofDigitChars_natChars,
    Number.ofDigitChars_natChars] at digits

end Session

end LessonCalc
