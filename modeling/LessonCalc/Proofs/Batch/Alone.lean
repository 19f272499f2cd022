import LessonCalc.Proofs.Batch.Lifecycle
import LessonCalc.Proofs.Project.Calls

/-!
# Batches without a project

A batch without a project opens no log, but it does not detach the log that an earlier call has
attached either.  Its events go there, to a project that it was not asked to touch.

* `Lifecycle.tree_ne`: a batch that can record its end changes the files.
* `run_of_log?_eq_none`, `exists_run_of_attached`: what a batch without a project does if the session has
  no log, and if it has one.
* `run_after`: so it leaves the files as they are exactly if each log that an earlier call attached has
  been detached.
-/

namespace LessonCalc

/-- Events that are recorded in a file change it. -/
theorem Log.extended_ne {before : Option FileEntry} {events : List Event} (some_ : events ≠ []) :
    extended before events ≠ before := by
  intro same
  have content := congrArg contentAt same
  rw [contentAt_extended, List.append_right_eq_self, List.flatMap_eq_nil_iff] at content
  obtain ⟨e, member⟩ := List.exists_mem_of_ne_nil events some_
  exact Batch.record_ne_nil e (content e member)

namespace Batch

open LessonCalc.Tool

variable {tool : Tool} {records : List Record} {name : Option String} {workers : Int} {s s' : Session}

/-- A batch that can record its end changes the files. -/
theorem Lifecycle.tree_ne {log : Log} {opened : FileTree} {run : Run} {total : Nat}
    {result : Except SweepError Table} (lifecycle : Lifecycle log s s' opened run total workers result)
    (short : Json.isOversized total = false) : s'.tree ≠ opened := by
  intro same
  have file := lifecycle.events.file none
  rw [same, if_pos (.inl rfl)] at file
  refine Log.extended_ne ?_ file.symm
  have outcome : (outcomeOf s.time run total result).Writable :=
    lifecycle.outcome.mpr fun _ _ => short
  have member : outcomeOf s.time run total result ∈
      [startOf s.time run total workers, outcomeOf s.time run total result].filter fun e => e.Writable :=
    List.mem_filter.mpr ⟨by simp, decide_eq_true outcome⟩
  exact List.ne_nil_of_mem member

/-- The limit of a batch without a project. -/
theorem rowLimit_none (t : FileTree) : rowLimit t none = .ok 100000 :=
  rfl

/-- A batch without a project gets an id, and sweeps its records in the session as it is. -/
theorem run_none (within : records.length ≤ (100000 : Int)) :
    run tool records name none workers s =
      Run.sweeping ⟨Session.batchId s.batchStem (s.batches + 1), name⟩ tool records workers
        { s with batches := s.batches + 1 } :=
  run_of_length_le (rowLimit_none s.tree) within

/-- A batch without a project and without a log changes nothing but the number of batches. -/
theorem run_of_log?_eq_none (detached : s.log? = none) (within : records.length ≤ (100000 : Int)) :
    run tool records name none workers s =
      ((tool.sweep s.host records workers).mapError .ofSweep, { s with batches := s.batches + 1 }) := by
  have silent : ∀ (e : Event) (batch : Option String),
      Session.record e batch { s with batches := s.batches + 1 } = { s with batches := s.batches + 1 } := by
    intro e batch
    rw [Session.record, detached]
  rw [run_none within, Run.sweeping_eq, silent, silent]

/-- A batch without a project records its start and its end in the log that the session has. -/
theorem exists_run_of_attached {log : Log} (tool : Tool) (records : List Record) (name : Option String)
    (workers : Int) (within : records.length ≤ (100000 : Int)) (attached : s.Attached log)
    (takes : Takes log s.tree s.tree (Session.batchId s.batchStem (s.batches + 1))) :
    ∃ s', run tool records name none workers s = ((tool.sweep s.host records workers).mapError .ofSweep, s') ∧
      Lifecycle log s s' s.tree ⟨Session.batchId s.batchStem (s.batches + 1), name⟩ records.length workers
        (tool.sweep s.host records workers) := by
  have attached' : Session.Attached log { s with batches := s.batches + 1 } :=
    ⟨attached.log?, attached.opened⟩
  obtain ⟨s', swept, lifecycle⟩ := exists_sweeping (s := s) tool records name workers attached'
    (.refl _ _) rfl rfl rfl takes.named takes.free
  exact ⟨s', (run_none within).trans swept, lifecycle⟩

/-- A batch without a project, after any calls of a program that started without a log.  Over the limit,
nothing changes.  Otherwise it gives what its sweep gives, and changes nothing but the number of batches
if each log that a call attached has been detached.  If one has not, it is open, and the events of the
batch are recorded there as soon as its files can take them, so that the files of a project change. -/
theorem run_after (calls : List Call) (start : Session) (tool : Tool) (records : List Record)
    (name : Option String) (workers : Int) (started : start.log? = none) :
    let s := start.after calls
    let batch : Run := ⟨Session.batchId s.batchStem (s.batches + 1), name⟩
    ((100000 : Int) < records.length →
      run tool records name none workers s = (.error (.tooManyRows records.length 100000), s)) ∧
    (records.length ≤ (100000 : Int) → ∃ s',
      run tool records name none workers s = ((tool.sweep s.host records workers).mapError .ofSweep, s') ∧
      (start.AllDetached calls → s' = { s with batches := s.batches + 1 }) ∧
      (¬start.AllDetached calls → ∃ log, s.log? = some log ∧
        log.ensureFolders s.tree = (.ok (), s.tree) ∧
        (Takes log s.tree s.tree batch.id →
          Lifecycle log s s' s.tree batch records.length workers (tool.sweep s.host records workers) ∧
          s'.tree ≠ s.tree))) := by
  intro s batch
  have detached : s.log? = none ↔ start.AllDetached calls := by
    rw [start.log?_after_eq_none_iff calls]
    exact and_iff_right (.inl started)
  have ready : s.Ready := Session.ready_after calls fun log attached => by
    rw [started] at attached
    cases attached
  refine ⟨run_of_limit_lt (rowLimit_none s.tree), fun within => ?_⟩
  by_cases all : start.AllDetached calls
  · exact ⟨_, run_of_log?_eq_none (detached.mpr all) within, fun _ => rfl, absurd all⟩
  · obtain ⟨log, attached⟩ := Option.ne_none_iff_exists'.mp (mt detached.mp all)
    have opened : log.Opened s.tree := ready log attached
    have ran := (run_none within).trans (batch.sweeping_eq tool records workers _)
    refine ⟨_, ran, fun all' => absurd all' all,
      fun _ => ⟨log, attached, opened.ensureFolders, fun takes => ?_⟩⟩
    obtain ⟨s', ran', lifecycle⟩ := exists_run_of_attached tool records name workers within
      ⟨attached, opened⟩ takes
    cases ran'.symm.trans ran
    have short : Json.isOversized records.length = false := by
      have digits : (records.length : Int).natAbs < 10 ^ 6 := by omega
      exact Event.isOversized_of_lt_pow (by decide) digits
    exact ⟨lifecycle, lifecycle.tree_ne short⟩

theorem run_after_detached :
    let tool : Tool := { inputs := [{ id := "a" }], outputs := [{ id := "b", formula := "a + 1" }] }
    let records : List Record := [[("a", .string "2")]]
    let calls : List Call := [.attach {}, .detach]
    let s := newSession.after calls
    newSession.log? = none ∧ newSession.AllDetached calls ∧
      run tool records (some "sum") none 1 s =
        ((tool.sweep s.host records 1).mapError .ofSweep, { s with batches := s.batches + 1 }) := by
  intro tool records calls s
  have all : newSession.AllDetached calls :=
    Session.allDetached_cons_iff.mpr ⟨fun _ => List.mem_singleton.mpr rfl,
      Session.allDetached_cons_iff.mpr ⟨False.elim, Session.allDetached_nil _⟩⟩
  obtain ⟨s', ran, same, _⟩ := (run_after calls newSession tool records (some "sum") 1 rfl).2 (by decide)
  exact ⟨rfl, all, same all ▸ ran⟩

/-- The log of a project that is attached takes the events of the next batch. -/
theorem exists_takes_after_attach : ∃ log,
    let s := newSession.after [.attach {}]
    s.Attached log ∧ Takes log s.tree s.tree (Session.batchId s.batchStem (s.batches + 1)) := by
  obtain ⟨opened, takes⟩ := exists_takes_of_fresh Log.fresh_empty 4096 named_first
  obtain ⟨window, s, done, attached, warning?, same⟩ :=
    Session.attachLog_of_ensureFolders (s := newSession) takes.opens
  have after : newSession.after [.attach {}] = s := congrArg Prod.snd done
  have tree : s.tree = opened := by rw [same]
  have id : Session.batchId s.batchStem (s.batches + 1) = "b-000000000001" := by
    rw [same]
    exact batchId_first
  rw [after]
  exact ⟨_, attached, attached.opened.ensureFolders, id ▸ takes.named, id ▸ tree ▸ takes.free⟩

/-- A batch without a project leaves its trace in the project that an earlier call has attached. -/
theorem not_traceless_attached :
    let tool : Tool := { inputs := [], outputs := [] }
    let s := newSession.after [.attach {}]
    newSession.log? = none ∧
      ∃ table s', tool.sweep s.host [] 1 = .ok table ∧ run tool [] none none 1 s = (.ok table, s') ∧
        s'.tree ≠ s.tree := by
  intro tool s
  have swept : tool.sweep s.host [] 1 = .ok ⟨tool.sweepColumns, []⟩ := rfl
  obtain ⟨log, attached, takes⟩ := exists_takes_after_attach
  obtain ⟨s', ran, lifecycle⟩ := exists_run_of_attached tool [] none 1 (by decide) attached takes
  rw [swept] at ran
  exact ⟨rfl, _, s', swept, ran, lifecycle.tree_ne (Event.isOversized_of_le_one (by decide))⟩

end Batch

end LessonCalc
