import LessonCalc.Proofs.Batch.Rows
import LessonCalc.Proofs.Event.Completeness
import LessonCalc.Proofs.Event.Context
import LessonCalc.Proofs.Project.Session

/-!
# The lifecycle of a batch in the log

A batch over the limit of its project leaves no trace.  Any other batch records its start and then its
end, in the file of all events and in a file of its own, whatever the log holds before.

* `startOf`, `outcomeOf`: the events of a batch as they are recorded.
* `redacted_startEvent`, `redacted_outcomeEvent`: they are what is left of the events without secrets and
  long strings.
* `startOf_writable_iff`, `outcomeOf_writable_iff`: these events have a line unless a count is too long.
* `Takes`, `Lifecycle`: a log that can take the events of a batch, and what the batch leaves behind.
* `run_lifecycle`: the events are added to the log in this order, and nothing else changes.
-/

namespace LessonCalc.Batch

open LessonCalc.Event

/-! ## The events -/

/-- What every event of a batch tells: the id of the batch, and the tool if it has a name. -/
def attribution (run : Run) : List (RawText × RawText) :=
  ("batch_id", run.id) :: run.tool.toList.map fun name => ("tool", name)

/-- The context of an event of a batch, as it is recorded: its attribution up to a length, and counts. -/
def contextOf (run : Run) (counts : List (RawText × Int)) : List (RawText × Json) :=
  textEntries (cutTexts (attribution run)) ++ countEntries counts

/-- The start of a batch, as it is recorded. -/
def startOf (time : String) (run : Run) (total : Nat) (workers : Int) : Event :=
  { time
    level := .info
    kind := .batchStarted
    context := contextOf run [("total", total), ("max_workers", workers)]
    message := s!"Batch started: {total} row(s)" }

/-- The end of a batch that gives a table or stops with an error, as it is recorded. -/
def outcomeOf (time : String) (run : Run) (total : Nat) : Except Tool.SweepError Table → Event
  | .ok _ =>
    { time
      level := .info
      kind := .batchCompleted
      context := contextOf run [("total", total)]
      message := s!"Batch completed: {total} row(s)" }
  | .error e =>
    { time
      level := .error
      kind := .batchFailed
      context := contextOf run []
      message := s!"Batch failed: {e.message}"
      errorCode := some "batch_error" }

/-! ## Without secrets -/

theorem length_le_utf8Len (cs : List Char) : cs.length ≤ String.utf8Len cs := by
  induction cs with
  | nil => exact Nat.le_refl 0
  | cons c cs ih =>
      have positive := c.utf8Size_pos
      rw [List.length_cons, String.utf8Len]
      omega

/-- An id that can name a file is not cut. -/
theorem cutLong_of_fits {id : String} (fits : Log.Fits (some id)) : cutLong id = id := by
  have short : (RawText.whole id).codes.length ≤ keptLength := by
    have bytes : String.utf8Len id.toList = id.utf8ByteSize := by
      rw [← String.utf8ByteSize_ofList, String.ofList_toList]
    have length := length_le_utf8Len id.toList
    rw [Log.Fits, Log.fileName, String.utf8ByteSize_append, FileTree.nameLimit] at fits
    rw [RawText.codes_whole, List.length_map, keptLength]
    omega
  rw [cutLong]
  exact if_neg (Nat.not_lt.mpr short)

/-- The context that an event of a batch is recorded with tells the id of the batch. -/
theorem lookup_contextOf (run : Run) (fits : Log.Fits (some run.id)) (counts : List (RawText × Int)) :
    (contextOf run counts).lookup (.whole "batch_id") = some (.string run.id) := by
  have first : (contextOf run counts).lookup (.whole "batch_id") = some (.string (cutLong run.id)) := rfl
  rw [first, cutLong_of_fits fits]

/-- The context of an event of a batch, without secrets and long strings. -/
theorem redact_batchContext (run : Run) (counts : List (RawText × Int))
    (known : (counts.map Prod.fst).Sublist ["total", "max_workers"]) :
    redact (batchContext run.id run.tool (countEntries counts)) = contextOf run counts := by
  let names : List RawText := ["batch_id", "tool", "total", "max_workers"]
  have distinct : names.Nodup := by decide
  have plain : ∀ key ∈ names, isSecretKey key = false := by decide
  have keys : ((attribution run).map Prod.fst ++ counts.map Prod.fst).Sublist names := by
    unfold attribution
    cases run.tool with
    | none => exact (known.cons _).cons_cons _
    | some name => exact (known.cons_cons _).cons_cons _
  have entries : batchContext run.id run.tool (countEntries counts) =
      textEntries (attribution run) ++ countEntries counts := by
    have once : (Entries.keys (textEntries (attribution run) ++ countEntries counts)).Nodup := by
      rw [keys_entries]
      exact distinct.sublist keys
    rw [← Entries.insertAll_eq_append once]
    unfold batchContext attribution
    cases run.tool <;> rfl
  rw [entries]
  exact redact_entries _ counts fun key member => plain key (keys.subset member)

theorem redacted_startEvent (run : Run) (s : Session) (total : Nat) (workers : Int) :
    (run.startEvent s total workers).redacted = startOf s.time run total workers :=
  redacted_of_context (redact_batchContext run [("total", total), ("max_workers", workers)]
    (List.Sublist.refl _))

theorem redacted_outcomeEvent (run : Run) (s : Session) {total : Nat}
    {result : Except Tool.SweepError Table} (height : ∀ table, result = .ok table → table.height = total) :
    (run.outcomeEvent s result).redacted = outcomeOf s.time run total result := by
  cases result with
  | ok table =>
      rw [Run.outcomeEvent, height table rfl]
      exact redacted_of_context (redact_batchContext run [("total", total)]
        (List.cons_sublist_cons.mpr (List.nil_sublist _)))
  | error e => exact redacted_of_context (redact_batchContext run [] (List.nil_sublist _))

/-! ## Lines -/

section Lines

variable {time : String} {run : Run} {total : Nat} {workers : Int}

theorem startOf_writable_iff : (startOf time run total workers).Writable ↔
    Json.isOversized total = false ∧ Json.isOversized workers = false := by
  have counts := writable_iff_counts (e := startOf time run total workers) (cutTexts (attribution run))
    [("total", total), ("max_workers", workers)] rfl rfl
  rw [counts]
  simp

/-- The end of a batch has a line, unless it gives a table and there are too many records to tell. -/
theorem outcomeOf_writable_iff {result : Except Tool.SweepError Table} :
    (outcomeOf time run total result).Writable ↔
      ∀ table, result = .ok table → Json.isOversized total = false := by
  cases result with
  | ok table =>
      have counts := writable_iff_counts (e := outcomeOf time run total (.ok table))
        (cutTexts (attribution run)) [("total", total)] rfl rfl
      rw [counts]
      simp
  | error e =>
      have counts := writable_iff_counts (e := outcomeOf time run total (.error e))
        (cutTexts (attribution run)) [] rfl rfl
      rw [counts]
      simp

end Lines

/-! ## The run -/

section Run

variable {tool : Tool} {records : List Tool.Record} {name : Option String} {project : Path}
  {workers : Int} {s : Session} {limit : Int}

/-- Two events that are recorded one after the other, the second of them made after the first. -/
theorem records_twice {log : Log} {s₁ : Session} {batch : Option String} (first : Event)
    (second : Session → Event) (attached : s₁.Attached log) (named : Log.Named batch)
    (free : ∀ file, file = none ∨ file = batch →
      s₁.tree.entryAt? (s₁.tree.locate (log.fileOf file)) ≠ some .folder) :
    let s₂ := s₁.record first batch
    Session.Records log s₁ (s₂.record (second s₂) batch) fun file =>
      if file = none ∨ file = batch then
        [first.redacted, (second s₂).redacted].filter fun e => e.Writable
      else [] := by
  intro s₂
  obtain ⟨attached', before⟩ := attached.record first named free
  obtain ⟨_, after⟩ := attached'.record (second s₂) named fun file own => before.tree.free (free file own)
  have joined : (fun file : Option String =>
      (if file = none ∨ file = batch then [first.redacted].filter fun e => e.Writable else []) ++
        if file = none ∨ file = batch then [(second s₂).redacted].filter fun e => e.Writable else []) =
      fun file => if file = none ∨ file = batch then
        [first.redacted, (second s₂).redacted].filter fun e => e.Writable else [] := by
    funext file
    split
    · rw [← List.filter_append, List.singleton_append]
    · rfl
  rw [← joined]
  exact before.trans after

/-- The log of a project can take the events of a batch: it can be opened, the id of the batch can name a
file, and no folder stands at the place of a file that the events go to. -/
structure Takes (log : Log) (t opened : FileTree) (id : String) : Prop where
  opens : log.ensureFolders t = (.ok (), opened)
  named : Log.Named (some id)
  free : ∀ file, file = none ∨ file = some id →
    opened.entryAt? (opened.locate (log.fileOf file)) ≠ some .folder

/-- What a batch leaves behind: a fresh id, the folders of the log, and at the end of the file of all
events and of its own the events of its start and its end, as far as they have a line. -/
structure Lifecycle (log : Log) (s s' : Session) (opened : FileTree) (run : Run) (total : Nat)
    (workers : Int) (result : Except Tool.SweepError Table) : Prop where
  fresh : ∀ n ≤ s.batches, Session.batchId s.batchStem n ≠ run.id
  batches : s'.batches = s.batches + 1
  folders : FileTree.Grown s.tree opened log.batchFolder
  events : log.Extends opened s'.tree fun file =>
    if file = none ∨ file = some run.id then
      [startOf s.time run total workers, outcomeOf s.time run total result].filter fun e => e.Writable
    else []
  named : ∀ e ∈ [startOf s.time run total workers, outcomeOf s.time run total result],
    e.context.lookup (.whole "batch_id") = some (.string run.id)
  start : (startOf s.time run total workers).Writable ↔
    Json.isOversized total = false ∧ Json.isOversized workers = false
  outcome : (outcomeOf s.time run total result).Writable ↔
    ∀ table, result = .ok table → Json.isOversized total = false

/-- The files of the log of a project do not depend on how much of them is read. -/
theorem Lifecycle.window {project : Path} {window : Int} {s s' : Session} {opened : FileTree} {run : Run}
    {total : Nat} {workers : Int} {result : Except Tool.SweepError Table}
    (lifecycle : Lifecycle (Log.ofProject project window) s s' opened run total workers result)
    (window' : Int) :
    Lifecycle (Log.ofProject project window') s s' opened run total workers result :=
  { lifecycle with events := lifecycle.events.window window' }

/-- A batch whose log is open and can take its events records its start and its end. -/
theorem exists_sweeping {log : Log} {s₁ : Session} (tool : Tool) (records : List Tool.Record)
    (name : Option String) (workers : Int) (attached : s₁.Attached log)
    (grown : FileTree.Grown s.tree s₁.tree log.batchFolder) (time : s₁.time = s.time)
    (host : s₁.host = s.host) (batches : s₁.batches = s.batches + 1)
    (named : Log.Named (some (Session.batchId s.batchStem (s.batches + 1))))
    (free : ∀ file, file = none ∨ file = some (Session.batchId s.batchStem (s.batches + 1)) →
      s₁.tree.entryAt? (s₁.tree.locate (log.fileOf file)) ≠ some .folder) :
    ∃ s', Run.sweeping ⟨Session.batchId s.batchStem (s.batches + 1), name⟩ tool records workers s₁ =
        ((tool.sweep s.host records workers).mapError .ofSweep, s') ∧
      Lifecycle log s s' s₁.tree ⟨Session.batchId s.batchStem (s.batches + 1), name⟩ records.length
        workers (tool.sweep s.host records workers) := by
  rw [← host]
  have both := records_twice
    (Run.startEvent ⟨Session.batchId s.batchStem (s.batches + 1), name⟩ s₁ records.length workers)
    (fun s₂ => Run.outcomeEvent ⟨Session.batchId s.batchStem (s.batches + 1), name⟩ s₂
      (tool.sweep s₁.host records workers)) attached named free
  dsimp only at both
  rw [redacted_startEvent, redacted_outcomeEvent _ _ fun _ => Tool.height_of_sweep,
    Session.time_record, time] at both
  refine ⟨_, Run.sweeping_eq _ _ _ _ _, ?_, both.batches.trans batches, grown, both.tree, ?_,
    startOf_writable_iff, outcomeOf_writable_iff⟩
  · intro n earlier same
    have equal := Session.batchId_inj.mp same
    omega
  · have fits := (named _ rfl).2
    refine List.forall_mem_cons.mpr ⟨lookup_contextOf ⟨_, name⟩ fits _, List.forall_mem_singleton.mpr ?_⟩
    cases tool.sweep s₁.host records workers with
    | ok table => exact lookup_contextOf ⟨_, name⟩ fits _
    | error e => exact lookup_contextOf ⟨_, name⟩ fits _

/-- A batch within the limit whose log can take its events records its start and its end. -/
theorem exists_run_of_takes (tool : Tool) (records : List Tool.Record) (name : Option String)
    (workers : Int) {window : Int} {opened : FileTree}
    (limited : rowLimit s.tree (some project) = .ok limit) (within : records.length ≤ limit)
    (takes : Takes (Log.ofProject project window) s.tree opened
      (Session.batchId s.batchStem (s.batches + 1))) :
    ∃ s', run tool records name (some project) workers s =
        ((tool.sweep s.host records workers).mapError .ofSweep, s') ∧
      Lifecycle (Log.ofProject project window) s s' opened
        ⟨Session.batchId s.batchStem (s.batches + 1), name⟩ records.length workers
        (tool.sweep s.host records workers) := by
  obtain ⟨window', s₁, attached, open_, warning?, same⟩ := Session.attachLog_of_ensureFolders
    (s := { s with batches := s.batches + 1 }) takes.opens
  have tree : s₁.tree = opened := by rw [same]
  obtain ⟨s', swept, lifecycle⟩ := exists_sweeping (s := s) tool records name workers open_
    (tree ▸ (Log.opened_of_ensureFolders takes.opens).2) (by rw [same]) (by rw [same])
    (by rw [same]) takes.named
    (tree ▸ takes.free)
  refine ⟨s', ?_, tree ▸ lifecycle.window window⟩
  rw [run_of_length_le limited within, opening, Work.bind_ok attached, swept]

/-- A batch over the limit of its project is refused, and nothing changes.  Any other batch of a project
whose log can take its events records its start and its end there, whatever it gives and whatever the
files hold before. -/
theorem run_lifecycle (tool : Tool) (records : List Tool.Record) (name : Option String) (project : Path)
    (workers : Int) (s : Session) (limit window : Int)
    (limited : rowLimit s.tree (some project) = .ok limit) :
    (limit < records.length →
      run tool records name (some project) workers s =
          (.error (.tooManyRows records.length limit), s) ∧
        (ProjectError.tooManyRows records.length limit).isValue = true) ∧
    (records.length ≤ limit → ∀ opened,
      Takes (Log.ofProject project window) s.tree opened (Session.batchId s.batchStem (s.batches + 1)) →
      ∃ s', run tool records name (some project) workers s =
          ((tool.sweep s.host records workers).mapError .ofSweep, s') ∧
        Lifecycle (Log.ofProject project window) s s' opened
          ⟨Session.batchId s.batchStem (s.batches + 1), name⟩ records.length workers
          (tool.sweep s.host records workers)) :=
  ⟨fun beyond => ⟨run_of_limit_lt limited beyond, rfl⟩,
    fun within _ takes => exists_run_of_takes tool records name workers limited within takes⟩

end Run

/-! ## Small batches -/

/-- The log of a fresh project takes the events of a batch. -/
theorem exists_takes_of_fresh {t : FileTree} {project : Path} (fresh : Log.Fresh t project) (window : Int)
    {id : String} (named : Log.Named (some id)) :
    ∃ opened, Takes (Log.ofProject project window) t opened id := by
  obtain ⟨opened, opens, keeps⟩ := fresh.keeps window
  refine ⟨opened, opens, named, fun file _ => ?_⟩
  rw [keeps.file]
  exact Log.recorded_ne_folder _

/-- A session without files. -/
def newSession : Session :=
  { tree := {}, time := "08:00", batchStem := "b" }

theorem named_first : Log.Named (some "b-000000000001") := by
  rintro _ ⟨rfl⟩
  exact ⟨by decide, by decide⟩

theorem batchId_first : Session.batchId newSession.batchStem (newSession.batches + 1) = "b-000000000001" := by
  decide

theorem run_lifecycle_one :
    let tool : Tool := { inputs := [{ id := "a" }], outputs := [{ id := "b", formula := "a + 1" }] }
    let records : List Tool.Record := [[("a", .string "2")]]
    let log := Log.ofProject {} 4096
    rowLimit newSession.tree (some {}) = .ok 100000 ∧
      ∃ opened s', Takes log newSession.tree opened "b-000000000001" ∧
        run tool records (some "sum") (some {}) 1 newSession =
          ((tool.sweep newSession.host records 1).mapError .ofSweep, s') ∧
        Lifecycle log newSession s' opened ⟨"b-000000000001", some "sum"⟩ 1 1
          (tool.sweep newSession.host records 1) := by
  intro tool records log
  have limited : rowLimit newSession.tree (some {}) = .ok 100000 := rfl
  obtain ⟨opened, takes⟩ := exists_takes_of_fresh Log.fresh_empty 4096 named_first
  obtain ⟨s', ran, lifecycle⟩ := (run_lifecycle tool records (some "sum") {} 1 newSession 100000 4096
    limited).2 (by decide) opened (batchId_first ▸ takes)
  rw [batchId_first] at lifecycle
  exact ⟨limited, opened, s', takes, ran, lifecycle⟩

/-- More workers than can be written in digits. -/
def countlessWorkers : Int :=
  Int.ofNat (Nat.pow 10 Number.digitLimit)

theorem isOversized_ofNat {n : Nat} (long : Nat.pow 10 Number.digitLimit ≤ n) :
    Json.isOversized (Int.ofNat n) = true := by
  rw [Json.isOversized, decide_eq_true_iff]
  exact long

theorem isOversized_countlessWorkers : Json.isOversized countlessWorkers = true := by
  rw [countlessWorkers]
  generalize enough : Nat.pow 10 Number.digitLimit = n
  exact isOversized_ofNat (Nat.le_of_eq enough)

theorem record_ne_nil (e : Event) : e.record ≠ [] := by
  unfold record Text.encodeUtf8
  rw [String.toList_append, List.flatMap_append]
  exact List.append_ne_nil_of_right_ne_nil _ (by decide)

/-- Of a batch with countless workers only the end is recorded, and not the start. -/
theorem not_started_countlessWorkers :
    let tool : Tool := { inputs := [], outputs := [] }
    let batch : Run := ⟨"b-000000000001", none⟩
    let log := Log.ofProject {} 4096
    rowLimit newSession.tree (some {}) = .ok 100000 ∧
      ∃ opened s' table, Takes log newSession.tree opened batch.id ∧
        tool.sweep newSession.host [] countlessWorkers = .ok table ∧
        run tool [] none (some {}) countlessWorkers newSession = (.ok table, s') ∧
        ¬log.Extends opened s'.tree fun file =>
          if file = none ∨ file = some batch.id then
            [startOf newSession.time batch 0 countlessWorkers,
              outcomeOf newSession.time batch 0 (.ok table)]
          else [] := by
  intro tool batch log
  have limited : rowLimit newSession.tree (some {}) = .ok 100000 := rfl
  have provided : Tool.IsProvided newSession.host [] countlessWorkers :=
    Tool.isProvided_of_length_le_one (by decide) _
  have swept : tool.sweep newSession.host [] countlessWorkers = .ok ⟨tool.sweepColumns, []⟩ := by
    rw [Tool.sweep, Tool.sweepRows_eq_sweepChunk provided]
    rfl
  obtain ⟨opened, takes⟩ := exists_takes_of_fresh Log.fresh_empty 4096 named_first
  obtain ⟨s', ran, lifecycle⟩ := exists_run_of_takes tool [] none countlessWorkers limited
    (by decide) (batchId_first ▸ takes)
  rw [batchId_first] at lifecycle
  rw [swept] at ran lifecycle
  refine ⟨limited, opened, s', _, takes, swept, ran, fun both => ?_⟩
  have start : ¬(startOf newSession.time batch 0 countlessWorkers).Writable := by
    rw [startOf_writable_iff, isOversized_countlessWorkers]
    exact fun both => by cases both.2
  have outcome : (outcomeOf newSession.time batch 0 (.ok ⟨tool.sweepColumns, []⟩)).Writable :=
    lifecycle.outcome.mpr fun _ _ => isOversized_of_le_one (by decide)
  have file := lifecycle.events.file none
  have file' := both.file none
  have kept : [startOf newSession.time batch 0 countlessWorkers,
      outcomeOf newSession.time batch 0 (.ok ⟨tool.sweepColumns, []⟩)].filter (fun e => e.Writable) =
      [outcomeOf newSession.time batch 0 (.ok ⟨tool.sweepColumns, []⟩)] := by
    rw [List.filter_cons_of_neg (by simpa using start), List.filter_cons_of_pos (by simpa using outcome),
      List.filter_nil]
  rw [file', if_pos (.inl rfl), if_pos (.inl rfl), List.length_nil, kept] at file
  have content := List.append_cancel_left (FileEntry.file.inj (Option.some.inj file))
  rw [List.flatMap_cons, List.append_left_eq_self] at content
  exact record_ne_nil _ content

end LessonCalc.Batch
