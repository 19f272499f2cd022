import LessonCalc.Batch.Run
import LessonCalc.Proofs.Batch.Spread
import LessonCalc.Proofs.Project.Session
import LessonCalc.Proofs.Tool.Run

/-!
# The rows of a batch

A batch reads a record like the fields of the tool and puts its numbers under the columns by name.

* `rowCells_eq`: where all names differ, the cells of a row are its index, its inputs and its outputs.
* `Run.sweeping_eq`, `exists_run_eq`: a batch within its limit gives what its sweep gives.
* `run_eq_renders`: so a row holds the numbers that the tool shows for its record, if there are processes
  for the batch and everything fits in their room.
-/

namespace LessonCalc.Tool

open LessonCalc.Formula

variable {host : Host} {room : Room} {t : Tool} {record : Record} {numbers : Entries String Float}

/-! ## Columns and cells -/

/-- The names of the columns that a tool asks for. -/
def columnNames (t : Tool) : List String :=
  rowColumn :: (t.inputs.map (·.id) ++ t.outputs.map (·.id))

/-- Where all names differ, there is a column for each of them. -/
theorem sweepColumns_eq (distinct : t.columnNames.Nodup) :
    t.sweepColumns = (rowColumn, .whole) ::
      ((t.inputs.map fun i => (i.id, ColumnType.number)) ++
        t.outputs.map fun o => (o.id, ColumnType.number)) := by
  refine Entries.insertAll_eq_append ?_
  simpa [Entries.keys, columnNames, Function.comp_def] using distinct

/-- Where the ids of the inputs differ, their numbers stand in the order of the inputs. -/
theorem keys_of_coerce {entered : Entered} (distinct : (t.inputs.map (·.id)).Nodup)
    (coerced : t.coerce room entered = .ok numbers) : numbers.keys = t.inputs.map (·.id) := by
  unfold coerce at coerced
  split at coerced
  · cases coerced
  · rename_i xs fields
    cases coerced
    have names := map_fst_readFields fields
    rw [Entries.ofList_eq_self (by rw [Entries.keys, names]; exact distinct)]
    exact names

/-- Where all names differ, the cells of a row are its index, its inputs and its outputs. -/
theorem rowCells_eq (index : Nat) (distinct : t.columnNames.Nodup)
    (names : numbers.keys = t.inputs.map (·.id)) :
    t.rowCells room index numbers = (rowColumn, .whole index) ::
        ((numbers.map fun (id, x) => (id, Cell.number x)) ++
          (resolve room.formula t.outputs (toVariables numbers)).map fun (o, x) => (o.id, Cell.number x)) ∧
      (t.rowCells room index numbers).keys = t.columnNames := by
  have outputs : (resolve room.formula t.outputs (toVariables numbers)).map (fun (o, _) => o.id) =
      t.outputs.map (·.id) := by
    rw [← map_fst_resolve room.formula t.outputs (toVariables numbers), List.map_map, map_fst_resolve]
    rfl
  rw [Entries.keys] at names
  have keys : Entries.keys ((rowColumn, Cell.whole index) ::
      ((numbers.map fun (id, x) => (id, Cell.number x)) ++
        (resolve room.formula t.outputs (toVariables numbers)).map fun (o, x) => (o.id, Cell.number x))) =
      t.columnNames := by
    simp [Entries.keys, columnNames, Function.comp_def, names, outputs]
  have cells : t.rowCells room index numbers = (rowColumn, .whole index) ::
      ((numbers.map fun (id, x) => (id, Cell.number x)) ++
        (resolve room.formula t.outputs (toVariables numbers)).map fun (o, x) => (o.id, Cell.number x)) :=
    Entries.insertAll_eq_append (by rw [List.singleton_append, keys]; exact distinct)
  exact ⟨cells, cells ▸ keys⟩

/-- The row of a record holds its cells in the order of the columns. -/
theorem sweepRow_of_coerce (index : Nat) (coerced : t.coerce room record = .ok numbers) :
    t.sweepRow room index record = .ok (t.sweepColumns.keys.map fun name =>
      ((t.rowCells room index numbers).get? name).getD .empty) := by
  rw [sweepRow, coerce_blankNulls, coerced]

/-- Where all names differ, a row is the index of the record, the numbers of its inputs and those of
its outputs. -/
theorem sweepRow_eq (index : Nat) (distinct : t.columnNames.Nodup)
    (coerced : t.coerce room record = .ok numbers) :
    t.sweepRow room index record = .ok (.whole index :: ((numbers.map fun (_, x) => .number x) ++
      (resolve room.formula t.outputs (toVariables numbers)).map fun (_, x) => .number x)) := by
  have inputs : (t.inputs.map (·.id)).Nodup :=
    (List.nodup_append.mp (List.nodup_cons.mp distinct).2).1
  obtain ⟨cells, keys⟩ := rowCells_eq index distinct (keys_of_coerce inputs coerced)
  have columns : t.sweepColumns.keys = (t.rowCells room index numbers).keys := by
    rw [keys, sweepColumns_eq distinct]
    simp [Entries.keys, columnNames, Function.comp_def]
  have row : t.sweepColumns.keys.map (fun name => ((t.rowCells room index numbers).get? name).getD .empty) =
      (t.rowCells room index numbers).map Prod.snd := by
    have found := Entries.map_get?_keys (keys ▸ distinct : (t.rowCells room index numbers).keys.Nodup)
    calc
      _ = ((t.rowCells room index numbers).keys.map (t.rowCells room index numbers).get?).map
            (·.getD .empty) := by rw [columns, List.map_map]; rfl
      _ = (t.rowCells room index numbers).map Prod.snd := by rw [found, List.map_map]; rfl
  rw [sweepRow_of_coerce index coerced, row, cells, List.map_cons, List.map_append, List.map_map, List.map_map]
  rfl

/-! ## What a tool shows -/

/-- Where all names differ, the row of a record holds what the tool shows for it. -/
theorem exists_sweepRow (index : Nat) (distinct : t.columnNames.Nodup)
    (coerced : t.coerce room record = .ok numbers) :
    ∃ computed, t.compute room record = .ok computed ∧ computed.map (·.output) = t.outputs ∧
      t.sweepRow room index record = .ok (.whole index :: ((numbers.map fun (_, x) => .number x) ++
        computed.map fun c => .number c.value)) := by
  obtain ⟨shown, computed⟩ := exists_compute coerced
  refine ⟨_, computed, ?_, ?_⟩
  · rw [List.map_map]
    exact map_fst_resolve room.formula t.outputs _
  · rw [sweepRow_eq index distinct coerced, List.map_map]
    rfl

/-- A sweep that gives rows has processes, if it needs any. -/
theorem isProvided_of_sweepRows {records : List Record} {workers : Int} {rows : List (List Cell)}
    (run : t.sweepRows host records workers = .ok rows) : IsProvided host records workers := by
  intro spread
  cases pool : host.poolError? workers with
  | some e =>
      rw [sweepRows, if_pos spread, pool] at run
      cases run
  | none =>
      refine ⟨rfl, (Bool.not_eq_false _).mp fun handable => ?_⟩
      rcases sweepRows_of_not_isHandable spread pool handable t with failed | ⟨e, _, failed⟩ <;>
        cases run.symm.trans failed

/-- A sweep that succeeds gives one row for each record. -/
theorem height_of_sweep {records : List Record} {workers : Int} {table : Table}
    (swept : t.sweep host records workers = .ok table) : table.height = records.length := by
  unfold sweep at swept
  split at swept
  next => cases swept
  next rows run =>
    cases swept
    rw [sweepRows_eq_sweepChunk (isProvided_of_sweepRows run)] at run
    cases chunk : t.sweepChunk (sweepRoom host records workers) 0 records with
    | error e =>
        rw [chunk] at run
        cases run
    | ok rows' =>
        rw [chunk] at run
        cases run
        exact (sweepChunk_eq_ok_iff.mp chunk).1

/-- A sweep of records that can be read gives one row for each of them, if there are processes for it. -/
theorem exists_sweep {records : List Record} {workers : Int}
    (provided : IsProvided host records workers)
    (coerced : ∀ record ∈ records, ∃ numbers,
      t.coerce (sweepRoom host records workers) record = .ok numbers) :
    ∃ rows, t.sweep host records workers = .ok ⟨t.sweepColumns, rows⟩ ∧
      rows.length = records.length ∧ ∀ i record, records[i]? = some record →
        ∃ row, rows[i]? = some row ∧
          t.sweepRow (sweepRoom host records workers) i record = .ok row := by
  unfold sweep
  rw [sweepRows_eq_sweepChunk provided]
  cases run : t.sweepChunk (sweepRoom host records workers) 0 records with
  | ok rows =>
      obtain ⟨height, each⟩ := sweepChunk_eq_ok_iff.mp run
      simp only [Nat.zero_add] at each
      exact ⟨rows, rfl, height, each⟩
  | error e =>
      obtain ⟨i, record, place, failed, _⟩ := sweepChunk_eq_error_iff.mp run
      obtain ⟨numbers, read⟩ := coerced record (List.mem_of_getElem? place)
      rw [sweepRow_of_coerce (0 + i) read] at failed
      cases failed

end LessonCalc.Tool

/-! ## Running a batch -/

namespace LessonCalc

namespace Batch

open LessonCalc.Tool

variable {tool : Tool} {records : List Record} {project : Option Path} {workers : Int} {s : Session}
  {limit : Int}

/-- Opens the log that a batch is to have, if it has a project. -/
def opening : Option Path → Work Unit
  | some folder => Session.attachLog folder
  | none => pure ()

/-- What a batch does once its log is open. -/
def Run.sweeping (run : Run) (tool : Tool) (records : List Record) (workers : Int) : Work Table := do
  run.started records.length workers
  match tool.sweep (← Work.host) records workers with
  | .error e =>
    run.failed e
    throw (.ofSweep e)
  | .ok table =>
    run.completed table.height
    return table

/-- A batch over the limit stops before anything is changed. -/
theorem run_of_limit_lt {name : Option String} (limited : rowLimit s.tree project = .ok limit)
    (beyond : limit < records.length) :
    run tool records name project workers s = (.error (.tooManyRows records.length limit), s) := by
  have looked : Work.look (fun t => rowLimit t project) s = (.ok limit, s) := by
    rw [Work.look, limited]
  unfold run
  rw [Work.bind_ok looked, if_pos beyond]
  rfl

/-- A batch within the limit gets an id and opens its log, and then sweeps its records. -/
theorem run_of_length_le {name : Option String} (limited : rowLimit s.tree project = .ok limit)
    (within : records.length ≤ limit) :
    run tool records name project workers s =
      (opening project >>= fun _ => Run.sweeping ⟨Session.batchId s.batchStem (s.batches + 1), name⟩ tool
        records workers) { s with batches := s.batches + 1 } := by
  have looked : Work.look (fun t => rowLimit t project) s = (.ok limit, s) := by
    rw [Work.look, limited]
  have fresh : Session.freshBatchId s = (.ok (Session.batchId s.batchStem (s.batches + 1)),
      { s with batches := s.batches + 1 }) := rfl
  unfold run
  rw [Work.bind_ok looked, if_neg (Int.not_lt.mpr within)]
  dsimp only
  rw [Work.bind_ok fresh]
  cases project <;> rfl

/-- The event that tells of the start of a batch. -/
def Run.startEvent (run : Run) (s : Session) (total : Nat) (workers : Int) : Event :=
  s.event .info .batchStarted s!"Batch started: {total} row(s)"
    (Event.batchContext run.id run.tool [("total", .int total), ("max_workers", .int workers)]) none

/-- The event that tells of the end of a batch. -/
def Run.outcomeEvent (run : Run) (s : Session) : Except SweepError Table → Event
  | .ok table =>
    s.event .info .batchCompleted s!"Batch completed: {table.height} row(s)"
      (Event.batchContext run.id run.tool [("total", .int table.height)]) none
  | .error e =>
    s.event .error .batchFailed s!"Batch failed: {e.message}" (Event.batchContext run.id run.tool [])
      (some "batch_error")

/-- Once its log is open, a batch records its start, and then its end. -/
theorem Run.sweeping_eq (run : Run) (tool : Tool) (records : List Record) (workers : Int) (s : Session) :
    let s₂ := s.record (run.startEvent s records.length workers) (some run.id)
    run.sweeping tool records workers s = ((tool.sweep s.host records workers).mapError .ofSweep,
      s₂.record (run.outcomeEvent s₂ (tool.sweep s.host records workers)) (some run.id)) := by
  intro s₂
  have host : s₂.host = s.host := Session.host_record _ _ _
  rw [← host]
  have started : run.started records.length workers s = (.ok (), s₂) := rfl
  have looked : Work.host s₂ = (.ok s₂.host, s₂) := rfl
  unfold Run.sweeping
  rw [Work.bind_ok started, Work.bind_ok looked]
  cases tool.sweep s₂.host records workers <;> rfl

theorem host_of_opening {s s' : Session} (opens : opening project s = (.ok (), s')) : s'.host = s.host := by
  cases project with
  | none =>
      cases opens
      rfl
  | some folder =>
      have host := Session.host_attachLog folder s
      rw [show Session.attachLog folder s = (.ok (), s') from opens] at host
      exact host

/-- A batch within the limit of its project whose log can be opened gives what its sweep gives. -/
theorem exists_run_eq (tool : Tool) (name : Option String) (workers : Int)
    (limited : rowLimit s.tree project = .ok limit) (within : records.length ≤ limit)
    (opened : ∀ folder, project = some folder →
      ∃ s', Session.attachLog folder { s with batches := s.batches + 1 } = (.ok (), s')) :
    ∃ s', run tool records name project workers s =
      ((tool.sweep s.host records workers).mapError .ofSweep, s') := by
  have opens : ∃ s', opening project { s with batches := s.batches + 1 } = (.ok (), s') := by
    cases project with
    | none => exact ⟨_, rfl⟩
    | some folder => exact opened folder rfl
  obtain ⟨s', opens⟩ := opens
  have host : s'.host = s.host := (host_of_opening opens :)
  rw [run_of_length_le limited within, Work.bind_ok opens, Run.sweeping_eq, host]
  exact ⟨_, rfl⟩

/-- It gives the table of its sweep, if there is one. -/
theorem exists_run {table : Table} (name : Option String) (limited : rowLimit s.tree project = .ok limit)
    (within : records.length ≤ limit)
    (opened : ∀ folder, project = some folder →
      ∃ s', Session.attachLog folder { s with batches := s.batches + 1 } = (.ok (), s'))
    (swept : tool.sweep s.host records workers = .ok table) :
    ∃ s', run tool records name project workers s = (.ok table, s') := by
  obtain ⟨s', ran⟩ := exists_run_eq tool name workers limited within opened
  rw [swept] at ran
  exact ⟨s', ran⟩

/-- The row of every record of a batch holds its index, the numbers that are read from the record and
the values that the tool shows for it, under columns in the same order, if there are processes for the
batch and everything fits in their room. -/
theorem run_eq_renders (tool : Tool) (records : List Record) (name : Option String)
    (project : Option Path) (workers : Int) (s : Session) (limit : Int) (distinct : tool.columnNames.Nodup)
    (limited : rowLimit s.tree project = .ok limit) (within : records.length ≤ limit)
    (opened : ∀ folder, project = some folder →
      ∃ s', Session.attachLog folder { s with batches := s.batches + 1 } = (.ok (), s'))
    (provided : IsProvided s.host records workers)
    (fits : ∀ record ∈ records,
      Fits s.host.render tool record ∧ Fits (sweepRoom s.host records workers) tool record)
    (coerced : ∀ record ∈ records, ∃ numbers, tool.coerce s.host.render record = .ok numbers) :
    ∃ table s', run tool records name project workers s = (.ok table, s') ∧
      table.columns = (rowColumn, .whole) ::
        ((tool.inputs.map fun i => (i.id, ColumnType.number)) ++
          tool.outputs.map fun o => (o.id, ColumnType.number)) ∧
      table.rows.length = records.length ∧
      ∀ i record, records[i]? = some record → ∃ numbers computed,
        tool.coerce s.host.render record = .ok numbers ∧ numbers.keys = tool.inputs.map (·.id) ∧
        tool.compute s.host.render record = .ok computed ∧ computed.map (·.output) = tool.outputs ∧
        table.rows[i]? = some (Cell.whole i :: ((numbers.map fun (_, x) => Cell.number x) ++
          computed.map fun c => Cell.number c.value)) := by
  have same : ∀ record ∈ records,
      tool.coerce (sweepRoom s.host records workers) record = tool.coerce s.host.render record :=
    fun record member => (fits record member).2.coerce_eq (fits record member).1
  obtain ⟨rows, swept, height, each⟩ := exists_sweep provided fun record member => by
    rw [same record member]
    exact coerced record member
  obtain ⟨s', ran⟩ := exists_run name limited within opened swept
  refine ⟨_, s', ran, sweepColumns_eq distinct, height, fun i record place => ?_⟩
  have member : record ∈ records := List.mem_of_getElem? place
  obtain ⟨row, here, read⟩ := each i record place
  obtain ⟨numbers, entered⟩ := coerced record member
  obtain ⟨computed, shown, outputs, row_eq⟩ := exists_sweepRow i distinct entered
  have inputs := (List.nodup_append.mp (List.nodup_cons.mp distinct).2).1
  rw [sweepRow_eq_of_fits i (fits record member).2 (fits record member).1, row_eq] at read
  cases read
  exact ⟨numbers, computed, entered, keys_of_coerce inputs entered, shown, outputs, here⟩

/-- Two records on two workers, with a null, a column that is no input and a column that is missing. -/
theorem run_eq_renders_pair :
    let tool : Tool :=
      { inputs := [{ id := "a", default := some 3.0 }, { id := "b" }]
        outputs := [{ id := "sum", formula := "a + b" }] }
    let first : Record := [("b", .null), ("other", .string "7"), ("a", .string "2x")]
    let second : Record := [("b", .float 4.5)]
    let s : Session := { tree := {}, time := "", batchStem := "" }
    tool.columnNames.Nodup ∧ rowLimit s.tree none = .ok 100000 ∧
      IsProvided s.host [first, second] 2 ∧
      (∀ record ∈ [first, second], Fits s.host.render tool record ∧
        Fits (sweepRoom s.host [first, second] 2) tool record) ∧
      tool.coerce s.host.render first = .ok [("a", 2.0), ("b", 0.0)] ∧
      tool.coerce s.host.render second = .ok [("a", 3.0), ("b", 4.5)] ∧
      ∃ table s', run tool [first, second] none none 2 s = (.ok table, s') ∧
        table.columns = [("row_index", .whole), ("a", .number), ("b", .number), ("sum", .number)] ∧
        table.rows.length = 2 ∧
        ∃ computed, tool.compute s.host.render second = .ok computed ∧
          table.rows[1]? = some ([.whole 1, .number 3.0, .number 4.5] ++
            computed.map fun c => .number c.value) := by
  intro tool first second s
  have distinct : tool.columnNames.Nodup := by decide
  have limited : rowLimit s.tree none = .ok 100000 := rfl
  have provided : IsProvided s.host [first, second] 2 := fun _ => ⟨rfl, rfl⟩
  have coerced : tool.coerce s.host.render first = .ok [("a", 2.0), ("b", 0.0)] := rfl
  have coerced' : tool.coerce s.host.render second = .ok [("a", 3.0), ("b", 4.5)] := rfl
  have shallow : (Formula.read (Formula.tokenize "a + b")).1.depth ≤ 960 := by
    cbv
  have fits : ∀ record ∈ [first, second], Fits s.host.render tool record := by
    refine fun record member => ⟨List.forall_mem_singleton.mpr shallow, fun i listed v value => ?_⟩
    have flat : ∀ record ∈ [first, second], ∀ entry ∈ record, entry.2.levels ≤ 1 := by
      decide
    exact (flat record member _ (Entries.mem_of_get? value)).trans (Nat.succ_le_succ (Nat.zero_le _))
  obtain ⟨table, s', ran, columns, height, each⟩ :=
    run_eq_renders tool [first, second] none none 2 s 100000 distinct limited (by decide)
      (fun _ given => by cases given) provided (fun record member => ⟨fits record member, fits record member⟩)
      (by
        intro record member
        rcases List.mem_cons.mp member with rfl | member
        · exact ⟨_, coerced⟩
        · exact ⟨_, List.mem_singleton.mp member ▸ coerced'⟩)
  refine ⟨distinct, limited, provided, fun record member => ⟨fits record member, fits record member⟩,
    coerced, coerced', table, s', ran, columns, height, ?_⟩
  obtain ⟨numbers, computed, entered, _, shown, _, row⟩ := each 1 second rfl
  rw [coerced'] at entered
  cases entered
  exact ⟨computed, shown, row⟩

/-- Two records on more workers than can be counted have no frame.  And workers that have no room for a
parenthesis give a zero where the tool shows one. -/
theorem run_ne_renders :
    let s : Session := { tree := {}, time := "", batchStem := "" }
    let narrow : Session := { s with host := { worker := { formula := 5 } } }
    parenTool.columnNames.Nodup ∧ rowLimit s.tree none = .ok 100000 ∧ parenRecords.length ≤ (100000 : Int) ∧
      (∀ record ∈ parenRecords, ∃ numbers, parenTool.coerce {} record = .ok numbers) ∧
      (∃ s', run parenTool parenRecords none none 2147483647 s = (.error (.pool .tooLarge), s')) ∧
      ∃ table s' computed, run parenTool parenRecords none none 2 narrow = (.ok table, s') ∧
        table.rows[0]? = some [.whole 0, .number 1.0, .number 0.0] ∧
        parenTool.compute narrow.host.render [("a", .string "1")] = .ok computed ∧
        computed.map (·.value) = [1.0] := by
  intro s narrow
  have limited : rowLimit s.tree none = .ok 100000 := rfl
  have within : parenRecords.length ≤ (100000 : Int) := by decide
  have coerced : ∀ record ∈ parenRecords, ∃ numbers, parenTool.coerce {} record = .ok numbers :=
    List.forall_mem_cons.mpr ⟨⟨_, rfl⟩, List.forall_mem_singleton.mpr ⟨_, rfl⟩⟩
  have spread : isSpread parenRecords 2 = true := rfl
  have swept : parenTool.sweep narrow.host parenRecords 2 = .ok ⟨parenTool.sweepColumns,
      [[.whole 0, .number 1.0, .number 0.0], [.whole 1, .number 2.0, .number 0.0]]⟩ := by
    rw [sweep, sweepRows_eq_sweepChunk (fun _ => ⟨rfl, rfl⟩), sweepRoom, if_pos spread, sweepChunk_parenTool]
    rfl
  have refused : parenTool.sweep s.host parenRecords 2147483647 = .error (.pool .tooLarge) := rfl
  obtain ⟨s₁, ran₁⟩ := exists_run_eq parenTool none 2147483647 limited within fun _ given => by cases given
  rw [refused] at ran₁
  obtain ⟨s₂, ran₂⟩ := exists_run (s := narrow) none limited within (fun _ given => by cases given) swept
  have entered : parenTool.coerce narrow.host.render [("a", .string "1")] = .ok [("a", 1.0)] := rfl
  obtain ⟨shown, computed⟩ := exists_compute entered
  refine ⟨by decide, limited, within, coerced, ⟨s₁, ran₁⟩, _, s₂, _, ran₂, rfl, computed, ?_⟩
  change [Formula.evaluate 960 "(a)" (toVariables [("a", 1.0)])] = [1.0]
  rw [evaluate_paren]
  rfl

end Batch

end LessonCalc
