import LessonCalc.Proofs.Batch.Rows
import LessonCalc.Proofs.Tool.References

/-!
# The columns of a tool without issues

The index of a row, the inputs and the outputs share the names of one table.  A check finds ids that
two of the tool's own parts have.  It does not find an id that is the name of the index column: such
an id takes the place of the index, and the table has one column less.

* `keys_sweepColumns`: where the ids differ, the columns are the index and the ids other than its name.
* `get?_rowCells_of_mem`: where the ids differ, each of them has its own number in a row.
* `exists_tabulates`: so a sweep shows each number under its id, and each index if there is room.
* `run_tabulates`: the table of a batch has a column for the index and one for each id exactly if no id
  is the name of the index column.
-/

namespace LessonCalc

/-- The cell of a row under a name. -/
def Table.cell? (t : Table) (row : Nat) (name : String) : Option Cell :=
  t.rows[row]?.bind fun cells => (t.names.zip cells).lookup name

namespace Tool

variable {host : Host} {room : Room} {t : Tool} {record : Record} {numbers : Entries String Float}

/-- The ids of the inputs and of the outputs of a tool. -/
def ids (t : Tool) : List String :=
  Lint.inputIds t ++ Lint.outputIds t

/-! ## Names -/

/-- The columns that a tool asks for beside the index are those of its ids. -/
theorem keys_declared (t : Tool) :
    Entries.keys ((t.inputs.map fun i => (i.id, ColumnType.number)) ++
      t.outputs.map fun o => (o.id, ColumnType.number)) = t.ids := by
  simp [Entries.keys, ids, Lint.inputIds, Lint.outputIds, Function.comp_def]

/-- Where the ids differ, the columns are the index and the ids other than its name. -/
theorem keys_sweepColumns (distinct : t.ids.Nodup) :
    t.sweepColumns.keys = rowColumn :: t.ids.filter (· ≠ rowColumn) := by
  unfold sweepColumns
  rw [Entries.keys_insertAll (by rwa [keys_declared]), keys_declared]
  simp [Entries.keys]

/-- The column of an id holds numbers. -/
theorem get?_sweepColumns_of_mem (distinct : t.ids.Nodup) {id : String} (member : id ∈ t.ids) :
    t.sweepColumns.get? id = some .number := by
  unfold sweepColumns
  refine Entries.get?_insertAll_of_mem (by rwa [keys_declared]) ?_
  rw [ids, Lint.inputIds, Lint.outputIds, List.mem_append, List.mem_map, List.mem_map] at member
  rw [List.mem_append, List.mem_map, List.mem_map]
  refine member.imp ?_ ?_
  all_goals
    rintro ⟨part, listed, same⟩
    exact ⟨part, listed, same ▸ rfl⟩

/-- The column of the index holds whole numbers unless an id has its name. -/
theorem get?_sweepColumns_rowColumn (unused : rowColumn ∉ t.ids) :
    t.sweepColumns.get? rowColumn = some .whole := by
  unfold sweepColumns
  rw [Entries.get?_insertAll_of_notMem (by rwa [keys_declared])]
  rfl

/-! ## Cells -/

/-- The numbers of a record and those of the outputs after them, by id. -/
def shownNumbers (room : Room) (t : Tool) (numbers : Entries String Float) : List (String × Float) :=
  numbers ++ (resolve room.formula t.outputs (toVariables numbers)).map fun (o, x) => (o.id, x)

theorem rowCells_eq_insertAll (index : Nat) (numbers : Entries String Float) :
    t.rowCells room index numbers = Entries.insertAll [(rowColumn, .whole index)]
      ((t.shownNumbers room numbers).map fun (id, x) => (id, Cell.number x)) := by
  rw [rowCells, shownNumbers, List.map_append, List.map_map]
  rfl

/-- The cells that are set in a row are those of the ids. -/
theorem keys_shownNumbers (names : numbers.keys = Lint.inputIds t) :
    Entries.keys ((t.shownNumbers room numbers).map fun (id, x) => (id, Cell.number x)) = t.ids := by
  have outputs : (resolve room.formula t.outputs (toVariables numbers)).map (fun (o, _) => o.id) =
      Lint.outputIds t := by
    rw [Lint.outputIds, ← map_fst_resolve room.formula t.outputs (toVariables numbers), List.map_map,
      map_fst_resolve]
    rfl
  rw [Entries.keys_map, Entries.keys, shownNumbers, List.map_append, List.map_map, ids, ← names,
    ← outputs]
  rfl

/-- Where the ids differ, each of them has its own number in a row. -/
theorem get?_rowCells_of_mem (index : Nat) (distinct : t.ids.Nodup)
    (names : numbers.keys = Lint.inputIds t) {id : String} {x : Float}
    (shown : (id, x) ∈ t.shownNumbers room numbers) :
    (t.rowCells room index numbers).get? id = some (.number x) := by
  rw [rowCells_eq_insertAll]
  refine Entries.get?_insertAll_of_mem (by rwa [keys_shownNumbers names]) ?_
  exact List.mem_map.mpr ⟨_, shown, rfl⟩

/-- A row has its index under the name of the index column unless an id has that name. -/
theorem get?_rowCells_rowColumn (index : Nat) (names : numbers.keys = Lint.inputIds t)
    (unused : rowColumn ∉ t.ids) :
    (t.rowCells room index numbers).get? rowColumn = some (.whole index) := by
  rw [rowCells_eq_insertAll,
    Entries.get?_insertAll_of_notMem (by rwa [keys_shownNumbers names])]
  rfl

/-! ## Tables -/

/-- A table of the numbers of a tool for records: a column for the index and one for each id that has
another name, with what is read and shown under the ids. -/
structure Tabulates (room : Room) (t : Tool) (records : List Record) (table : Table) : Prop where
  names : table.names = rowColumn :: t.ids.filter (· ≠ rowColumn)
  distinct : table.names.Nodup
  height : table.rows.length = records.length
  numbers : ∀ id ∈ t.ids, (id, .number) ∈ table.columns
  index : rowColumn ∉ t.ids → table.columns.head? = some (rowColumn, .whole) ∧
    ∀ i < records.length, table.cell? i rowColumn = some (.whole i)
  shown : ∀ i record, records[i]? = some record → ∃ numbers computed,
    t.coerce room record = .ok numbers ∧ numbers.keys = Lint.inputIds t ∧
    t.compute room record = .ok computed ∧ computed.map (·.output) = t.outputs ∧
    (∀ id x, (id, x) ∈ numbers → table.cell? i id = some (.number x)) ∧
    ∀ c ∈ computed, table.cell? i c.output.id = some (.number c.value)

/-- There is a column for the index and one for each id exactly if no id is the name of the index. -/
theorem Tabulates.length_names_iff {records : List Record} {table : Table}
    (tabulates : t.Tabulates room records table) :
    table.names.length = 1 + t.inputs.length + t.outputs.length ↔ rowColumn ∉ t.ids := by
  have count : t.ids.length = t.inputs.length + t.outputs.length := by
    simp [ids, Lint.inputIds, Lint.outputIds]
  have all : (t.ids.filter (· ≠ rowColumn)).length = t.ids.length ↔ rowColumn ∉ t.ids := by
    rw [List.length_filter_eq_length_iff]
    simp only [decide_eq_true_eq]
    exact ⟨fun others member => others _ member rfl, fun unused _ member same => unused (same ▸ member)⟩
  rw [tabulates.names, List.length_cons, ← all]
  omega

/-- The cell of a row of the sweep is the one that is set under its name. -/
theorem cell?_of_getElem? {rows : List (List Cell)} {i : Nat} {cells : Entries String Cell}
    {name : String} {cell : Cell} (member : name ∈ t.sweepColumns.keys)
    (row : rows[i]? = some (t.sweepColumns.keys.map fun name => (cells.get? name).getD .empty))
    (set : cells.get? name = some cell) :
    Table.cell? ⟨t.sweepColumns, rows⟩ i name = some cell := by
  have names : Table.names ⟨t.sweepColumns, rows⟩ = t.sweepColumns.keys := rfl
  rw [Table.cell?, row, Option.bind_some, names, ← List.map_prod_left_eq_zip,
    List.lookup_graph _ member, set, Option.getD_some]

/-- The sweep of records that can be read, by a tool whose ids differ, gives such a table. -/
theorem exists_tabulates {records : List Record} {workers : Int} (distinct : t.ids.Nodup)
    (provided : IsProvided host records workers)
    (coerced : ∀ record ∈ records, ∃ numbers,
      t.coerce (sweepRoom host records workers) record = .ok numbers) :
    ∃ table, t.sweep host records workers = .ok table ∧
      t.Tabulates (sweepRoom host records workers) records table := by
  obtain ⟨rows, swept, height, each⟩ := exists_sweep provided coerced
  generalize sweepRoom host records workers = room at coerced each ⊢
  have names : t.sweepColumns.keys = rowColumn :: t.ids.filter (· ≠ rowColumn) :=
    keys_sweepColumns distinct
  have inputs : (t.inputs.map (·.id)).Nodup := (List.nodup_append.mp distinct).1
  -- what a row holds under a name that is set in it
  have cell : ∀ i record numbers, records[i]? = some record → t.coerce room record = .ok numbers →
      ∀ name ∈ t.sweepColumns.keys, ∀ cell, (t.rowCells room i numbers).get? name = some cell →
      Table.cell? ⟨t.sweepColumns, rows⟩ i name = some cell := by
    intro i record numbers place read name member cell set
    obtain ⟨row, here, made⟩ := each i record place
    rw [sweepRow_of_coerce i read] at made
    cases made
    exact cell?_of_getElem? member here set
  refine ⟨_, swept, names, ?_, height, ?_, fun unused => ⟨?_, fun i within => ?_⟩,
    fun i record place => ?_⟩
  · exact Entries.nodup_keys_insertAll (List.nodup_singleton _)
  · intro id member
    exact Entries.mem_of_get? (get?_sweepColumns_of_mem distinct member)
  · refine Entries.head?_of_get? ?_ (get?_sweepColumns_rowColumn unused)
    rw [names]
    rfl
  · obtain ⟨numbers, read⟩ := coerced _ (List.getElem_mem within)
    refine cell i _ numbers (List.getElem?_eq_getElem within) read rowColumn ?_ _ ?_
    · rw [names]
      exact List.mem_cons_self
    · exact get?_rowCells_rowColumn i (keys_of_coerce inputs read) unused
  · obtain ⟨numbers, read⟩ := coerced record (List.mem_of_getElem? place)
    obtain ⟨shown, computed⟩ := exists_compute read
    have declared : numbers.keys = Lint.inputIds t := keys_of_coerce inputs read
    -- an id that is set in the row has a column
    have set : ∀ id x, (id, x) ∈ t.shownNumbers room numbers →
        Table.cell? ⟨t.sweepColumns, rows⟩ i id = some (.number x) := by
      intro id x listed
      refine cell i record numbers place read id ?_ _ (get?_rowCells_of_mem i distinct declared listed)
      have member : id ∈ t.ids := by
        rw [← keys_shownNumbers declared, Entries.keys_map]
        exact List.mem_map_of_mem listed
      exact List.mem_map_of_mem (Entries.mem_of_get? (get?_sweepColumns_of_mem distinct member))
    refine ⟨numbers, _, read, declared, computed, map_output_of_compute computed, ?_, fun c member => ?_⟩
    · exact fun id x listed => set id x (List.mem_append_left _ listed)
    · obtain ⟨⟨o, x⟩, listed, rfl⟩ := List.mem_map.mp member
      exact set o.id x (List.mem_append_right _ (List.mem_map.mpr ⟨_, listed, rfl⟩))

end Tool

/-! ## Running a batch -/

namespace Batch

open LessonCalc.Tool

/-- A batch of a tool without issues, for which there are processes, gives a table in which every input and
every output has its own column.  These are all columns besides the index exactly if no id is the name of
the index. -/
theorem run_tabulates (tool : Tool) (strict : Bool) (records : List Record) (name : Option String)
    (project : Option Path) (workers : Int) (s : Session) (limit : Int)
    (clean : Lint.check tool strict = []) (limited : rowLimit s.tree project = .ok limit)
    (within : records.length ≤ limit)
    (opened : ∀ folder, project = some folder →
      ∃ s', Session.attachLog folder { s with batches := s.batches + 1 } = (.ok (), s'))
    (provided : IsProvided s.host records workers)
    (coerced : ∀ record ∈ records, ∃ numbers,
      tool.coerce (sweepRoom s.host records workers) record = .ok numbers) :
    ∃ table s', run tool records name project workers s = (.ok table, s') ∧
      tool.Tabulates (sweepRoom s.host records workers) records table ∧
      (table.names.length = 1 + tool.inputs.length + tool.outputs.length ↔ rowColumn ∉ tool.ids) := by
  have distinct : tool.ids.Nodup := (Lint.check_eq_nil_iff.mp clean).1
  obtain ⟨table, swept, tabulates⟩ := exists_tabulates distinct provided coerced
  obtain ⟨s', ran⟩ := exists_run name limited within opened swept
  exact ⟨table, s', ran, tabulates, tabulates.length_names_iff⟩

/-- A tool with one input, and an output that does not use it. -/
def constantTool (input : String) : Tool :=
  { inputs := [{ id := input }], outputs := [{ id := "x", formula := "1" }] }

theorem check_constantTool {input : String} (strict : Bool) (other : input ≠ "x") :
    Lint.check (constantTool input) strict = [] := by
  have accepted : Formula.parse "1" = .ok (.number "1") := by
    cbv
  refine Lint.check_eq_nil_iff.mpr ⟨?_, fun i o place => ?_⟩
  · simpa [constantTool, Lint.inputIds, Lint.outputIds] using other
  · obtain ⟨rfl, rfl⟩ : i = 0 ∧ { id := "x", formula := "1" } = o := by
      rcases i with _ | i
      · exact ⟨rfl, Option.some.inj place⟩
      · cases place
    exact ⟨_, accepted, fun _ named => by cases named⟩

/-- A tool for which the index has its column. -/
theorem run_tabulates_index :
    let tool := constantTool "a"
    let record : Record := [("a", .string "7")]
    let s : Session := { tree := {}, time := "", batchStem := "" }
    Lint.check tool true = [] ∧ rowLimit s.tree none = .ok 100000 ∧
      tool.coerce {} record = .ok [("a", 7.0)] ∧ rowColumn ∉ tool.ids ∧
      ∃ table s', run tool [record, record] none none 1 s = (.ok table, s') ∧
        tool.Tabulates {} [record, record] table ∧ table.names.length = 3 ∧
        table.cell? 1 rowColumn = some (.whole 1) := by
  intro tool record s
  have clean : Lint.check tool true = [] := check_constantTool true (by decide)
  have limited : rowLimit s.tree none = .ok 100000 := rfl
  have coerced : tool.coerce {} record = .ok [("a", 7.0)] := rfl
  have unused : rowColumn ∉ tool.ids := by decide
  obtain ⟨table, s', ran, tabulates, count⟩ :=
    run_tabulates tool true [record, record] none none 1 s 100000 clean limited (by decide)
      (fun _ given => by cases given) (fun spread => by cases spread) (fun _ member => by
        rcases List.mem_pair.mp member with rfl | rfl <;> exact ⟨_, coerced⟩)
  exact ⟨clean, limited, coerced, unused, table, s', ran, tabulates, count.mpr unused,
    (tabulates.index unused).2 1 (by decide)⟩

/-- An input that is named like the index is no issue, and takes the place of the index. -/
theorem not_column_index_input :
    let tool := constantTool "row_index"
    let record : Record := [("row_index", .string "7")]
    let s : Session := { tree := {}, time := "", batchStem := "" }
    (∀ strict, Lint.check tool strict = []) ∧ rowLimit s.tree none = .ok 100000 ∧
      tool.coerce {} record = .ok [("row_index", 7.0)] ∧
      ∃ table s', run tool [record] none none 1 s = (.ok table, s') ∧
        table.names = ["row_index", "x"] ∧
        table.names.length ≠ 1 + tool.inputs.length + tool.outputs.length ∧
        ("row_index", .number) ∈ table.columns ∧
        table.cell? 0 "row_index" = some (.number 7.0) := by
  intro tool record s
  have clean : ∀ strict, Lint.check tool strict = [] := fun strict =>
    check_constantTool strict (by decide)
  have limited : rowLimit s.tree none = .ok 100000 := rfl
  have coerced : tool.coerce {} record = .ok [("row_index", 7.0)] := rfl
  obtain ⟨table, swept, tabulates⟩ :
      ∃ table, tool.sweep {} [record] 1 = .ok table ∧ tool.Tabulates {} [record] table :=
    exists_tabulates (Lint.check_eq_nil_iff.mp (clean true)).1 (fun spread => by cases spread) fun _ member =>
      ⟨_, List.mem_singleton.mp member ▸ coerced⟩
  obtain ⟨s', ran⟩ := exists_run none limited (by decide) (fun _ given => by cases given) swept
  have names : table.names = ["row_index", "x"] := tabulates.names
  obtain ⟨numbers, _, read, _, _, _, cells, _⟩ := tabulates.shown 0 record rfl
  cases coerced.symm.trans read
  exact ⟨clean, limited, coerced, table, s', ran, names, by rw [names]; decide,
    tabulates.numbers _ (by decide), cells _ _ List.mem_cons_self⟩

end Batch

end LessonCalc
