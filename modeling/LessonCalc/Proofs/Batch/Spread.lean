import LessonCalc.Batch.Sweep
import LessonCalc.Proofs.Tool.Rooms

/-!
# Spreading a sweep over workers

A sweep over several workers cuts its records into chunks, computes each chunk from the index of its
first record on in a process of its own, and puts the rows together in the order of the chunks.

* `coerce_blankNulls`: a null is read like a blank.
* `sweepChunks_chunksFrom`, `sweepChunks_of_not_isHandable`: the chunks of a list, one after the other, give
  what the whole list gives, unless one of them cannot be handed to a process.
* `sweepChunk_eq_ok_iff`, `sweepChunk_eq_error_iff`: a list gives one row for each record, or the error
  of its first record that cannot be read.
* `sweepChunk_eq_of_fits`: the rows are the same in every room that the tool and the records fit in.
* `sweepRows_spread`: so neither the rows nor the error of a sweep depend on the workers, if there are
  processes for the records and everything fits in their room.
-/

namespace LessonCalc.Tool

open LessonCalc.Formula

variable {room : Room} {t : Tool} {record : Record}

/-! ## Nulls -/

/-- A value with a blank for null. -/
def blankNull : Json → Json
  | .null => .string ""
  | v => v

theorem blankNulls_eq (record : Record) :
    blankNulls record = record.map fun (name, v) => (name, blankNull v) := by
  refine List.map_congr_left fun entry _ => ?_
  obtain ⟨name, v⟩ := entry
  cases v <;> rfl

theorem readEntry_blankNull (levels : Nat) (v : Json) :
    readEntry levels (blankNull v) = readEntry levels v := by
  cases v <;> rfl

/-- The texts that fields start with are no nulls. -/
theorem map_blankNull_texts (texts : List (String × String)) :
    (texts.map fun (id, s) => (id, Json.string s)).map (fun (name, v) => (name, blankNull v)) =
      texts.map fun (id, s) => (id, Json.string s) := by
  rw [List.map_map]
  rfl

/-- The fields of a record with blanks are those of the record, with blanks. -/
theorem fieldStates_blankNulls :
    t.fieldStates (blankNulls record) =
      (t.fieldStates record).map fun (name, v) => (name, blankNull v) := by
  have entered : (t.inputs.filterMap fun i => ((blankNulls record).lookup i.id).map fun v => (i.id, v)) =
      (t.inputs.filterMap fun i => (record.lookup i.id).map fun v => (i.id, v)).map
        fun (name, v) => (name, blankNull v) := by
    rw [List.map_filterMap]
    refine List.filterMap_congr fun i _ => ?_
    have found : (blankNulls record).lookup i.id = (record.lookup i.id).map blankNull := by
      rw [blankNulls_eq]
      exact Entries.get?_map blankNull
    rw [found]
    cases record.lookup i.id <;> rfl
  rw [fieldStates_eq, fieldStates_eq, Entries.map_insertAll, entered, map_blankNull_texts]

/-- A null is read like a blank. -/
theorem coerce_blankNulls (room : Room) (t : Tool) (record : Record) :
    t.coerce room (blankNulls record) = t.coerce room record := by
  have field : ∀ i, readEntry room.entry (fieldState (t.fieldStates (blankNulls record)) i) =
      readEntry room.entry (fieldState (t.fieldStates record) i) := by
    intro i
    unfold fieldState
    rw [fieldStates_blankNulls, Entries.get?_map]
    cases (t.fieldStates record).get? i.id with
    | none => rfl
    | some v => exact readEntry_blankNull _ v
  rw [coerce, coerce, readFields_congr fun i _ => field i]

/-! ## Chunks -/

/-- A list of records gives the rows of its front, and then those of the rest with the indices that
follow. -/
theorem sweepChunk_append (start : Nat) (front rest : List Record) :
    t.sweepChunk room start (front ++ rest) =
      (t.sweepChunk room start front).bind fun rows =>
        (t.sweepChunk room (start + front.length) rest).map (rows ++ ·) := by
  induction front generalizing start with
  | nil =>
      simp only [List.nil_append, sweepChunk, List.length_nil, Nat.add_zero]
      cases t.sweepChunk room start rest <;> rfl
  | cons record front ih =>
      have length : start + (record :: front).length = start + 1 + front.length := by
        simp only [List.length_cons]
        omega
      rw [List.cons_append, length]
      simp only [sweepChunk, ih]
      cases t.sweepRow room start record with
      | error e => rfl
      | ok row =>
          cases t.sweepChunk room (start + 1) front with
          | error e => rfl
          | ok rows => cases t.sweepChunk room (start + 1 + front.length) rest <;> rfl

/-- The rows of a list are those of its chunk at the front, and those of the rest with the indices that
follow a full chunk. -/
theorem sweepChunk_take_drop (size start : Nat) (records : List Record) :
    t.sweepChunk room start records =
      (t.sweepChunk room start (records.take size)).bind fun rows =>
        (t.sweepChunk room (start + size) (records.drop size)).map (rows ++ ·) := by
  -- The last chunk may be short, but then no record follows it.
  have next : t.sweepChunk room (start + size) (records.drop size) =
      t.sweepChunk room (start + (records.take size).length) (records.drop size) := by
    rw [List.length_take]
    rcases Nat.le_total size records.length with full | short
    · rw [Nat.min_eq_left full]
    · rw [List.drop_eq_nil_of_le short]
      rfl
  rw [next, ← sweepChunk_append, List.take_append_drop]

theorem sweepChunks_cons {host : Host} (start : Nat) (records : List Record)
    (rest : List (Nat × List Record)) :
    t.sweepChunks host ((start, records) :: rest) =
      (t.sweepHanded host start records).bind fun rows => (t.sweepChunks host rest).map (rows ++ ·) := by
  rw [sweepChunks]
  cases t.sweepHanded host start records with
  | error e => rfl
  | ok rows => cases t.sweepChunks host rest <;> rfl

/-- Records can be handed over exactly if those of the first chunk can, and those behind it. -/
theorem isHandable_take_drop (host : Host) (size : Nat) (records : List Record) :
    isHandable host records =
      (isHandable host (records.take size) && isHandable host (records.drop size)) := by
  unfold isHandable
  rw [← List.all_append, List.take_append_drop]

section Chunks

variable {host : Host} {size fuel start : Nat} {records : List Record}

theorem length_drop_le (positive : 0 < size) {record : Record} {rest : List Record}
    (enough : (record :: rest).length ≤ fuel + 1) : ((record :: rest).drop size).length ≤ fuel := by
  rw [List.length_drop]
  omega

/-- The chunks of a list that can be handed over, one after the other, give what the whole list gives. -/
theorem sweepChunks_chunksFrom (positive : 0 < size) (enough : records.length ≤ fuel)
    (handable : isHandable host records = true) :
    t.sweepChunks host (chunksFrom size fuel start records) =
      (t.sweepChunk host.worker start records).mapError .entry := by
  induction fuel generalizing start records with
  | zero =>
      have empty : records = [] := List.eq_nil_of_length_eq_zero (Nat.le_zero.mp enough)
      subst empty
      rfl
  | succ fuel ih =>
      cases records with
      | nil => rfl
      | cons record rest =>
          rw [isHandable_take_drop host size, Bool.and_eq_true] at handable
          rw [chunksFrom, sweepChunks_cons, ih (length_drop_le positive enough) handable.2, sweepHanded,
            if_pos handable.1, sweepChunk_take_drop size start (record :: rest)]
          cases t.sweepChunk host.worker start ((record :: rest).take size) with
          | error e => rfl
          | ok rows =>
              cases t.sweepChunk host.worker (start + size) ((record :: rest).drop size) <;> rfl

/-- Where a list cannot be handed over, that is the error, or one that the list has in any case. -/
theorem sweepChunks_of_not_isHandable (positive : 0 < size) (enough : records.length ≤ fuel)
    (handable : isHandable host records = false) :
    t.sweepChunks host (chunksFrom size fuel start records) = .error (.pool .nestedTooDeeply) ∨
      ∃ e, t.sweepChunk host.worker start records = .error e ∧
        t.sweepChunks host (chunksFrom size fuel start records) = .error (.entry e) := by
  induction fuel generalizing start records with
  | zero =>
      have empty : records = [] := List.eq_nil_of_length_eq_zero (Nat.le_zero.mp enough)
      subst empty
      cases handable
  | succ fuel ih =>
      cases records with
      | nil => cases handable
      | cons record rest =>
          rw [isHandable_take_drop host size] at handable
          rw [chunksFrom, sweepChunks_cons, sweepHanded, sweepChunk_take_drop size start (record :: rest)]
          cases first : isHandable host ((record :: rest).take size) with
          | false => exact .inl rfl
          | true =>
              rw [first, Bool.true_and] at handable
              rw [if_pos rfl]
              cases t.sweepChunk host.worker start ((record :: rest).take size) with
              | error e => exact .inr ⟨e, rfl, rfl⟩
              | ok rows =>
                  rcases ih (length_drop_le positive enough) handable with failed | ⟨e, run, failed⟩
                  · rw [failed]
                    exact .inl rfl
                  · rw [failed, run]
                    exact .inr ⟨e, rfl, rfl⟩

end Chunks

theorem chunkSize_pos (records workers : Nat) : 0 < chunkSize records workers :=
  Nat.le_max_left 1 _

/-! ## Rows and failures -/

/-- A list gives one row for each record. -/
theorem sweepChunk_eq_ok_iff {start : Nat} {records : List Record} {rows : List (List Cell)} :
    t.sweepChunk room start records = .ok rows ↔
      rows.length = records.length ∧ ∀ i record, records[i]? = some record →
        ∃ row, rows[i]? = some row ∧ t.sweepRow room (start + i) record = .ok row := by
  induction records generalizing start rows with
  | nil => simp [sweepChunk, eq_comm]
  | cons record rest ih =>
      constructor
      · intro run
        rw [sweepChunk] at run
        split at run
        · cases run
        · rename_i row first
          split at run
          · cases run
          · rename_i more later
            cases run
            obtain ⟨length, each⟩ := ih.mp later
            refine ⟨by simp [length], fun i record' place => ?_⟩
            cases i with
            | zero =>
                cases place
                exact ⟨row, rfl, first⟩
            | succ i =>
                obtain ⟨row', here, read⟩ := each i record' place
                refine ⟨row', here, ?_⟩
                rwa [Nat.add_right_comm] at read
      · rintro ⟨length, each⟩
        obtain ⟨row, here, first⟩ := each 0 record rfl
        cases rows with
        | nil => cases here
        | cons row' more =>
            cases here
            have later : t.sweepChunk room (start + 1) rest = .ok more := by
              refine ih.mpr ⟨Nat.succ.inj length, fun i record' place => ?_⟩
              obtain ⟨row', here, read⟩ := each (i + 1) record' place
              refine ⟨row', here, ?_⟩
              rwa [Nat.add_right_comm]
            rw [Nat.add_zero] at first
            simp only [sweepChunk, first, later]

/-- A list fails with the error of its first record that cannot be read. -/
theorem sweepChunk_eq_error_iff {start : Nat} {records : List Record} {e : EntryError} :
    t.sweepChunk room start records = .error e ↔
      ∃ i record, records[i]? = some record ∧ t.sweepRow room (start + i) record = .error e ∧
        ∀ j < i, ∀ earlier, records[j]? = some earlier →
          ∃ row, t.sweepRow room (start + j) earlier = .ok row := by
  induction records generalizing start with
  | nil => simp [sweepChunk]
  | cons record rest ih =>
      cases first : t.sweepRow room start record with
      | error e' =>
          simp only [sweepChunk, first]
          constructor
          · rintro same
            cases same
            exact ⟨0, record, rfl, first, fun j before => absurd before (Nat.not_lt_zero j)⟩
          · rintro ⟨i, record', place, failed, earlier⟩
            cases i with
            | zero =>
                cases place
                rw [Nat.add_zero, first] at failed
                cases failed
                rfl
            | succ i =>
                obtain ⟨row, read⟩ := earlier 0 (Nat.succ_pos i) record rfl
                rw [Nat.add_zero, first] at read
                cases read
      | ok row =>
          have later : t.sweepChunk room start (record :: rest) = .error e ↔
              t.sweepChunk room (start + 1) rest = .error e := by
            simp only [sweepChunk, first]
            cases t.sweepChunk room (start + 1) rest <;> simp
          rw [later, ih]
          constructor
          · rintro ⟨i, record', place, failed, earlier⟩
            rw [Nat.add_right_comm] at failed
            refine ⟨i + 1, record', place, failed, fun j before record'' place' => ?_⟩
            cases j with
            | zero =>
                cases place'
                exact ⟨row, first⟩
            | succ j =>
                obtain ⟨row', read⟩ := earlier j (Nat.lt_of_succ_lt_succ before) record'' place'
                rw [Nat.add_right_comm] at read
                exact ⟨row', read⟩
          · rintro ⟨i, record', place, failed, earlier⟩
            cases i with
            | zero =>
                cases place
                rw [Nat.add_zero, first] at failed
                cases failed
            | succ i =>
                refine ⟨i, record', place, ?_, fun j before record'' place' => ?_⟩
                · rwa [Nat.add_right_comm]
                · rw [Nat.add_right_comm]
                  exact earlier (j + 1) (Nat.succ_lt_succ before) record'' place'

/-! ## Rooms -/

/-- The row of a record is the same in two rooms that the tool and the record fit in. -/
theorem sweepRow_eq_of_fits {room room' : Room} (start : Nat) {record : Record}
    (fits : Fits room t record) (fits' : Fits room' t record) :
    t.sweepRow room start record = t.sweepRow room' start record := by
  simp only [sweepRow, rowCells, coerce_blankNulls, fits.coerce_eq fits', fits.resolve_eq fits']

/-- The room in which the rows of a sweep are computed: that of a process if they are spread. -/
def sweepRoom (host : Host) (records : List Record) (workers : Int) : Room :=
  if isSpread records workers then host.worker else host.sweep

/-- There are processes for a sweep, and its records can be handed to them, if it needs any. -/
def IsProvided (host : Host) (records : List Record) (workers : Int) : Prop :=
  isSpread records workers = true → host.poolError? workers = none ∧ isHandable host records = true

/-- A single record is not spread. -/
theorem isProvided_of_length_le_one {host : Host} {records : List Record} (few : records.length ≤ 1)
    (workers : Int) : IsProvided host records workers := by
  intro spread
  simp [isSpread, Nat.not_lt.mpr few] at spread

/-- Where there are processes for a sweep, it gives what its records give one after the other. -/
theorem sweepRows_eq_sweepChunk {host : Host} {records : List Record} {workers : Int}
    (provided : IsProvided host records workers) (t : Tool) :
    t.sweepRows host records workers =
      (t.sweepChunk (sweepRoom host records workers) 0 records).mapError .entry := by
  unfold sweepRows sweepRoom
  split
  next spread =>
    obtain ⟨pool, handable⟩ := provided spread
    rw [pool]
    exact sweepChunks_chunksFrom (chunkSize_pos _ _) (Nat.le_refl _) handable
  next => rfl

/-- Where its records cannot be handed to processes, a sweep fails. -/
theorem sweepRows_of_not_isHandable {host : Host} {records : List Record} {workers : Int}
    (spread : isSpread records workers = true) (pool : host.poolError? workers = none)
    (handable : isHandable host records = false) (t : Tool) :
    t.sweepRows host records workers = .error (.pool .nestedTooDeeply) ∨
      ∃ e, t.sweepChunk host.worker 0 records = .error e ∧
        t.sweepRows host records workers = .error (.entry e) := by
  rw [sweepRows, if_pos spread, pool]
  exact sweepChunks_of_not_isHandable (chunkSize_pos _ _) (Nat.le_refl _) handable

/-- A tool that shows its input, with a formula that needs six levels. -/
def parenTool : Tool :=
  { inputs := [{ id := "a" }], outputs := [{ id := "x", formula := "(a)" }] }

theorem evaluate_paren (limit : Nat) (x : Float) :
    evaluate limit "(a)" (toVariables [("a", x)]) = if limit < 6 then 0.0 else settle x := by
  have reading : (read (tokenize "(a)")).1 = .group (.name "a") true := by
    cbv
  rw [evaluate_numbers, reading]
  rfl

theorem sweepRow_parenTool (index : Nat) {text : String} {x : Float}
    (coerced : parenTool.coerce room [("a", .string text)] = .ok [("a", x)]) :
    parenTool.sweepRow room index [("a", .string text)] =
      .ok [.whole index, .number x, .number (if room.formula < 6 then 0.0 else settle x)] := by
  rw [sweepRow, coerce_blankNulls, coerced, ← evaluate_paren]
  rfl

/-- Two records for it. -/
def parenRecords : List Record :=
  [[("a", .string "1")], [("a", .string "2")]]

theorem sweepChunk_parenTool (room : Room) : parenTool.sweepChunk room 0 parenRecords =
    .ok [[.whole 0, .number 1.0, .number (if room.formula < 6 then 0.0 else settle 1.0)],
      [.whole 1, .number 2.0, .number (if room.formula < 6 then 0.0 else settle 2.0)]] := by
  have first : parenTool.coerce room [("a", .string "1")] = .ok [("a", 1.0)] := rfl
  have second : parenTool.coerce room [("a", .string "2")] = .ok [("a", 2.0)] := rfl
  simp only [parenRecords, sweepChunk, sweepRow_parenTool _ first, sweepRow_parenTool _ second]

end LessonCalc.Tool
