import LessonCalc.Proofs.Event.Writers

/-!
# Nothing is lost from a log

However the additions of several writers mix, nothing that they write is lost, written twice or torn, and
it is read back in the order in which it was added.

* `written`, `map_event_additions`: what a plan writes to a file.
* `IsWholeLines`, `Complete`: what the files of a log are like, and what is read from them.
* `reach_complete`: every state that the writers of a fresh project can reach has files of whole lines, and
  at the end the log is complete.
* `not_complete_deep_long`: not complete with respect to an event that has no line, or to a batch whose
  file cannot have its name.
-/

namespace LessonCalc.Log

open LessonCalc.Text

/-! ## What is written to a file -/

/-- Whether a writing is for a file: every one is for that of all events, one with an id for that of its
batch. -/
def Writing.IsFor (w : Writing) : Option String → Prop
  | none => True
  | some id => w.batch = some id

instance (w : Writing) : DecidablePred w.IsFor
  | none => inferInstanceAs (Decidable True)
  | some id => inferInstanceAs (Decidable (w.batch = some id))

/-- The events of a plan that are for a file and have a line, in order. -/
def written (plan : List Writing) (batch : Option String) : List Event :=
  (plan.filter fun w => w.event.Writable ∧ w.IsFor batch).map Writing.event

/-- A file that a log can have: it has its name, and the id of its batch is safe. -/
def Proper (batch : Option String) : Prop :=
  Fits batch ∧ ∀ id, batch = some id → isSafeId id = true

/-- A writing makes one addition to each file that it is for. -/
theorem filter_additions (w : Writing) {batch : Option String}
    (safe : ∀ id, batch = some id → isSafeId id = true) :
    w.additions.filter (·.batch = batch) = if w.IsFor batch then [⟨w.event, batch⟩] else [] := by
  obtain ⟨e, own⟩ := w
  cases batch with
  | none =>
      cases own with
      | none => rfl
      | some id => by_cases safe : isSafeId id = true <;> simp [Writing.additions, Log.additions,
          Writing.IsFor, safe]
  | some id =>
      cases own with
      | none => simp [Writing.additions, Log.additions, Writing.IsFor]
      | some own =>
          have safe := safe id rfl
          by_cases same : own = id
          · subst same
            simp [Writing.additions, Log.additions, Writing.IsFor, safe]
          · by_cases safe' : isSafeId own = true <;> simp [Writing.additions, Log.additions,
              Writing.IsFor, safe', same]

/-- Those of a writing that can be made are of an event that has a line. -/
theorem additions_to (w : Writing) {batch : Option String} (proper : Proper batch) :
    ((w.additions.filter Addition.Lands).filter (·.batch = batch)).map Addition.event =
      if w.event.Writable ∧ w.IsFor batch then [w.event] else [] := by
  have lands : (⟨w.event, batch⟩ : Addition).Lands ↔ w.event.Writable := and_iff_left proper.1
  rw [List.filter_comm, filter_additions w proper.2]
  by_cases isFor : w.IsFor batch <;> by_cases writable : w.event.Writable <;>
    simp [isFor, writable, lands]

/-- The additions to a file that a plan makes are those of the events that are written to it. -/
theorem map_event_additions (plan : List Writing) {batch : Option String} (proper : Proper batch) :
    (((plan.flatMap Writing.additions).filter Addition.Lands).filter (·.batch = batch)).map
      Addition.event = written plan batch := by
  induction plan with
  | nil => rfl
  | cons w plan ih =>
      rw [List.flatMap_cons, List.filter_append, List.filter_append, List.map_append, ih,
        additions_to w proper, written, written, List.filter_cons]
      by_cases both : w.event.Writable ∧ w.IsFor batch <;> simp [both]

theorem event_of_mem_additions {w : Writing} {a : Addition} (member : a ∈ w.additions) :
    a.event = w.event := by
  obtain ⟨e, batch⟩ := w
  unfold Writing.additions Log.additions at member
  rcases List.mem_cons.mp member with rfl | member
  · rfl
  · split at member
    next id =>
      split at member
      next => rw [List.mem_singleton.mp member]
      next => cases member
    next => cases member

/-! ## Whole files -/

/-- No event is left out if there are no more than the limit. -/
theorem takeTo_of_length_le {α : Type} {items : List α} {limit : Int}
    (enough : (items.length : Int) ≤ limit) : takeTo limit items = items := by
  rw [takeTo, if_neg (by omega), List.take_of_length_le (by omega)]

/-- A query that asks for all events gives them in reverse order, up to its limit. -/
theorem answer_all (limit : Int) (events : List Json) :
    answer { limit := limit } events = .ok (takeTo (min limit queryCap) events.reverse) :=
  rfl

/-- A file consists of lines of printable text, each with its end. -/
def IsWholeLines (content : Bytes) : Prop :=
  ∃ lines : List String, (∀ line ∈ lines, ∀ c ∈ line.toList, Printable c) ∧
    content = lines.flatMap fun line => encodeUtf8 (line ++ "\n")

theorem isWholeLines_records (events : List Event) : IsWholeLines (events.flatMap Event.record) := by
  have printable : ∀ line ∈ events.map fun e => e.logged.line, ∀ c ∈ line.toList, Printable c :=
    List.forall_mem_map.mpr fun e _ => Json.printable_line e.logged
  refine ⟨_, printable, ?_⟩
  rw [List.flatMap_map]
  rfl

/-- A file fits into the window of the log. -/
def FitsWindow (log : Log) (t : FileTree) (batch : Option String) : Prop :=
  ∀ content, t.read (log.fileOf batch) = .ok content → (content.length : Int) ≤ log.window

/-- Everything that was written through the log of a project is in its files, once and in order, and is
read from them: from the file of all events the latest first, and from that of a batch the earliest
first. -/
structure Complete {ι : Type} [DecidableEq ι] (log : Log) (program : ι → List Writing)
    (s : Writers ι) : Prop where
  order : ∀ batch, Proper batch → ∀ i,
    ((s.madeTo batch).filter (·.1 = i)).map (·.2.event) = written (program i) batch
  read : FitsWindow log s.tree none → ∀ limit : Int, (s.madeTo none).length ≤ limit →
    (s.madeTo none).length ≤ queryCap →
    log.read s.tree { limit := limit } =
      .ok ((s.madeTo none).map fun m => Json.sorted m.2.event.toJson).reverse
  readBatch : ∀ id, isSafeId id = true → Fits (some id) → FitsWindow log s.tree (some id) →
    log.readBatch s.tree id = .ok ((s.madeTo (some id)).map fun m => Json.sorted m.2.event.toJson)

namespace Faithful

variable {ι : Type} [DecidableEq ι] {log : Log} {program : ι → List Writing} {s : Writers ι}

/-- What was made could be made, and is of an event that its writer writes. -/
theorem lands (faithful : Faithful log program s) {m : ι × Addition} (member : m ∈ s.made) :
    m.2.Lands ∧ ∃ w ∈ program m.1, m.2.event = w.event := by
  have own : m.2 ∈ s.madeBy m.1 :=
    List.mem_map_of_mem (List.mem_filter.mpr ⟨member, decide_eq_true rfl⟩)
  have planned : m.2 ∈ ((program m.1).flatMap Writing.additions).filter Addition.Lands :=
    (faithful.course m.1).order ▸ List.mem_append_left _ own
  obtain ⟨inside, lands⟩ := List.mem_filter.mp planned
  obtain ⟨w, member, inside⟩ := List.mem_flatMap.mp inside
  exact ⟨of_decide_eq_true lands, w, member, event_of_mem_additions inside⟩

/-- A writer that is done has made the additions of its plan that can be made. -/
theorem madeBy_of_done (faithful : Faithful log program s) (done : s.Done) (i : ι) :
    s.madeBy i = ((program i).flatMap Writing.additions).filter Addition.Lands := by
  have order := (faithful.course i).order
  rwa [done i, List.flatten_nil, List.filter_nil, List.append_nil] at order

/-- In a file each writer has the events that it wrote to it, in order. -/
theorem order_of_done (faithful : Faithful log program s) (done : s.Done) {batch : Option String}
    (proper : Proper batch) (i : ι) :
    ((s.madeTo batch).filter (·.1 = i)).map (·.2.event) = written (program i) batch := by
  rw [← map_event_additions (program i) proper, ← faithful.madeBy_of_done done, Writers.madeBy,
    Writers.madeTo, List.filter_map, List.map_map, List.filter_comm]
  rfl

/-- A file is read as the events that were added to it. -/
theorem readFile (faithful : Faithful log program s)
    (sound : ∀ i, ∀ w ∈ program i, w.event.toJson.Holds Json.Sound) {batch : Option String}
    (fits : Fits batch) (short : FitsWindow log s.tree batch) :
    log.readFile s.tree (log.fileOf batch) =
      .ok ((s.madeTo batch).map fun m => Json.sorted m.2.event.toJson) := by
  have each : ∀ e ∈ (s.madeTo batch).map (·.2.event), e.toJson.Holds Json.Sound ∧ e.Writable := by
    refine List.forall_mem_map.mpr fun m member => ?_
    obtain ⟨lands, w, planned, same⟩ := faithful.lands (List.mem_filter.mp member).1
    exact ⟨same ▸ sound m.1 w planned, lands.1⟩
  rw [faithful.keeps.readFile fits each short, List.map_map]
  rfl

/-- When all writings are done, the log is complete. -/
theorem complete (faithful : Faithful log program s)
    (sound : ∀ i, ∀ w ∈ program i, w.event.toJson.Holds Json.Sound) (done : s.Done) :
    Complete log program s := by
  refine ⟨fun batch proper => faithful.order_of_done done proper, ?_, ?_⟩
  · intro short limit enough few
    have read := faithful.readFile sound fits_none short
    rw [fileOf_none] at read
    rw [Log.read, read]
    refine (answer_all limit _).trans ?_
    rw [takeTo_of_length_le]
    rw [List.length_reverse, List.length_map]
    exact le_min enough few
  · intro id safe fits short
    rw [readBatch, if_pos safe]
    exact faithful.readFile sound fits short

end Faithful

/-- Whatever the order of the steps of the writers of a fresh project, every file of the log consists of
whole lines, which are the records of the additions made to it; and when all writings are done, the log
is complete. -/
theorem reach_complete {ι : Type} [DecidableEq ι] {t : FileTree} {project : Path}
    (fresh : Fresh t project) (window : Int) (program : ι → List Writing)
    (sound : ∀ i, ∀ w ∈ program i, w.event.toJson.Holds Json.Sound) {s : Writers ι}
    (reach : Writers.Reach (ofProject project window)
      (Writers.start (ofProject project window) t program) s) :
    (∀ batch content, s.tree.read ((ofProject project window).fileOf batch) = .ok content →
      IsWholeLines content ∧
        content = ((s.madeTo batch).map (·.2.event)).flatMap Event.record) ∧
    (s.Done → Complete (ofProject project window) program s) := by
  have faithful := (Faithful.start fresh program).reach reach
  refine ⟨fun batch content read => ?_, faithful.complete sound⟩
  obtain rfl := faithful.keeps.read_fileOf read
  exact ⟨isWholeLines_records _, rfl⟩

/-! ## Small logs -/

theorem fresh_empty : Fresh {} {} := by
  refine ⟨rfl, fun place below => ?_⟩
  obtain ⟨more, rfl⟩ := below
  rfl

/-- An event at a time, with a context and no text. -/
def brief (time : String) (context : List (RawText × Json)) : Event :=
  { time := time, level := .info, kind := .batchStarted, context := context }

theorem sound_brief {time : String} {context : List (RawText × Json)}
    (sound : (Json.object context).Holds Json.Sound) : (brief time context).toJson.Holds Json.Sound :=
  Event.sound_toJson sound

theorem sound_empty : (Json.object []).Holds Json.Sound :=
  Json.holds_object_iff.mpr ⟨⟨List.nodup_nil, List.forall_mem_nil _⟩, List.forall_mem_nil _⟩

theorem sound_entry {key : RawText} {v : Json} (whole : key.isTorn = false)
    (sound : v.Holds Json.Sound) : (Json.object [(key, v)]).Holds Json.Sound :=
  Json.holds_object_iff.mpr ⟨⟨List.nodup_singleton _, List.forall_mem_singleton.mpr whole⟩,
    List.forall_mem_singleton.mpr sound⟩

/-- A single writer can finish its plan. -/
theorem exists_reach_done (log : Log) (t : FileTree) (plan : List Writing) :
    ∃ s : Writers Unit, Writers.Reach log (Writers.start log t fun _ => plan) s ∧ s.Done := by
  obtain ⟨s, reach, left⟩ := Writers.exists_reach_finished log
    (Writers.start log t fun _ : Unit => plan) ()
  exact ⟨s, reach, fun i => by rw [left, Function.update_self]⟩

/-- One writer writes an event of a batch and one without, and another writer one of the same batch. -/
def twoWriters (first : Bool) : List Writing :=
  if first then [⟨brief "08:00" [("tool", .string "é")], some "b"⟩, ⟨brief "08:01" [], none⟩]
  else [⟨brief "08:00" [("rows", .int 2)], some "b"⟩]

theorem reach_complete_two :
    Fresh {} {} ∧ (∀ i, ∀ w ∈ twoWriters i, w.event.toJson.Holds Json.Sound) ∧
    ∃ s : Writers Bool,
      Writers.Reach (ofProject {} 4096) (Writers.start (ofProject {} 4096) {} twoWriters) s ∧
      s.Done ∧ Complete (ofProject {} 4096) twoWriters s := by
  have sound : ∀ i, ∀ w ∈ twoWriters i, w.event.toJson.Holds Json.Sound := by
    intro i
    cases i with
    | false =>
        refine List.forall_mem_singleton.mpr (sound_brief (sound_entry rfl ?_))
        exact (Json.holds_scalar_iff fun _ => rfl).mpr trivial
    | true =>
        refine List.forall_mem_cons.mpr ⟨sound_brief (sound_entry rfl ?_),
          List.forall_mem_singleton.mpr (sound_brief sound_empty)⟩
        exact (Json.holds_scalar_iff fun _ => rfl).mpr rfl
  obtain ⟨s₁, first, left⟩ := Writers.exists_reach_finished (ofProject {} 4096)
    (Writers.start (ofProject {} 4096) {} twoWriters) true
  obtain ⟨s₂, second, left'⟩ := Writers.exists_reach_finished (ofProject {} 4096) s₁ false
  have done : s₂.Done := by
    intro i
    rw [left', left]
    cases i <;> rfl
  exact ⟨fresh_empty, sound, s₂, first.trans second, done,
    (reach_complete fresh_empty 4096 twoWriters sound (first.trans second)).2 done⟩

/-- Arrays, one inside the other. -/
def nested : Nat → Json
  | 0 => .null
  | n + 1 => .array [nested n]

theorem levels_nested (n : Nat) : Json.levels (nested n) = n + 1 := by
  induction n with
  | zero => rfl
  | succ n ih =>
      rw [nested, Json.levels_array, Json.itemsLevels_cons, ih]
      exact congrArg (· + 1) (Nat.max_zero _)

theorem sound_nested (n : Nat) : (nested n).Holds Json.Sound := by
  induction n with
  | zero => exact (Json.holds_scalar_iff fun _ => rfl).mpr trivial
  | succ n ih => exact Json.holds_array_iff.mpr ⟨trivial, List.forall_mem_singleton.mpr ih⟩

/-- An event of which the context is nested too deeply. -/
def deep : Event :=
  brief "08:00" [("parts", nested 255)]

theorem not_writable_nested (time : String) : ¬(brief time [("parts", nested 255)]).Writable := by
  intro writable
  have shallow := writable.1
  rw [brief, Json.entriesLevels_cons, levels_nested] at shallow
  exact absurd ((Nat.le_max_left _ _).trans shallow) (by decide)

theorem deep_not_writable : ¬deep.Writable :=
  not_writable_nested "08:00"

/-- An id of the given length. -/
def longId (n : Nat) : String :=
  String.ofList (List.replicate n 'a')

theorem utf8Len_replicate (n : Nat) : String.utf8Len (List.replicate n 'a') = n := by
  induction n with
  | zero => rfl
  | succ n ih =>
      rw [List.replicate_succ, String.utf8Len, ih]
      rfl

/-- An id of more letters than a name may have makes no name of a file. -/
theorem longId_not_fits {n : Nat} (long : FileTree.nameLimit < n) : ¬Fits (some (longId n)) := by
  rw [Fits, fileName, String.utf8ByteSize_append, longId, String.utf8ByteSize_ofList, utf8Len_replicate]
  omega

theorem longId_safe {n : Nat} (nonempty : n ≠ 0) : isSafeId (longId n) = true := by
  have letter : isSafeChar 'a' = true := by decide
  simp [isSafeId, longId, List.getLast?_replicate, nonempty, letter]

/-- An event that is nested too deeply is not read back, and neither are those of a batch with a long
id. -/
theorem not_complete_deep_long :
    (deep.toJson.Holds Json.Sound ∧ ∃ s : Writers Unit,
      Writers.Reach (ofProject {} 4096) (Writers.start (ofProject {} 4096) {} fun _ => [⟨deep, none⟩]) s ∧
      s.Done ∧
      (ofProject {} 4096).read s.tree { limit := 2000 } ≠ .ok [Json.sorted deep.toJson]) ∧
    (isSafeId (longId 300) = true ∧ (brief "08:00" []).toJson.Holds Json.Sound ∧ ∃ s : Writers Unit,
      Writers.Reach (ofProject {} 4096)
        (Writers.start (ofProject {} 4096) {} fun _ => [⟨brief "08:00" [], some (longId 300)⟩]) s ∧
      s.Done ∧
      (ofProject {} 4096).readBatch s.tree (longId 300) ≠ .ok [Json.sorted (brief "08:00" []).toJson]) := by
  refine ⟨⟨sound_brief (sound_entry rfl (sound_nested 255)), ?_⟩,
    longId_safe (by decide), sound_brief sound_empty, ?_⟩
  · obtain ⟨s, reach, done⟩ := exists_reach_done (ofProject {} 4096) {} [⟨deep, none⟩]
    have faithful := (Faithful.start fresh_empty fun _ => [⟨deep, none⟩]).reach reach
    refine ⟨s, reach, done, ?_⟩
    have order := faithful.order_of_done done ⟨fits_none, fun _ absent => by cases absent⟩ ()
    have nothing : written [⟨deep, none⟩] none = [] := by
      rw [written, List.filter_cons_of_neg (by simp [deep_not_writable])]
      rfl
    have all : (s.madeTo none).filter (·.1 = ()) = s.madeTo none :=
      List.filter_eq_self.mpr fun _ _ => decide_eq_true rfl
    rw [all, nothing] at order
    have file := faithful.keeps.find_fileOf fits_none
    rw [order] at file
    have absent : (ofProject {} 4096).readFile s.tree (ofProject {} 4096).globalFile = .ok [] := by
      rw [Log.readFile, FileTree.read, ← fileOf_none, file]
      rfl
    rw [Log.read, absent]
    exact fun same => by cases same
  · obtain ⟨s, reach, done⟩ := exists_reach_done (ofProject {} 4096) {}
      [⟨brief "08:00" [], some (longId 300)⟩]
    have faithful := (Faithful.start fresh_empty fun _ =>
      [⟨brief "08:00" [], some (longId 300)⟩]).reach reach
    refine ⟨s, reach, done, ?_⟩
    rw [readBatch, if_pos (longId_safe (by decide)), readFile, ← fileOf_some,
      faithful.keeps.read_fileOf_of_not_fits (longId_not_fits (by decide))]
    exact fun same => by cases same

end LessonCalc.Log
