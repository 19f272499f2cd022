import LessonCalc.Event.Log
import LessonCalc.Proofs.Json.Printed
import LessonCalc.Proofs.Json.Sorted

/-!
# Lines of events

An event is logged as one line of printable text, and the lines of a file are read back as the events
that they were written for.

* `Writable`, `Log.lineOf_of_writable`: which events have a line, and that it is that of the logged JSON.
* `readText_logged`: the line of an event is read as its logged JSON.
* `Log.readBytes_records`: a file that fits into the window is read as the events of its lines.
-/

namespace LessonCalc

open LessonCalc.Text

namespace Event

variable {e : Event}

/-- An event is logged with its keys sorted, and nothing else changed, if it is sound. -/
theorem logged_eq_sorted (sound : e.toJson.Holds Json.Sound) : e.logged = Json.sorted e.toJson := by
  rw [logged, Json.finiteOnly_of_sound sound]

/-- The entries that are logged of an event are its own, with sorted values and finite numbers, in another
order. -/
theorem logged_eq_object (e : Event) : ∃ entries, e.logged = .object entries ∧
    entries.Perm (((.whole "ts", Json.string e.time) :: e.timelessFields).map fun (k, v) =>
      (k, v.finiteOnly.sorted)) := by
  rw [logged, toJson, Json.finiteOnly_object]
  obtain ⟨entries, eq, permuted⟩ := Json.sorted_object (List.map _ _)
  rw [List.map_map] at permuted
  exact ⟨entries, eq, permuted⟩

/-- An event is sound if its context is: the other texts of an event are strings. -/
theorem sound_toJson (context : (Json.object e.context).Holds Json.Sound) :
    e.toJson.Holds Json.Sound := by
  have scalar : ∀ {v : Json}, (∀ i, v.child? i = none) → v.Sound → v.Holds Json.Sound :=
    fun leaf sound => (Json.holds_scalar_iff leaf).mpr sound
  refine Json.holds_object_iff.mpr ⟨⟨?_, ?_⟩, fun entry member => ?_⟩
  · simp [timelessFields, Entries.keys]
  · simp only [timelessFields, Entries.keys, List.map_cons, List.map_nil, List.forall_mem_cons]
    decide
  · simp only [timelessFields, List.mem_cons, List.not_mem_nil, or_false] at member
    rcases member with rfl | rfl | rfl | rfl | rfl | rfl | rfl
    · exact scalar (fun _ => rfl) rfl
    · exact scalar (fun _ => rfl) trivial
    · exact scalar (fun _ => rfl) rfl
    · exact scalar (fun _ => rfl) rfl
    · exact context
    · exact scalar (fun _ => rfl) rfl
    · cases e.errorCode with
      | none => exact scalar (fun _ => rfl) trivial
      | some text => exact scalar (fun _ => rfl) rfl

/-- An event has a line: its context is not nested too deeply, and no integer in it is too long. -/
def Writable (e : Event) : Prop :=
  Json.entriesLevels e.context ≤ nestingLimit ∧ Json.hasOversized e.logged = false

instance : DecidablePred Writable :=
  fun e => inferInstanceAs (Decidable (Json.entriesLevels e.context ≤ nestingLimit ∧ _))

/-- An event has a line if its context is not nested too deeply, and its version and the integers in its
context are not too long. -/
theorem writable_iff (e : Event) :
    e.Writable ↔ Json.entriesLevels e.context ≤ nestingLimit ∧
      Json.isOversized e.schemaVersion = false ∧ Json.hasOversized (.object e.context) = false := by
  have code : Json.hasOversized (.ofOption e.errorCode) = false := by
    cases e.errorCode <;> rfl
  unfold Writable
  rw [logged, Json.hasOversized_sorted_iff, Json.hasOversized_finiteOnly_iff, toJson, timelessFields]
  simp [Json.hasOversized, Json.entriesOversized, code]

theorem line_of_writable (writable : e.Writable) : e.line = .ok e.logged.line := by
  rw [line, if_neg (Nat.not_lt.mpr writable.1), writable.2, if_neg Bool.false_ne_true]

theorem line_of_not_writable (unwritable : ¬e.Writable) : ∃ fault, e.line = .error fault := by
  rw [line]
  split
  next => exact ⟨_, rfl⟩
  next shallow =>
    split
    next => exact ⟨_, rfl⟩
    next short => exact absurd ⟨Nat.not_lt.mp shallow, Bool.eq_false_iff.mpr short⟩ unwritable

/-! ## Reading a line -/

/-- An event is nested two levels deeper than the values of its context. -/
theorem levels_toJson_le (e : Event) : Json.levels e.toJson ≤ Json.entriesLevels e.context + 2 := by
  rw [toJson, Json.levels_object]
  refine Nat.succ_le_succ (Json.entriesLevels_le_iff.mpr fun entry member => ?_)
  simp only [timelessFields, List.mem_cons, List.not_mem_nil, or_false] at member
  rcases member with rfl | rfl | rfl | rfl | rfl | rfl | rfl
  case inr.inr.inr.inr.inl => simp only [Json.levels, Nat.le_refl]
  case inr.inr.inr.inr.inr.inr => cases e.errorCode <;> simp [Json.ofOption, Json.levels]
  all_goals simp [Json.levels]

/-- What is logged of an event is not nested too deeply to be read. -/
theorem levels_logged_le (sound : e.toJson.Holds Json.Sound) (writable : e.Writable) :
    Json.levels e.logged ≤ Json.depthLimit := by
  have sorted := Json.levels_sorted_le e.toJson
  have nested := levels_toJson_le e
  have limit := writable.1
  rw [nestingLimit] at limit
  rw [logged_eq_sorted sound, Json.depthLimit]
  omega

/-- The line of an event is read as its logged JSON. -/
theorem readText_logged (sound : e.toJson.Holds Json.Sound) (writable : e.Writable) :
    Json.readText e.logged.line.toList = .ok e.logged :=
  Json.readText_line ((logged_eq_sorted sound) ▸ sound.sorted) writable.2 (levels_logged_le sound writable)

/-! ## The line as bytes -/

/-- The characters of the line of an event. -/
def text (e : Event) : List Char :=
  e.logged.line.toList

theorem printable_text (e : Event) : ∀ c ∈ e.text, Printable c :=
  Json.printable_line e.logged

/-- The line of an event holds something, with no blank at either end. -/
theorem strip_text (e : Event) : strip e.text = e.text ∧ e.text ≠ [] := by
  obtain ⟨entries, eq, _⟩ := logged_eq_object e
  obtain ⟨more, braces⟩ := Json.line_object entries
  rw [text, eq]
  exact ⟨Json.strip_line_object entries, braces ▸ List.cons_ne_nil _ _⟩

/-- The bytes that record an event: its line with its end. -/
def record (e : Event) : Bytes :=
  encodeUtf8 (e.logged.line ++ "\n")

/-- Records are decoded to the lines of the events, each with its end. -/
theorem decodeUtf8Lossy_records (events : List Event) :
    decodeUtf8Lossy (events.flatMap record) = (events.map text).flatMap (· ++ ['\n']) := by
  induction events with
  | nil => rw [List.flatMap_nil, decodeUtf8Lossy, List.map_nil, List.flatMap_nil]
  | cons e events ih =>
      have ascii : ∀ c ∈ (e.logged.line ++ "\n").toList, c.toNat < 0x80 := by
        rw [String.toList_append]
        refine List.forall_mem_append.mpr ⟨fun c member => ?_, ?_⟩
        · have := (printable_text e c member).bounds
          omega
        · exact List.forall_mem_singleton.mpr (show '\n'.toNat < 0x80 by decide)
      rw [List.flatMap_cons, record, encodeUtf8, decodeUtf8Lossy_append ascii, ih, String.toList_append]
      rfl

end Event

namespace Log

open Event

/-! ## Lines of a log -/

theorem lineOf_of_writable {e : Event} (writable : e.Writable) :
    lineOf e = .ok (e.logged.line ++ "\n") := by
  rw [lineOf, line_of_writable writable]
  rfl

theorem lineOf_of_not_writable {e : Event} (unwritable : ¬e.Writable) :
    ∃ fault, lineOf e = .error fault := by
  obtain ⟨fault, none⟩ := line_of_not_writable unwritable
  rw [lineOf, none]
  exact ⟨fault, rfl⟩

/-- The records of a file are its lines. -/
theorem lines_records (events : List Event) : lines (events.flatMap record) = events.map text := by
  have printable : ∀ line ∈ events.map text, ∀ c ∈ line, Printable c :=
    List.forall_mem_map.mpr fun e _ => printable_text e
  have kept : (events.map text).map strip = events.map text := by
    rw [List.map_map]
    exact List.map_congr_left fun e _ => (strip_text e).1
  rw [lines, decodeUtf8Lossy_records, splitLines_flatMap printable, kept, List.filter_eq_self]
  refine List.forall_mem_map.mpr fun e _ => ?_
  rw [List.isEmpty_eq_false_iff.mpr (strip_text e).2]
  rfl

theorem values_text {events : List Event}
    (each : ∀ e ∈ events, e.toJson.Holds Json.Sound ∧ e.Writable) :
    values (events.map text) = .ok (events.map logged) := by
  induction events with
  | nil => rfl
  | cons e events ih =>
      obtain ⟨⟨sound, writable⟩, others⟩ := List.forall_mem_cons.mp each
      rw [List.map_cons, values, text, readText_logged sound writable, ih others]
      rfl

/-- The end of a file can be read unless its start is behind the largest offset. -/
theorem offsetFault?_eq_none_iff {limit : Offset} {window : Int} {content : Bytes} :
    offsetFault? limit window content = none ↔ content.length - window ≤ limit.val := by
  have bounds : limit.val < Nat.pow 2 63 := limit.isLt
  unfold offsetFault?
  dsimp only
  split
  next => simp; omega
  next =>
    split
    next => simp; omega
    next => simp; omega

/-- A file that fits into the window is read as the events of its records. -/
theorem readBytes_records (limit : Offset) {events : List Event} {window : Int}
    (each : ∀ e ∈ events, e.toJson.Holds Json.Sound ∧ e.Writable)
    (fits : ((events.flatMap record).length : Int) ≤ window) :
    readBytes limit window (events.flatMap record) = .ok (events.map fun e => Json.sorted e.toJson) := by
  rw [readBytes, offsetFault?_eq_none_iff.mpr (by omega)]
  simp only [tail, if_pos fits, lines_records, values_text each]
  rw [List.map_congr_left fun e member => logged_eq_sorted (each e member).1]

end Log

end LessonCalc
