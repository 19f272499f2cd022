import LessonCalc.Proofs.Event.Completeness
import LessonCalc.Proofs.Event.Context
import LessonCalc.Proofs.Event.Growth
import LessonCalc.Proofs.Json.Canonical

/-!
# One record for each event

The record of an event is a line of ASCII text that is read as the JSON of the event.  Two events have one
record exactly if their JSON is the same but for the order of keys.  Whatever the state of the files,
writing an event adds its record to files of the log and changes nothing else; an event without a line is
refused, and nothing changes.

* `Added`: what stands at the places of a tree after bytes have been added to some files of a log.
* `added_addTo`, `added_write`: adding a line, and writing an event, in any state.
* `Event.IsLineOf`, `Event.isLineOf_record`: the record of an event as a line that tells it.
* `Event.record_eq_iff`: which events have one record.
* `write_canonical`: what writing two events comes to.
-/

namespace LessonCalc

open LessonCalc.Text

namespace Log

/-! ## Bytes added to files -/

/-- A tree is another one with bytes at the end of some of the given files of a log, which may be new, and
with new folders. -/
structure Added (log : Log) (t t' : FileTree) (files : List (Option String)) (bytes : Bytes) : Prop where
  home : t'.home = t.home
  entryAt? : ∀ place,
    t'.entryAt? place = t.entryAt? place ∨
    (t.entryAt? place = none ∧ t'.entryAt? place = some .folder) ∨
    ((∃ file ∈ files, place = t.locate (log.fileOf file)) ∧ t.entryAt? place ≠ some .folder ∧
      t'.entryAt? place = some (.file (contentAt (t.entryAt? place) ++ bytes)))

namespace Added

variable {log : Log} {t t' t'' : FileTree} {files files' : List (Option String)} {bytes : Bytes}

theorem refl (log : Log) (t : FileTree) (files : List (Option String)) (bytes : Bytes) :
    Added log t t files bytes :=
  ⟨rfl, fun _ => .inl rfl⟩

theorem locate (added : Added log t t' files bytes) (p : Path) : t'.locate p = t.locate p := by
  unfold FileTree.locate FileTree.start
  rw [added.home]

/-- New folders add nothing to files. -/
theorem of_grown {p : Path} (grown : FileTree.Grown t t' p) : Added log t t' files bytes := by
  refine ⟨grown.home, fun place => ?_⟩
  rcases grown.entryAt? place with same | ⟨_, free, folder⟩
  · exact .inl same
  · exact .inr (.inl ⟨free, folder⟩)

theorem mono (added : Added log t t' files bytes) (more : files ⊆ files') :
    Added log t t' files' bytes := by
  refine ⟨added.home, fun place => ?_⟩
  rcases added.entryAt? place with same | new | ⟨⟨file, member, here⟩, longer⟩
  · exact .inl same
  · exact .inr (.inl new)
  · exact .inr (.inr ⟨⟨file, more member, here⟩, longer⟩)

/-- Bytes are added to different files one after the other. -/
theorem trans (first : Added log t t' files bytes) (second : Added log t' t'' files' bytes)
    (apart : files.Disjoint files') : Added log t t'' (files ++ files') bytes := by
  have first' := first.mono (List.subset_append_left files files')
  refine ⟨second.home.trans first.home, fun place => ?_⟩
  rcases second.entryAt? place with same | ⟨free, folder⟩ | ⟨⟨file, member, rfl⟩, noFolder, longer⟩
  · rw [same]
    exact first'.entryAt? place
  · rcases first.entryAt? place with same | ⟨_, folder'⟩ | ⟨_, _, longer⟩
    · exact .inr (.inl ⟨same ▸ free, folder⟩)
    · rw [folder'] at free
      cases free
    · rw [longer] at free
      cases free
  · rw [first.locate] at noFolder longer ⊢
    rcases first.entryAt? (t.locate (log.fileOf file)) with same | ⟨_, folder⟩ | ⟨⟨file', member', here⟩, _⟩
    · rw [same] at noFolder longer
      exact .inr (.inr ⟨⟨file, List.mem_append_right _ member, rfl⟩, noFolder, longer⟩)
    · exact absurd folder noFolder
    · have same := (locate_fileOf_inj log t).mp here
      exact absurd (same ▸ member) (apart member')

end Added

variable {log : Log} {t t' : FileTree}

/-- What is added to a file comes at its end, and nothing else changes. -/
theorem added_append {file : Option String} {bytes : Bytes}
    (done : t.append (log.fileOf file) bytes = .ok t') :
    Added log t t' [file] bytes ∧
      t'.entryAt? (t.locate (log.fileOf file)) =
        some (.file (contentAt (t.entryAt? (t.locate (log.fileOf file))) ++ bytes)) := by
  have inside := locate_fileOf_ne_nil log t file
  have changed : t.entryAt? (t.locate (log.fileOf file)) ≠ some .folder ∧
      t' = t.set (t.locate (log.fileOf file))
        (.file (contentAt (t.entryAt? (t.locate (log.fileOf file))) ++ bytes)) := by
    unfold FileTree.append FileTree.update at done
    dsimp only at done
    split at done
    next => cases done
    next =>
      split at done
      next => cases done
      next content there =>
        cases done
        rw [there]
        exact ⟨by simp, rfl⟩
      next free =>
        cases done
        rw [free]
        exact ⟨by simp, rfl⟩
  obtain ⟨noFolder, rfl⟩ := changed
  refine ⟨⟨rfl, fun place => ?_⟩, by rw [FileTree.entryAt?_set inside, if_pos rfl]⟩
  rw [FileTree.entryAt?_set inside]
  split
  next here =>
    subst here
    exact .inr (.inr ⟨⟨file, List.mem_singleton_self file, rfl⟩, noFolder, rfl⟩)
  next => exact .inl rfl

/-- New folders add nothing to what a file holds. -/
theorem contentAt_of_grown {p : Path} (grown : FileTree.Grown t t' p) (place : List String) :
    contentAt (t'.entryAt? place) = contentAt (t.entryAt? place) := by
  rcases grown.entryAt? place with same | ⟨_, free, folder⟩
  · rw [same]
  · rw [free, folder]
    rfl

/-- Whatever comes of adding a line to a file, nothing else is added; if it succeeds, the line is at the end
of the file. -/
theorem added_addTo {file : Option String} {line : String} {result : Except FileError Unit}
    (done : addTo t (log.fileOf file) line = (result, t')) :
    Added log t t' [file] (encodeUtf8 line) ∧
      (result = .ok () → t'.entryAt? (t.locate (log.fileOf file)) =
        some (.file (contentAt (t.entryAt? (t.locate (log.fileOf file))) ++ encodeUtf8 line))) := by
  unfold addTo at done
  split at done
  next way =>
    cases done
    exact ⟨.of_grown (FileTree.Grown.ensureFolders way).1, fun success => by cases success⟩
  next t₁ way =>
    have grown := (FileTree.Grown.ensureFolders way).1
    split at done
    next t₂ longer =>
      cases done
      obtain ⟨added, last⟩ := added_append longer
      rw [grown.locate, contentAt_of_grown grown] at last
      have first : Added log t t₁ [] (encodeUtf8 line) := .of_grown grown
      exact ⟨first.trans added (List.disjoint_nil_left _), fun _ => last⟩
    next =>
      cases done
      exact ⟨.of_grown grown, fun success => by cases success⟩

/-- An addition adds the record of its event to its file. -/
theorem added_perform {a : Addition} {result : Except LogError Unit}
    (done : log.perform t a = (result, t')) :
    Added log t t' [a.batch] a.event.record ∧
      (result = .ok () → t'.entryAt? (t.locate (log.fileOf a.batch)) =
        some (.file (contentAt (t.entryAt? (t.locate (log.fileOf a.batch))) ++ a.event.record))) := by
  by_cases writable : a.event.Writable
  · rw [perform, lineOf_of_writable writable] at done
    dsimp only at done
    split at done
    next failed =>
      cases done
      exact ⟨(added_addTo failed).1, fun success => by cases success⟩
    next landed =>
      cases done
      obtain ⟨added, last⟩ := added_addTo landed
      exact ⟨added, fun _ => last rfl⟩
  · obtain ⟨fault, none⟩ := lineOf_of_not_writable writable
    rw [perform, none] at done
    cases done
    exact ⟨.refl log t _ _, fun success => by cases success⟩

/-- What stands at the place of a file when bytes are added to others: what did, or a new folder. -/
theorem Added.entryAt?_of_notMem {files : List (Option String)} {bytes : Bytes}
    (added : Added log t t' files bytes) {file : Option String} (other : file ∉ files) :
    t'.entryAt? (t.locate (log.fileOf file)) = t.entryAt? (t.locate (log.fileOf file)) ∨
      (t.entryAt? (t.locate (log.fileOf file)) = none ∧
        t'.entryAt? (t.locate (log.fileOf file)) = some .folder) := by
  rcases added.entryAt? (t.locate (log.fileOf file)) with same | new | ⟨⟨file', member, here⟩, _⟩
  · exact .inl same
  · exact .inr new
  · rw [(locate_fileOf_inj log t).mp here] at other
    exact absurd member other

/-- What other files hold stays as it is. -/
theorem Added.contentAt_of_notMem {files : List (Option String)} {bytes : Bytes}
    (added : Added log t t' files bytes) {file : Option String} (other : file ∉ files) :
    contentAt (t'.entryAt? (t.locate (log.fileOf file))) =
      contentAt (t.entryAt? (t.locate (log.fileOf file))) := by
  rcases added.entryAt?_of_notMem other with same | ⟨free, folder⟩
  · rw [same]
  · rw [free, folder]
    rfl

/-- Additions of one event to different files add its record to each of them, up to the first that cannot
be made. -/
theorem added_performAll (e : Event) {files : List (Option String)} (distinct : files.Nodup)
    {result : Except LogError Unit}
    (done : log.performAll t (files.map (⟨e, ·⟩)) = (result, t')) :
    Added log t t' files e.record ∧
      (result = .ok () → ∀ file ∈ files, t'.entryAt? (t.locate (log.fileOf file)) =
        some (.file (contentAt (t.entryAt? (t.locate (log.fileOf file))) ++ e.record))) := by
  induction files generalizing t with
  | nil =>
      cases done
      exact ⟨.refl log _ _ _, fun _ => List.forall_mem_nil _⟩
  | cons file files ih =>
      obtain ⟨fresh, distinct⟩ := List.nodup_cons.mp distinct
      rw [List.map_cons, performAll] at done
      split at done
      next failed =>
        cases done
        exact ⟨(added_perform failed).1.mono (by simp), fun success => by cases success⟩
      next t₁ made =>
        obtain ⟨first, here⟩ := added_perform made
        obtain ⟨second, there⟩ := ih distinct done
        refine ⟨first.trans second (List.singleton_disjoint.mpr fresh), fun success => ?_⟩
        refine List.forall_mem_cons.mpr ⟨?_, fun file' member => ?_⟩
        · -- the first file is not among those that follow
          have kept := second.entryAt?_of_notMem fresh
          rw [first.locate, here rfl] at kept
          rcases kept with same | ⟨free, _⟩
          · exact same
          · cases free
        · -- and those that follow have gained nothing before
          have later := there success file' member
          have differ : file' ∉ [file] := by
            rintro here
            exact fresh (List.mem_singleton.mp here ▸ member)
          rwa [first.locate, first.contentAt_of_notMem differ] at later

/-! ## Writing -/

/-- The files in which an event is recorded: that of all events, and that of its batch if the id of that is
safe. -/
def filesFor : Option String → List (Option String)
  | none => [none]
  | some id => if isSafeId id then [none, some id] else [none]

theorem additions_eq_map (e : Event) (batch : Option String) :
    additions e batch = (filesFor batch).map (⟨e, ·⟩) := by
  cases batch with
  | none => rfl
  | some id => by_cases safe : isSafeId id = true <;> simp [additions, filesFor, safe]

theorem nodup_filesFor (batch : Option String) : (filesFor batch).Nodup := by
  cases batch with
  | none => decide
  | some id => by_cases safe : isSafeId id = true <;> simp [filesFor, safe]

/-- Whatever comes of writing an event, its record is all that is added; if it succeeds, it is at the end of
each file for it. -/
theorem added_write {e : Event} {batch : Option String} {result : Except LogError Unit}
    (done : log.write t e batch = (result, t')) :
    Added log t t' (filesFor batch) e.record ∧
      (result = .ok () → ∀ file ∈ filesFor batch, t'.entryAt? (t.locate (log.fileOf file)) =
        some (.file (contentAt (t.entryAt? (t.locate (log.fileOf file))) ++ e.record))) := by
  rw [write_eq_performAll, additions_eq_map] at done
  exact added_performAll e (nodup_filesFor batch) done

/-- An event without a line is refused, and nothing changes. -/
theorem write_of_not_writable {e : Event} (unwritable : ¬e.Writable) (log : Log) (t : FileTree)
    (batch : Option String) : ∃ fault, log.write t e batch = (.error (.noLine fault), t) := by
  obtain ⟨fault, none⟩ := lineOf_of_not_writable unwritable
  exact ⟨fault, by rw [write, none]⟩

/-- An event with a line is written if the log is open and its files can take the line. -/
theorem Opened.write_eq_ok (opened : Opened log t) {e : Event} (writable : e.Writable)
    {batch : Option String}
    (ready : ∀ file ∈ filesFor batch, Fits file ∧ t.entryAt? (t.locate (log.fileOf file)) ≠ some .folder) :
    ∃ t', log.write t e batch = (.ok (), t') := by
  rw [write_eq_performAll, additions_eq_map]
  obtain ⟨t', done, _⟩ := opened.exists_performAll ((filesFor batch).map (⟨e, ·⟩))
    (List.forall_mem_map.mpr fun file member => ⟨writable, (ready file member).1⟩)
    (List.forall_mem_map.mpr fun file member => (ready file member).2)
  exact ⟨t', done⟩

end Log

/-! ## Records -/

namespace Event

variable {e e' : Event}

/-- Bytes are the line of an event: ASCII text that ends no line before its end, and that is read as the JSON
of the event but for the order of keys. -/
def IsLineOf (e : Event) (bytes : Bytes) : Prop :=
  ∃ text : String, bytes = encodeUtf8 (text ++ "\n") ∧
    (∀ c ∈ text.toList, c.toNat < 0x80 ∧ isLineBoundary c = false) ∧
    ∃ v, Json.ofString (text ++ "\n") = .ok v ∧ Json.Alike e.toJson v

theorem isLineOf_record (sound : e.toJson.Holds Json.Sound) (writable : e.Writable) :
    e.IsLineOf e.record := by
  have eq := logged_eq_sorted sound
  refine ⟨e.logged.line, rfl, fun c member => ?_, e.logged, ?_, ?_⟩
  · have printable := Json.printable_line e.logged c member
    have bounds := printable.bounds
    exact ⟨by omega, printable.not_boundary⟩
  · have shallow := levels_logged_le sound writable
    exact Json.ofString_line_end (eq ▸ sound.sorted) writable.2 shallow
  · rw [eq]
    exact Json.alike_sorted sound

/-- The record of an event tells its line. -/
theorem record_eq_iff_line : e.record = e'.record ↔ e.logged.line = e'.logged.line := by
  refine ⟨fun same => ?_, fun same => by rw [record, record, same]⟩
  have decoded := decodeUtf8Lossy_records [e]
  rw [List.flatMap_singleton, same, ← List.flatMap_singleton record e', decodeUtf8Lossy_records] at decoded
  have texts : e'.text ++ ['\n'] = e.text ++ ['\n'] := by simpa using decoded
  exact (String.toList_inj.mp (List.append_cancel_right texts)).symm

/-- Events have one record exactly if their JSON is the same but for the order of keys. -/
theorem record_eq_iff (sound : e.toJson.Holds Json.Sound) (sound' : e'.toJson.Holds Json.Sound)
    (writable : e.Writable) (writable' : e'.Writable) :
    e.record = e'.record ↔ Json.Alike e.toJson e'.toJson := by
  have short := writable.2
  have short' := writable'.2
  rw [logged_eq_sorted sound, Json.hasOversized_sorted_iff] at short
  rw [logged_eq_sorted sound', Json.hasOversized_sorted_iff] at short'
  rw [record_eq_iff_line, logged_eq_sorted sound, logged_eq_sorted sound',
    Json.line_sorted_eq_iff sound sound' short short']

end Event

namespace Log

/-- What writing an event comes to: it has a line unless its context is nested too deeply or an integer in it
is too long, and is refused without one.  Its record is all that is added to files, in whatever state they
are, and it is added to all files for it if they can take it. -/
structure Writes (e : Event) : Prop where
  writable_iff : e.Writable ↔ Json.entriesLevels e.context ≤ Event.nestingLimit ∧
    Json.isOversized e.schemaVersion = false ∧ Json.hasOversized (.object e.context) = false
  refused : ¬e.Writable → ∀ log t batch, ∃ fault, Log.write log t e batch = (.error (.noLine fault), t)
  line : e.Writable → e.IsLineOf e.record
  added : ∀ log t t' batch result, Log.write log t e batch = (result, t') →
    Added log t t' (filesFor batch) e.record ∧
    (result = .ok () → ∀ file ∈ filesFor batch, t'.entryAt? (t.locate (log.fileOf file)) =
      some (.file (contentAt (t.entryAt? (t.locate (log.fileOf file))) ++ e.record)))
  done : e.Writable → ∀ log t batch, Opened log t →
    (∀ file ∈ filesFor batch, Fits file ∧ t.entryAt? (t.locate (log.fileOf file)) ≠ some .folder) →
    ∃ t', Log.write log t e batch = (.ok (), t')

theorem writes_of_sound {e : Event} (sound : e.toJson.Holds Json.Sound) : Writes e where
  writable_iff := e.writable_iff
  refused := write_of_not_writable
  line := Event.isLineOf_record sound
  added := fun _ _ _ _ _ => added_write
  done := fun writable _ _ _ opened ready => opened.write_eq_ok writable ready

/-- Events are recorded canonically: two events that have a line add the same bytes to the files of a log
exactly if their JSON is the same but for the order of keys, and these bytes are one line of ASCII text that
is read as this JSON. -/
theorem write_canonical {e e' : Event} (sound : e.toJson.Holds Json.Sound)
    (sound' : e'.toJson.Holds Json.Sound) :
    Writes e ∧ Writes e' ∧
      (e.Writable → e'.Writable → (e.record = e'.record ↔ Json.Alike e.toJson e'.toJson)) :=
  ⟨writes_of_sound sound, writes_of_sound sound', Event.record_eq_iff sound sound'⟩

/-! ## Small events -/

/-- Two entries, in one of two orders. -/
def pair (first : Bool) (a b : RawText × Json) : List (RawText × Json) :=
  if first then [a, b] else [b, a]

theorem perm_pair (a b : RawText × Json) : (pair true a b).Perm (pair false a b) :=
  List.Perm.swap b a []

theorem sound_pair (first : Bool) {key key' : RawText} {v w : Json} (differ : key ≠ key')
    (whole : key.isTorn = false ∧ key'.isTorn = false)
    (sound : v.Holds Json.Sound ∧ w.Holds Json.Sound) :
    (Json.object (pair first (key, v) (key', w))).Holds Json.Sound := by
  rw [Json.holds_object_iff]
  cases first with
  | true => simp [pair, Json.Sound, Entries.keys, differ, whole, sound]
  | false => simp [pair, Json.Sound, Entries.keys, differ.symm, whole, sound]

/-- An object with a number and a text that is not ASCII, in one of two orders. -/
def inner (first : Bool) : Json :=
  .object (pair first ("u", .float 0.5) ("é", .string "𝄞\u2028\""))

/-- An event of which the context is in one of two orders, and so is an object inside of it. -/
def ordered (outer first : Bool) : Event :=
  brief "08:00" (pair outer ("b", inner first) ("a", .int 1))

theorem sound_inner (first : Bool) : (inner first).Holds Json.Sound := by
  refine sound_pair first (by decide) ⟨rfl, rfl⟩ ⟨?_, ?_⟩
  · exact (Json.holds_scalar_iff fun _ => rfl).mpr (by decide : (0.5 : Float).isFinite = true)
  · exact (Json.holds_scalar_iff fun _ => rfl).mpr rfl

theorem sound_context (outer first : Bool) :
    (Json.object (ordered outer first).context).Holds Json.Sound :=
  sound_pair outer (by decide) ⟨rfl, rfl⟩
    ⟨sound_inner first, (Json.holds_scalar_iff fun _ => rfl).mpr trivial⟩

theorem alike_context :
    Json.Alike (.object (ordered true true).context) (.object (ordered false false).context) := by
  have swapped := Json.alike_of_perm (sound_context true true) (perm_pair _ _)
  have inside := Json.alike_of_perm (sound_inner true) (perm_pair _ _)
  exact swapped.trans (Json.alike_of_value [("a", .int 1)] [] (sound_context false true) inside)

theorem alike_ordered : Json.Alike (ordered true true).toJson (ordered false false).toJson :=
  Json.alike_of_value
    [("ts", .string "08:00"), ("schema_version", .int 1), ("level", .string "info"),
      ("event_type", .string "batch_started")] _
    (sound_brief (sound_context true true)) alike_context

theorem writable_ordered (outer first : Bool) : (ordered outer first).Writable := by
  rw [Event.writable_iff]
  have one : Json.isOversized 1 = false := Event.isOversized_of_le_one (by decide)
  refine ⟨?_, one, ?_⟩
  · cases outer <;> cases first <;> decide
  · cases outer <;> cases first <;>
      simp [ordered, brief, pair, inner, Json.hasOversized, Json.entriesOversized, one]

/-- Two orders at two depths make no difference. -/
theorem write_canonical_ordered :
    (ordered true true).toJson.Holds Json.Sound ∧ (ordered false false).toJson.Holds Json.Sound ∧
      (ordered true true).Writable ∧ (ordered false false).Writable ∧
      (ordered true true).record = (ordered false false).record := by
  have sound : ∀ order, (ordered order order).toJson.Holds Json.Sound :=
    fun order => sound_brief (sound_context order order)
  have canonical := write_canonical (sound true) (sound false)
  exact ⟨sound true, sound false, writable_ordered true true, writable_ordered false false,
    (canonical.2.2 (writable_ordered true true) (writable_ordered false false)).mpr alike_ordered⟩

/-! ## Events without a line -/

theorem hasOversized_nested (n : Nat) : Json.hasOversized (nested n) = false := by
  induction n with
  | zero => rfl
  | succ n ih => rw [nested, Json.hasOversized, Json.itemsOversized, ih, Json.itemsOversized, Bool.or_false]

/-- An event of which the context is nested too deeply, at a later time. -/
def deepLater : Event :=
  brief "08:01" [("parts", nested 255)]

theorem hasOversized_nested_brief (time : String) :
    Json.hasOversized (brief time [("parts", nested 255)]).toJson = false := by
  have one : Json.isOversized 1 = false := Event.isOversized_of_le_one (by decide)
  simp [brief, Event.toJson, Event.timelessFields, Json.hasOversized, Json.entriesOversized, Json.ofOption,
    hasOversized_nested, one]

/-- Different times make different events. -/
theorem not_alike_deepLater : ¬Json.Alike deep.toJson deepLater.toJson := by
  intro alike
  have text : ∀ {s s' : RawText}, Json.Alike (.string s) (.string s') → s = s' := by
    intro s s' same
    cases same
    rfl
  cases alike with
  | object keys each =>
      have times := each "ts" (.string "08:00") (.string "08:01") List.mem_cons_self List.mem_cons_self
      exact absurd (text times) (by decide)

/-- Events that are nested too deeply have no lines, so that what is added for them does not tell them
apart, even though they are sound, their integers are short and their log takes lines. -/
theorem not_written_deep :
    (deep.toJson.Holds Json.Sound ∧ Json.hasOversized deep.toJson = false) ∧
    (deepLater.toJson.Holds Json.Sound ∧ Json.hasOversized deepLater.toJson = false) ∧
    ¬Json.Alike deep.toJson deepLater.toJson ∧
    ∃ t, Opened (ofProject {} 4096) t ∧ TakesLines (ofProject {} 4096) t ∧
      (∃ fault, (ofProject {} 4096).write t deep none = (.error (.noLine fault), t)) ∧
      ∃ fault, (ofProject {} 4096).write t deepLater none = (.error (.noLine fault), t) := by
  have sound : ∀ time, (brief time [("parts", nested 255)]).toJson.Holds Json.Sound :=
    fun _ => sound_brief (sound_entry rfl (sound_nested 255))
  obtain ⟨t, _, keeps⟩ := fresh_empty.keeps 4096
  have takes : TakesLines (ofProject {} 4096) t := by
    have free := keeps.file none
    rw [fileOf_none] at free
    rw [TakesLines, free]
    exact recorded_ne_folder []
  exact ⟨⟨sound _, hasOversized_nested_brief _⟩, ⟨sound _, hasOversized_nested_brief _⟩,
    not_alike_deepLater, t, keeps.opened, takes, write_of_not_writable deep_not_writable _ _ _,
    write_of_not_writable (not_writable_nested "08:01") _ _ _⟩

end Log

end LessonCalc
