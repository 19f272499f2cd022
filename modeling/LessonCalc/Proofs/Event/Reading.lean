import LessonCalc.Proofs.Event.Line

/-!
# What is read from a file of a log

Whatever the bytes of a file are, each line of its end holds a value, is no JSON and is skipped, or stops
the reading.

* `event?`, `stop?`: what a line holds, and what it stops the reading with.
* `values_eq_ok_iff`: lines are read exactly if none of them stops the reading.
* `Legible`, `eventsIn`, `readBytes_eq_ok_iff`: which files are read, and as which values.
-/

namespace LessonCalc.Log

open LessonCalc.Text

/-- The value that a line holds, if it is JSON that can be held. -/
def event? (line : List Char) : Option Json :=
  (Json.readText line).toOption

/-- What stops the reading at a line that is JSON but cannot be held. -/
def stop? (line : List Char) : Option LogError :=
  match Json.readText line with
  | .error (.tooManyDigits count) => some (.tooManyDigits count)
  | .error .tooDeep => some .tooDeep
  | _ => none

/-- Lines are read up to the first that stops the reading. -/
theorem values_eq (lines : List (List Char)) :
    values lines =
      match lines.findSome? stop? with
      | some stop => .error stop
      | none => .ok (lines.filterMap event?) := by
  induction lines with
  | nil => rfl
  | cons line rest ih =>
      rw [values, List.findSome?_cons, List.filterMap_cons, stop?, event?, ih]
      cases Json.readText line with
      | ok v => cases rest.findSome? stop? <;> rfl
      | error stop => cases stop <;> rfl

/-- Lines are read exactly if none of them stops the reading, as the values that they hold. -/
theorem values_eq_ok_iff {lines : List (List Char)} {found : List Json} :
    values lines = .ok found ↔
      (∀ line ∈ lines, stop? line = none) ∧ found = lines.filterMap event? := by
  rw [values_eq, ← List.findSome?_eq_none_iff]
  cases lines.findSome? stop? with
  | some stop => simp
  | none => simp [eq_comm]

/-- A file whose end is read: it does not start behind all offsets, and no line of it stops the reading. -/
structure Legible (limit : Offset) (window : Int) (content : Bytes) : Prop where
  reachable : content.length - window ≤ limit.val
  going : ∀ line ∈ lines (tail window content), stop? line = none

/-- The values that the lines in the end of a file hold. -/
def eventsIn (window : Int) (content : Bytes) : List Json :=
  (lines (tail window content)).filterMap event?

/-- A file is read exactly if its end is legible, as the values that the lines there hold. -/
theorem readBytes_eq_ok_iff {limit : Offset} {window : Int} {content : Bytes} {found : List Json} :
    readBytes limit window content = .ok found ↔
      Legible limit window content ∧ found = eventsIn window content := by
  unfold readBytes
  cases fault : offsetFault? limit window content with
  | some fault =>
      have beyond : ¬Legible limit window content := fun legible => by
        rw [offsetFault?_eq_none_iff.mpr legible.reachable] at fault
        cases fault
      simp [beyond]
  | none =>
      have reachable := offsetFault?_eq_none_iff.mp fault
      dsimp only
      rw [values_eq_ok_iff]
      exact and_congr_left' ⟨fun going => ⟨reachable, going⟩, fun legible => legible.going⟩

/-- A file of the log that is there is read as its bytes. -/
theorem readFile_of_read {log : Log} {t : FileTree} {p : Path} {content : Bytes}
    (file : t.read p = .ok content) : log.readFile t p = readBytes t.offsetLimit log.window content := by
  rw [readFile, file]

/-- The files of a project whose log holds the given bytes, among all events and for the batch `b`. -/
def filesOf (content : Bytes) : FileTree :=
  { entries := [(["logs"], .folder), (["logs", "events.ndjson"], .file content),
      (["logs", "batches"], .folder), (["logs", "batches", "b.ndjson"], .file content)] }

end LessonCalc.Log
