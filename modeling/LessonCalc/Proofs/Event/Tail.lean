import LessonCalc.Proofs.Event.Reading
import LessonCalc.Proofs.Text.Lines

/-!
# The end of a log

Only the end of a long file is read.  A file of whole lines is cut where one of its lines begins, so that
the lines that are read are lines of the file, and their events are the last ones of the file.

* `IsLine`, `linesBehind`: the lines of a file, and those of them that start behind an offset.
* `afterFirstLine_drop`: a cut at any offset leaves the lines that start behind it.
* `lines_flatten`: the lines of text in a file are those of each of its lines.
* `readFile_window`: what is read from a file through a window of any size.
* `readFile_window_beyond`: nothing is read through a window so far below zero that no file has the offset.
-/

namespace LessonCalc.Log

open LessonCalc.Text

/-! ## The lines of a file -/

/-- A line of a file: its last byte, and only that one, is a line feed. -/
def IsLine (line : Bytes) : Prop :=
  ∃ body, 0x0A ∉ body ∧ line = body ++ [0x0A]

/-- Lines of a file, each with the offset of its first byte, when the first of them starts at the given
offset. -/
def placed (start : Nat) : List Bytes → List (Nat × Bytes)
  | [] => []
  | line :: rest => (start, line) :: placed (start + line.length) rest

/-- The lines of a file that start behind an offset. -/
def linesBehind (offset : Int) (ls : List Bytes) : List Bytes :=
  ((placed 0 ls).filter fun l => offset < l.1).map Prod.snd

theorem le_of_mem_placed {start : Nat} {ls : List Bytes} {l : Nat × Bytes}
    (member : l ∈ placed start ls) : start ≤ l.1 := by
  induction ls generalizing start with
  | nil => cases member
  | cons line rest ih =>
      rcases List.mem_cons.mp member with rfl | member
      · exact Nat.le_refl _
      · exact Nat.le_trans (Nat.le_add_right _ _) (ih member)

theorem map_snd_placed (start : Nat) (ls : List Bytes) : (placed start ls).map Prod.snd = ls := by
  induction ls generalizing start with
  | nil => rfl
  | cons line rest ih => rw [placed, List.map_cons, ih]

/-- All lines start behind an offset that lies before the first of them. -/
theorem filter_placed_of_lt {offset : Int} {start : Nat} (before : offset < start) (ls : List Bytes) :
    (placed start ls).filter (fun l => offset < l.1) = placed start ls := by
  refine List.filter_eq_self.mpr fun l member => decide_eq_true ?_
  have := le_of_mem_placed member
  omega

/-- The lines that start behind an offset are the last ones. -/
theorem linesBehind_suffix (offset : Int) (ls : List Bytes) : linesBehind offset ls <:+ ls := by
  suffices general : ∀ start, ((placed start ls).filter fun l => offset < l.1).map Prod.snd <:+ ls from
    general 0
  intro start
  induction ls generalizing start with
  | nil => exact List.suffix_refl _
  | cons line rest ih =>
      by_cases before : offset < start
      · rw [filter_placed_of_lt before, map_snd_placed]
      · rw [placed, List.filter_cons_of_neg (by simpa using before)]
        exact (ih _).trans (List.suffix_cons _ _)

/-! ## The cut -/

theorem afterFirstLine_lineFeed {body : Bytes} (inner : 0x0A ∉ body) (more : Bytes) :
    afterFirstLine (body ++ 0x0A :: more) = more := by
  have begun : (body ++ 0x0A :: more).dropWhile (· != 0x0A) = 0x0A :: more := by
    rw [List.dropWhile_append_of_pos]
    · rfl
    · exact fun b member => by simpa using fun same : b = 0x0A => inner (same ▸ member)
  rw [afterFirstLine, begun]

/-- A cut at any offset, inside a line or at its start, leaves the lines that start behind it. -/
theorem afterFirstLine_drop {ls : List Bytes} (ended : ∀ line ∈ ls, IsLine line) (offset : Nat) :
    afterFirstLine (ls.flatten.drop offset) = (linesBehind offset ls).flatten := by
  suffices general : ∀ start, afterFirstLine (ls.flatten.drop offset) =
      (((placed start ls).filter fun l => ((start + offset : Nat) : Int) < l.1).map Prod.snd).flatten by
    simpa only [linesBehind, Nat.zero_add] using general 0
  intro start
  induction ls generalizing start offset with
  | nil => simp [afterFirstLine, placed]
  | cons line rest ih =>
      obtain ⟨first, others⟩ := List.forall_mem_cons.mp ended
      rw [placed, List.filter_cons_of_neg (by simp), List.flatten_cons]
      by_cases inside : offset < line.length
      · -- the cut lies in the first line, of which at least the line feed is left
        obtain ⟨body, inner, rfl⟩ := first
        have within : offset ≤ body.length := by
          rw [List.length_append, List.length_singleton] at inside
          omega
        have cut : ((body ++ [0x0A]) ++ rest.flatten).drop offset =
            body.drop offset ++ 0x0A :: rest.flatten := by
          rw [List.append_assoc, List.drop_append_of_le_length within]
          rfl
        rw [cut, afterFirstLine_lineFeed fun member => inner (List.mem_of_mem_drop member),
          filter_placed_of_lt (by omega), map_snd_placed]
      · -- the first line is cut away as a whole
        have beyond : line.length ≤ offset := Nat.le_of_not_lt inside
        have same : start + line.length + (offset - line.length) = start + offset := by omega
        rw [List.drop_append, List.drop_eq_nil_of_le beyond, List.nil_append,
          ih others (offset - line.length) (start + line.length), same]

/-- The lines of a file that are read through a window: all of them if the file fits into the window, and
else those that start behind its start. -/
def linesRead (window : Int) (ls : List Bytes) : List Bytes :=
  if (ls.flatten.length : Int) ≤ window then ls else linesBehind (ls.flatten.length - window) ls

/-- The end of a file that is read consists of whole lines. -/
theorem tail_flatten {ls : List Bytes} (ended : ∀ line ∈ ls, IsLine line) (window : Int) :
    tail window ls.flatten = (linesRead window ls).flatten := by
  rw [tail, linesRead]
  split
  next => rfl
  next long => rw [afterFirstLine_drop ended, Int.toNat_of_nonneg (by omega)]

theorem linesRead_suffix (window : Int) (ls : List Bytes) : linesRead window ls <:+ ls := by
  rw [linesRead]
  split
  next => exact List.suffix_refl _
  next => exact linesBehind_suffix _ _

theorem linesRead_of_le {window : Int} {ls : List Bytes} (fits : (ls.flatten.length : Int) ≤ window) :
    linesRead window ls = ls :=
  if_pos fits

/-! ## The text of lines -/

/-- The lines of text before and behind a line feed are those of the bytes before and behind it. -/
theorem lines_lineFeed (body more : Bytes) :
    lines (body ++ 0x0A :: more) = lines (body ++ [0x0A]) ++ lines more := by
  have alone := decodeUtf8Lossy_lineFeed body []
  rw [decodeUtf8Lossy] at alone
  rw [lines, lines, lines, decodeUtf8Lossy_lineFeed, alone, splitLines, splitLinesFrom_lineFeed,
    List.map_append, List.filter_append]
  rfl

/-- The lines of text in a file are those of each of its lines. -/
theorem lines_flatten {ls : List Bytes} (ended : ∀ line ∈ ls, IsLine line) :
    lines ls.flatten = ls.flatMap lines := by
  induction ls with
  | nil =>
      rw [List.flatten_nil, lines, decodeUtf8Lossy]
      rfl
  | cons line rest ih =>
      obtain ⟨⟨body, -, rfl⟩, others⟩ := List.forall_mem_cons.mp ended
      rw [List.flatten_cons, List.append_assoc, List.singleton_append, lines_lineFeed, ih others,
        List.flatMap_cons]

/-- The events that a line of a file holds.  They are several if the line feed is not the only character
in it that ends a line of text. -/
def eventsOn (line : Bytes) : List Json :=
  (lines line).filterMap event?

/-- The events in the end of a file are those on each line that is read. -/
theorem eventsIn_flatten {ls : List Bytes} (ended : ∀ line ∈ ls, IsLine line) (window : Int) :
    eventsIn window ls.flatten = (linesRead window ls).flatMap eventsOn := by
  have kept : ∀ line ∈ linesRead window ls, IsLine line :=
    fun line member => ended line ((linesRead_suffix window ls).mem member)
  rw [eventsIn, tail_flatten ended, lines_flatten kept, List.filterMap_flatMap]
  rfl

/-- If no line of a file stops the reading, then none in its end does. -/
theorem legible_flatten {limit : Offset} {ls : List Bytes} {window : Int} (ended : ∀ line ∈ ls, IsLine line)
    (going : ∀ line ∈ lines ls.flatten, stop? line = none)
    (reachable : ls.flatten.length - window ≤ limit.val) : Legible limit window ls.flatten := by
  have suffix := linesRead_suffix window ls
  refine ⟨reachable, fun text member => going text ?_⟩
  rw [tail_flatten ended, lines_flatten fun line member => ended line (suffix.mem member)] at member
  rw [lines_flatten ended]
  obtain ⟨line, member, on⟩ := List.mem_flatMap.mp member
  exact List.mem_flatMap.mpr ⟨line, suffix.mem member, on⟩

/-! ## Windows -/

/-- A file of whole lines none of which stops the reading is read through a window as the events on the
lines that start behind the start of the window, or on all of them if the file fits into it.  They are the
last ones of the events that are read through a window into which the file fits.  The start of the window
must be an offset that a file can have; else nothing is read. -/
theorem readFile_window {log : Log} {t : FileTree} {p : Path} {ls : List Bytes}
    (file : t.read p = .ok ls.flatten) (ended : ∀ line ∈ ls, IsLine line)
    (going : ∀ line ∈ lines ls.flatten, stop? line = none) :
    (ls.flatten.length - log.window ≤ t.offsetLimit.val →
      tail log.window ls.flatten = (linesRead log.window ls).flatten ∧
      log.readFile t p = .ok ((linesRead log.window ls).flatMap eventsOn) ∧
      ∀ wide : Int, ls.flatten.length ≤ wide → ∃ whole,
        readFile ⟨log.folder, wide⟩ t p = .ok whole ∧
        (linesRead log.window ls).flatMap eventsOn <:+ whole) ∧
    (t.offsetLimit.val < ls.flatten.length - log.window →
      ∃ fault, log.readFile t p = .error (.offset fault)) := by
  have read : ∀ {window : Int}, ls.flatten.length - window ≤ t.offsetLimit.val →
      readFile ⟨log.folder, window⟩ t p = .ok ((linesRead window ls).flatMap eventsOn) := by
    intro window reachable
    rw [readFile_of_read file, readBytes_eq_ok_iff, eventsIn_flatten ended]
    exact ⟨legible_flatten ended going reachable, rfl⟩
  refine ⟨fun reachable => ⟨tail_flatten ended _, read reachable, fun wide fits => ?_⟩, fun beyond => ?_⟩
  · refine ⟨_, read (by omega), ?_⟩
    obtain ⟨older, whole⟩ := linesRead_suffix log.window ls
    rw [linesRead_of_le fits]
    exact ⟨older.flatMap eventsOn, by rw [← List.flatMap_append, whole]⟩
  · rw [readFile_of_read file, readBytes]
    cases stopped : offsetFault? t.offsetLimit log.window ls.flatten with
    | none => exact absurd (offsetFault?_eq_none_iff.mp stopped) (by omega)
    | some fault => exact ⟨fault, rfl⟩

/-- A file of two lines: a text of one character, which takes two bytes, and a number. -/
def textAndNumber : List Bytes :=
  [[0x22, 0xC3, 0xA9, 0x22, 0x0A], [0x37, 0x0A]]

/-- Through a window that starts inside the character only the number is read. -/
theorem readFile_window_inside :
    (ofProject {} 5).readFile (filesOf textAndNumber.flatten) (ofProject {} 5).globalFile =
      .ok [.int 7] := by
  have file : (filesOf textAndNumber.flatten).read (ofProject {} 5).globalFile =
      .ok textAndNumber.flatten := by
    decide
  have ended : ∀ line ∈ textAndNumber, IsLine line :=
    List.forall_mem_cons.mpr ⟨⟨[0x22, 0xC3, 0xA9, 0x22], by decide, rfl⟩,
      List.forall_mem_singleton.mpr ⟨[0x37], by decide, rfl⟩⟩
  have texts : lines textAndNumber.flatten = [['"', 'é', '"'], ['7']] := by cbv
  have going : ∀ line ∈ lines textAndNumber.flatten, stop? line = none := by
    rw [texts]
    exact List.forall_mem_cons.mpr ⟨rfl, List.forall_mem_singleton.mpr rfl⟩
  have read := ((@readFile_window (ofProject {} 5) _ _ _ file ended going).1 (by decide +kernel)).2.1
  have kept : linesRead (ofProject {} 5).window textAndNumber = [[0x37, 0x0A]] := by decide
  have digit : lines [0x37, 0x0A] = [['7']] := by cbv
  rw [read, kept, List.flatMap_singleton, eventsOn, digit]
  rfl

/-- A file of one line: an empty object. -/
def oneObject : List Bytes :=
  [[0x7B, 0x7D, 0x0A]]

/-- A log of which the end is sought far behind the end of its files. -/
def farBelow : Log :=
  ofProject {} (-1000000000000000000000000000000)

/-- Through a window far below zero nothing can be read, although no line starts behind its start. -/
theorem readFile_window_beyond :
    (∀ line ∈ oneObject, IsLine line) ∧ (∀ line ∈ lines oneObject.flatten, stop? line = none) ∧
      linesRead farBelow.window oneObject = [] ∧
      farBelow.readFile (filesOf oneObject.flatten) farBelow.globalFile = .error (.offset .tooLarge) := by
  have texts : lines oneObject.flatten = [['\x7b', '\x7d']] := by cbv
  refine ⟨List.forall_mem_singleton.mpr ⟨[0x7B, 0x7D], by decide, rfl⟩, ?_, by decide, rfl⟩
  rw [texts]
  exact List.forall_mem_singleton.mpr rfl

end LessonCalc.Log
