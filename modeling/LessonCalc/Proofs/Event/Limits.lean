import LessonCalc.Proofs.CommandLine.Events
import LessonCalc.Proofs.Event.Queries
import LessonCalc.Proofs.Event.Tail

/-!
# The size of an answer

A query names the most events that it wants, and no answer is to hold more events than the cap.  A limit
below zero is counted from the end of the answer, where neither of the two holds anything back.

* `takeTo_prefix`, `length_takeTo`: which items a limit leaves, and how many.
* `length_takeTo_le_iff`: the bound is met unless the limit is negative and leaves something.
* `read_limited`: what a query gives of the events that match it, and what the command for events shows.
* `read_above_cap`: a limit below zero lets a query pass the cap.
-/

namespace LessonCalc.Log

open CommandLine (ShownAs runEvents textOf)

/-! ## Items before an index -/

section

variable {α : Type} {limit : Int} {items : List α}

theorem takeTo_prefix (limit : Int) (items : List α) : takeTo limit items <+: items := by
  unfold takeTo
  split <;> exact List.take_prefix _ _

/-- A limit is the greatest number of items.  If it is negative, it tells how many are left out. -/
theorem length_takeTo (limit : Int) (items : List α) :
    ((takeTo limit items).length : Int) =
      if limit < 0 then max 0 (items.length + limit) else min limit items.length := by
  unfold takeTo
  split
  next negative =>
    rw [List.length_take]
    omega
  next nonneg =>
    rw [List.length_take]
    omega

/-- What is left of a query is within its limit and the cap, unless the limit is negative and there is more
than it leaves out. -/
theorem length_takeTo_le_iff :
    ((takeTo (min limit queryCap) items).length : Int) ≤ max 0 (min limit queryCap) ↔
      0 ≤ limit ∨ items.length + limit ≤ 0 := by
  have cap : queryCap = 2000 := rfl
  rw [length_takeTo]
  split <;> omega

end

/-! ## Answers -/

variable {log : Log} {t : FileTree} {events : List Json}

theorem read_eq_ok_iff_of_readFile (logged : log.readFile t log.globalFile = .ok events) {query : Query}
    {found : List Json} :
    log.read t query = .ok found ↔ (∀ e ∈ events, query.CanAsk e) ∧
      found = takeTo (min query.limit queryCap) (events.filter query.matches).reverse := by
  rw [read, bind_eq_ok_iff]
  simp only [logged, Except.ok.injEq, exists_eq_left', answer_eq_ok_iff]

theorem Query.canAsk_of_hasContext (query : Query) {e : Json} (has : hasContext e = true) :
    query.CanAsk e :=
  ⟨fun _ => isObject_of_hasContext has, fun _ _ _ => has⟩

/-- A query is answered if it can ask all events of the log, as every query can if their contexts are
objects.  The answer starts with the latest event that matches, and goes on without a gap.  It holds as
many events as the limit and the cap allow, except that a limit below zero tells how many of the oldest
are left out: then the bound is met only if all are.  The command for events shows nothing else. -/
theorem read_limited (logged : log.readFile t log.globalFile = .ok events) (query : Query) :
    ((∃ found, log.read t query = .ok found) ↔ ∀ e ∈ events, query.CanAsk e) ∧
    ((∀ e ∈ events, hasContext e = true) → ∃ found, log.read t query = .ok found) ∧
    ∀ found, log.read t query = .ok found →
      found <+: (events.filter query.matches).reverse ∧
      (found.length : Int) =
        (if query.limit < 0 then max 0 (events.countP query.matches + query.limit)
          else min (min query.limit queryCap) (events.countP query.matches)) ∧
      ((found.length : Int) ≤ max 0 (min query.limit queryCap) ↔
        0 ≤ query.limit ∨ events.countP query.matches + query.limit ≤ 0) ∧
      ∀ (s : Session) (folder : String),
        s.openLog (Path.ofString folder) defaultWindow = (.ok log, { s with tree := t }) →
        ∃ lines, ShownAs found lines ∧ ((runEvents folder query).run s).1.out =
          if found = [] then "No events found.\n" else textOf lines := by
  have answered := fun found => @read_eq_ok_iff_of_readFile _ _ _ logged query found
  have given : (∃ found, log.read t query = .ok found) ↔ ∀ e ∈ events, query.CanAsk e := by
    simp only [answered, exists_and_left, exists_eq, and_true]
  refine ⟨given, fun has => given.mpr fun e member => query.canAsk_of_hasContext (has e member),
    fun found read => ?_⟩
  have count : (events.filter query.matches).reverse.length = events.countP query.matches := by
    rw [List.length_reverse, List.countP_eq_length_filter]
  obtain ⟨-, same⟩ := (answered found).mp read
  refine ⟨same ▸ takeTo_prefix _ _, ?_, ?_, fun s folder opened =>
    CommandLine.exists_runEvents opened read⟩
  · have cap : queryCap = 2000 := rfl
    rw [same, length_takeTo, count]
    split <;> split <;> omega
  · rw [same, length_takeTo_le_iff, count]

/-! ## A limit below zero -/

/-- A file of as many events that have a level and nothing else. -/
def informedLines (n : Nat) : Bytes :=
  (List.replicate n informedLine).flatten

/-- The log of the project in the folder of the program. -/
def ownLog : Log :=
  ofProject (Path.ofString ".") defaultWindow

theorem isLine_informedLine : IsLine informedLine :=
  ⟨informedLine.dropLast, by decide, rfl⟩

theorem lines_informedLine : lines informedLine = [informedText] := by
  cbv

/-- The lines of a log are read one by one, and each holds its event. -/
theorem readFile_informedLines {n : Nat} (few : n ≤ 10000) :
    ownLog.readFile (filesOf (informedLines n)) ownLog.globalFile = .ok (List.replicate n informed) := by
  have own : ownLog = ofProject {} defaultWindow := by decide +kernel
  have file : (filesOf (informedLines n)).read ownLog.globalFile = .ok (informedLines n) := by
    rw [own]
    rfl
  have size : (informedLines n).length = n * 17 := by
    simp [informedLines, informedLine]
  have fits : ((informedLines n).length : Int) ≤ ownLog.window := by
    have window : ownLog.window = 2097152 := rfl
    omega
  have ended : ∀ line ∈ List.replicate n informedLine, IsLine line := fun line member =>
    List.eq_of_mem_replicate member ▸ isLine_informedLine
  have going : ∀ line ∈ lines (informedLines n), stop? line = none := by
    intro line member
    rw [informedLines, lines_flatten ended, List.flatMap_replicate, lines_informedLine,
      List.flatten_replicate_singleton] at member
    rw [List.eq_of_mem_replicate member]
    exact holds_informed.2
  have on : eventsOn informedLine = [informed] := by
    rw [eventsOn, lines_informedLine, List.filterMap_cons, holds_informed.1]
    rfl
  have reachable : ((informedLines n).length : Int) - ownLog.window ≤
      (filesOf (informedLines n)).offsetLimit.val := by
    omega
  rw [readFile_of_read file, readBytes_eq_ok_iff]
  refine ⟨legible_flatten ended going reachable, ?_⟩
  rw [informedLines, eventsIn_flatten ended, linesRead_of_le fits, List.flatMap_replicate, on,
    List.flatten_replicate_singleton]

/-- A query without a filter gives as many of the events as its limit leaves. -/
theorem read_informedLines {n : Nat} (few : n ≤ 10000) (limit : Int) :
    ownLog.read (filesOf (informedLines n)) { limit := limit } =
      .ok (takeTo (min limit queryCap) (List.replicate n informed)) := by
  have all : (List.replicate n informed).filter (Query.matches { limit := limit }) =
      List.replicate n informed :=
    List.filter_eq_self.mpr fun e member => List.eq_of_mem_replicate member ▸ rfl
  rw [read_eq_ok_iff_of_readFile (readFile_informedLines few), all, List.reverse_replicate]
  exact ⟨fun e member => Query.canAsk_of_hasContext _ (List.eq_of_mem_replicate member ▸ rfl), rfl⟩

/-- Of three events a query with the limit one gives the latest, and the command shows its line. -/
theorem read_limited_one :
    ownLog.readFile (filesOf (informedLines 3)) ownLog.globalFile = .ok (List.replicate 3 informed) ∧
      ownLog.read (filesOf (informedLines 3)) { limit := 1 } = .ok [informed] ∧
      [informed] <+: List.replicate 3 informed ∧
      ((runEvents "." { limit := 1 }).run
        { tree := filesOf (informedLines 3), time := "", batchStem := "" }).1.out =
          "[] INFO    : \n" := by
  have logged := readFile_informedLines (n := 3) (by decide)
  have read := read_informedLines (n := 3) (by decide) 1
  obtain ⟨-, -, answer⟩ := read_limited logged { limit := 1 }
  obtain ⟨front, -, -, shows⟩ := answer [informed] read
  obtain ⟨lines, ⟨⟨shown, some, written⟩, whole⟩, out⟩ :=
    shows { tree := filesOf (informedLines 3), time := "", batchStem := "" } "." rfl
  have line : CommandLine.eventLine informed = .ok "[] INFO    : " := by decide +kernel
  refine ⟨logged, read, front, out.trans ?_⟩
  rcases List.prefix_cons_iff.mp some with rfl | ⟨more, rfl, nothing⟩
  · -- the event has a line, so that the command does not stop before it
    cases written
    rcases whole with none | ⟨e, stop, first, without⟩
    · cases none
    · cases first
      rw [line] at without
      cases without
  · rw [List.prefix_nil.mp nothing, List.mapM_cons, line] at written
    cases written
    decide

/-- A limit below zero lets a query pass its bound: of two events one is given where none should be.  So it
passes the cap of two thousand too. -/
theorem read_above_cap :
    (∃ found, ownLog.read (filesOf (informedLines 2)) { limit := -1 } = .ok found ∧
      max 0 (min (-1) queryCap) < found.length) ∧
    ∃ found, ownLog.read (filesOf (informedLines 2002)) { limit := -1 } = .ok found ∧
      queryCap < found.length := by
  refine ⟨⟨_, read_informedLines (by decide) _, ?_⟩, ⟨_, read_informedLines (by decide) _, ?_⟩⟩ <;>
    rw [length_takeTo, List.length_replicate] <;> decide

end LessonCalc.Log
