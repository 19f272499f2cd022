import LessonCalc.Proofs.Event.Additions

/-!
# Logs with several writers

Writers share the log of a project.  Each writes its events one after the other, and the additions of
all of them mix in any order.

* `Writers.Step`: one addition of one writer, or what lies between them.
* `Writers.reach_write`: a write that no other writer interrupts is such a sequence of steps.
* `Writers.exists_reach_finished`: a writer can always finish.
* `Faithful`, `Faithful.step`, `Faithful.reach`: the files hold what was added to them, and each writer
  has made its additions in the order of its writings; every step preserves it, and so every run.
-/

namespace LessonCalc.Log

open LessonCalc.Text

/-- An event that is written, with the id of its batch if it has one. -/
structure Writing where
  event : Event
  batch : Option String

/-- The additions of a writing. -/
def Writing.additions (w : Writing) : List Addition :=
  Log.additions w.event w.batch

/-- A state of the work on a log: the files, the additions that each writer has left of each of its
writings, and the additions that were made, each with its writer. -/
structure Writers (ι : Type) where
  tree : FileTree
  pending : ι → List (List Addition)
  made : List (ι × Addition)

namespace Writers

variable {ι : Type} [DecidableEq ι]

/-- One step of one of the writers.  A writer opens the log, makes the next addition of a writing, gives
up a writing of which an addition cannot be made, or goes on to its next writing. -/
inductive Step (log : Log) : Writers ι → Writers ι → Prop
  | opened {s : Writers ι} : Step log s { s with tree := (log.ensureFolders s.tree).2 }
  | added {s : Writers ι} {i : ι} {a : Addition} {more : List Addition} {rest : List (List Addition)}
      {t : FileTree} (next : s.pending i = (a :: more) :: rest)
      (result : log.perform s.tree a = (.ok (), t)) :
      Step log s ⟨t, Function.update s.pending i (more :: rest), s.made ++ [(i, a)]⟩
  | failed {s : Writers ι} {i : ι} {a : Addition} {more : List Addition} {rest : List (List Addition)}
      {t : FileTree} {error : LogError} (next : s.pending i = (a :: more) :: rest)
      (result : log.perform s.tree a = (.error error, t)) :
      Step log s ⟨t, Function.update s.pending i rest, s.made⟩
  | returned {s : Writers ι} {i : ι} {rest : List (List Addition)} (next : s.pending i = [] :: rest) :
      Step log s { s with pending := Function.update s.pending i rest }

/-- The states that any order of steps leads to. -/
abbrev Reach (log : Log) : Writers ι → Writers ι → Prop :=
  Relation.ReflTransGen (Step log)

/-- The writers of a project before their first writing, when one of them has opened the log. -/
def start (log : Log) (t : FileTree) (program : ι → List Writing) : Writers ι :=
  ⟨(log.ensureFolders t).2, fun i => (program i).map Writing.additions, []⟩

/-- All writings are done. -/
def Done (s : Writers ι) : Prop :=
  ∀ i, s.pending i = []

/-- The additions to a file, in the order in which they were made, each with its writer. -/
def madeTo (s : Writers ι) (batch : Option String) : List (ι × Addition) :=
  s.made.filter fun m => m.2.batch = batch

/-- The additions of a writer, in the order in which they were made. -/
def madeBy (s : Writers ι) (i : ι) : List Addition :=
  (s.made.filter fun m => m.1 = i).map Prod.snd

/-! ## Uninterrupted writes -/

variable {log : Log} {s : Writers ι} {i : ι}

/-- The additions of a writing can be made at a stretch. -/
theorem reach_performAll {w : List Addition} {rest : List (List Addition)}
    (next : s.pending i = w :: rest) :
    ∃ made, Reach log s ⟨(log.performAll s.tree w).2, Function.update s.pending i rest, made⟩ := by
  induction w generalizing s with
  | nil => exact ⟨s.made, .single (.returned next)⟩
  | cons a more ih =>
      rw [performAll]
      cases result : log.perform s.tree a with
      | mk outcome t =>
          cases outcome with
          | error e => exact ⟨s.made, .single (.failed next result)⟩
          | ok _ =>
              have first := Step.added next result
              obtain ⟨made, others⟩ := @ih ⟨t, Function.update s.pending i (more :: rest),
                s.made ++ [(i, a)]⟩ (Function.update_self ..)
              rw [Function.update_idem] at others
              exact ⟨made, .head first others⟩

/-- A write that no other writer interrupts is a sequence of steps. -/
theorem reach_write {w : Writing} {rest : List (List Addition)}
    (next : s.pending i = w.additions :: rest) :
    ∃ made, Reach log s ⟨(log.write s.tree w.event w.batch).2, Function.update s.pending i rest,
      made⟩ := by
  rw [write_eq_performAll]
  exact reach_performAll next

/-- A writer can always finish its writings. -/
theorem exists_reach_finished (log : Log) (s : Writers ι) (i : ι) :
    ∃ s', Reach log s s' ∧ s'.pending = Function.update s.pending i [] := by
  generalize same : s.pending i = writings
  induction writings generalizing s with
  | nil => exact ⟨s, .refl, by rw [← same, Function.update_eq_self]⟩
  | cons w rest ih =>
      obtain ⟨made, first⟩ := @reach_performAll _ _ log s i _ _ same
      obtain ⟨s', others, left⟩ := ih ⟨(log.performAll s.tree w).2, Function.update s.pending i rest,
        made⟩ (Function.update_self ..)
      refine ⟨s', first.trans others, ?_⟩
      rw [left, Function.update_idem]

end Writers

/-! ## Writers on their way -/

/-- A writer has made those of its additions that can be made, up to the point where it is.  An addition
of a writing can only be made if the ones before it could. -/
structure OnCourse (plan : List Writing) (made : List Addition) (left : List (List Addition)) :
    Prop where
  order : made ++ left.flatten.filter Addition.Lands =
    (plan.flatMap Writing.additions).filter Addition.Lands
  falling : ∀ w ∈ left, w.Pairwise fun a b => b.Lands → a.Lands

/-- What can be added to the file of a batch could be added to the file of all events before. -/
theorem pairwise_additions (w : Writing) : w.additions.Pairwise fun a b => b.Lands → a.Lands := by
  obtain ⟨e, batch⟩ := w
  unfold Writing.additions Log.additions
  dsimp only
  split
  next id =>
    split
    next => exact List.pairwise_pair.mpr fun lands => ⟨lands.1, fits_none⟩
    next => exact List.pairwise_singleton _ _
  next => exact List.pairwise_singleton _ _

namespace OnCourse

theorem start (plan : List Writing) : OnCourse plan [] (plan.map Writing.additions) :=
  ⟨by rw [List.nil_append, List.flatMap_def], List.forall_mem_map.mpr fun w _ => pairwise_additions w⟩

variable {plan : List Writing} {made : List Addition} {a : Addition} {more : List Addition}
  {rest : List (List Addition)}

theorem added (course : OnCourse plan made ((a :: more) :: rest)) (lands : a.Lands) :
    OnCourse plan (made ++ [a]) (more :: rest) := by
  obtain ⟨first, others⟩ := List.forall_mem_cons.mp course.falling
  refine ⟨?_, List.forall_mem_cons.mpr ⟨(List.pairwise_cons.mp first).2, others⟩⟩
  have kept : ((a :: more) :: rest).flatten.filter Addition.Lands =
      a :: (more :: rest).flatten.filter Addition.Lands :=
    List.filter_cons_of_pos (decide_eq_true lands)
  rw [← course.order, kept, List.append_assoc, List.singleton_append]

/-- After an addition that cannot be made, none of the same writing can. -/
theorem failed (course : OnCourse plan made ((a :: more) :: rest)) (stays : ¬a.Lands) :
    OnCourse plan made rest := by
  obtain ⟨first, others⟩ := List.forall_mem_cons.mp course.falling
  have none : (a :: more).filter Addition.Lands = [] := by
    refine List.filter_eq_nil_iff.mpr (List.forall_mem_cons.mpr ⟨by simpa using stays, ?_⟩)
    exact fun b member lands => stays ((List.pairwise_cons.mp first).1 b member (of_decide_eq_true lands))
  refine ⟨?_, others⟩
  rw [← course.order, List.flatten_cons, List.filter_append, none, List.nil_append]

theorem returned (course : OnCourse plan made ([] :: rest)) : OnCourse plan made rest :=
  ⟨course.order, (List.forall_mem_cons.mp course.falling).2⟩

end OnCourse

/-! ## What every step preserves -/

/-- The files hold what was added to them, and every writer is on its course. -/
structure Faithful {ι : Type} [DecidableEq ι] (log : Log) (program : ι → List Writing)
    (s : Writers ι) : Prop where
  keeps : Keeps log s.tree fun batch => (s.madeTo batch).map (·.2.event)
  course : ∀ i, OnCourse (program i) (s.madeBy i) (s.pending i)

namespace Faithful

variable {ι : Type} [DecidableEq ι] {log : Log} {program : ι → List Writing} {s s' : Writers ι}

omit [DecidableEq ι] in
/-- An addition that was made is the last one to its file. -/
theorem madeTo_append (s : Writers ι) (m : ι × Addition) (t : FileTree)
    (pending : ι → List (List Addition)) :
    (fun batch => (Writers.madeTo ⟨t, pending, s.made ++ [m]⟩ batch).map (·.2.event)) =
      Function.update (fun batch => (s.madeTo batch).map (·.2.event)) m.2.batch
        ((s.madeTo m.2.batch).map (·.2.event) ++ [m.2.event]) := by
  funext batch
  rw [Writers.madeTo, List.filter_append]
  by_cases same : m.2.batch = batch
  · subst same
    rw [Function.update_self, List.filter_singleton]
    simp [Writers.madeTo]
  · rw [Function.update_of_ne (Ne.symm same), List.filter_singleton]
    simp [same, Writers.madeTo]

/-- An addition that was made is the last one of its writer. -/
theorem madeBy_append (s : Writers ι) (m : ι × Addition) (t : FileTree)
    (pending : ι → List (List Addition)) (i : ι) :
    Writers.madeBy ⟨t, pending, s.made ++ [m]⟩ i =
      s.madeBy i ++ if m.1 = i then [m.2] else [] := by
  rw [Writers.madeBy, List.filter_append, List.map_append, List.filter_singleton]
  by_cases same : m.1 = i <;> simp [same, Writers.madeBy]

/-- When one writer goes on, the others are where they were. -/
theorem course_update {made : ι → List Addition} {left : ι → List (List Addition)} {i : ι}
    {rest : List (List Addition)} (here : OnCourse (program i) (made i) rest)
    (others : ∀ j, j ≠ i → OnCourse (program j) (made j) (left j)) :
    ∀ j, OnCourse (program j) (made j) (Function.update left i rest j) := by
  intro j
  by_cases same : j = i
  · subst same
    rw [Function.update_self]
    exact here
  · rw [Function.update_of_ne same]
    exact others j same

/-- Every step preserves what the files hold, and that the writers are on their course. -/
theorem step (faithful : Faithful log program s) (step : Writers.Step log s s') :
    Faithful log program s' := by
  obtain ⟨keeps, course⟩ := faithful
  cases step with
  | opened => exact ⟨keeps.opened.ensureFolders ▸ keeps, course⟩
  | @added i a more rest t next result =>
      -- an addition that was made is one that can be made
      have lands : a.Lands := by
        by_contra stays
        obtain ⟨error, none⟩ := keeps.perform_of_not_lands stays
        cases result.symm.trans none
      obtain ⟨t', result', keeps'⟩ := keeps.perform lands
      cases result.symm.trans result'
      have here := course i
      rw [next] at here
      refine ⟨?_, course_update ?_ fun j other => ?_⟩
      · rw [madeTo_append]
        exact keeps'
      · rw [madeBy_append, if_pos rfl]
        exact here.added lands
      · rw [madeBy_append, if_neg (Ne.symm other), List.append_nil]
        exact course j
  | @failed i a more rest t error next result =>
      -- an addition that cannot be made changes nothing
      have stays : ¬a.Lands := by
        intro lands
        obtain ⟨t', made, _⟩ := keeps.perform lands
        cases result.symm.trans made
      obtain ⟨error', result'⟩ := keeps.perform_of_not_lands stays
      cases result.symm.trans result'
      have here := course i
      rw [next] at here
      exact ⟨keeps, course_update (here.failed stays) fun j _ => course j⟩
  | @returned i rest next =>
      have here := course i
      rw [next] at here
      exact ⟨keeps, course_update here.returned fun j _ => course j⟩

/-- The start is faithful, if the project is fresh. -/
theorem start {t : FileTree} {project : Path} {window : Int} (fresh : Fresh t project)
    (program : ι → List Writing) :
    Faithful (ofProject project window) program
      (Writers.start (ofProject project window) t program) := by
  obtain ⟨t', opened, keeps⟩ := fresh.keeps window
  refine ⟨?_, fun i => OnCourse.start (program i)⟩
  rw [Writers.start, opened]
  exact keeps

/-- So every state is faithful that the steps of the writers lead to. -/
theorem reach (faithful : Faithful log program s) (reach : Writers.Reach log s s') :
    Faithful log program s' := by
  induction reach with
  | refl => exact faithful
  | tail _ last ih => exact ih.step last

end Faithful

end LessonCalc.Log
