import LessonCalc.Http.Api
import LessonCalc.Project.Lint
import LessonCalc.Proofs.Batch.Rows

/-!
# Where the events of a session go

The log that events go to belongs to the session, and not to a call.  Some calls attach the log of a
project on the way to what they do, and leave it attached.  So it takes the calls made so far to tell
where the next events go.

* `Work.Keeps`: work that leaves the log of the session and the folders as they are.
* `Call`, `Session.after`: the calls of a program, and the session after some of them.
* `Session.Steps`, `Call.steps_after`: what a call does to the log of the session.
* `Session.ready_after`: so the log that the events of a session go to stays open, whatever is called.
* `Session.log?_after_eq_none_iff`: and there is none exactly if each one that a call attached has been
  detached since.
-/

namespace LessonCalc

/-! ## Work that keeps the log -/

/-- The events of a session go where they went in another one, and all folders are still there. -/
structure Session.Kept (s s' : Session) : Prop where
  log? : s'.log? = s.log?
  tree : s.tree.KeepsFolders s'.tree

namespace Session.Kept

variable {s s' s'' : Session}

theorem refl (s : Session) : Kept s s :=
  ⟨rfl, .refl s.tree⟩

theorem trans (first : Kept s s') (second : Kept s' s'') : Kept s s'' :=
  ⟨second.log?.trans first.log?, first.tree.trans second.tree⟩

theorem record (s : Session) (e : Event) (batch : Option String) : Kept s (s.record e batch) := by
  cases attached : s.log? with
  | none =>
      rw [Session.record, attached]
      exact refl s
  | some log =>
      obtain ⟨warning?, recorded⟩ := exists_record attached e batch
      rw [recorded]
      exact ⟨rfl, Log.keepsFolders_write rfl⟩

end Session.Kept

namespace Work

variable {α β : Type}

/-- Work that leaves the log of the session and the folders as they are, however it ends. -/
def Keeps (work : Work α) : Prop :=
  ∀ s : Session, s.Kept (work s).2

theorem keeps_pure (a : α) : Keeps (pure a) :=
  fun s => Session.Kept.refl s

theorem keeps_throw (e : ProjectError) : Keeps (throw e : Work α) :=
  fun s => Session.Kept.refl s

theorem keeps_get : Keeps (get : Work Session) :=
  fun s => Session.Kept.refl s

theorem keeps_host : Keeps host :=
  fun s => Session.Kept.refl s

theorem keeps_look (f : FileTree → Except ProjectError α) : Keeps (look f) :=
  fun s => Session.Kept.refl s

/-- Work goes on from what its first step gives, or stops there. -/
theorem Keeps.bind {step : Work α} {next : α → Work β} (first : step.Keeps)
    (second : ∀ a, (next a).Keeps) : Keeps (step >>= next) := by
  intro s
  have kept := first s
  rcases done : step s with ⟨_ | a, s'⟩ <;> rw [done] at kept
  · rw [bind_error done]
    exact kept
  · rw [bind_ok done]
    exact kept.trans (second a s')

theorem Keeps.tryCatch {work : Work α} {handler : ProjectError → Work α} (first : work.Keeps)
    (second : ∀ e, (handler e).Keeps) : Keeps (tryCatch work handler) := by
  intro s
  have kept := first s
  rcases done : work s with ⟨e | a, s'⟩ <;> rw [done] at kept
  · rw [tryCatch_error done]
    exact kept.trans (second e s')
  · rw [tryCatch_ok done]
    exact kept

theorem Keeps.update {f : Session → Session} (kept : ∀ s : Session, s.Kept (f s)) : Keeps (update f) :=
  kept

end Work

/-- Checking tools keeps the log. -/
theorem Project.keeps_lintTools (strict : Bool) (tools : List (String × Path)) :
    (lintTools strict tools).Keeps := by
  induction tools with
  | nil => exact Work.keeps_pure _
  | cons tool rest ih =>
      obtain ⟨name, path⟩ := tool
      refine (Work.keeps_look _).bind fun issues => (Work.Keeps.update fun s => ?_).bind fun _ =>
        ih.bind fun _ => Work.keeps_pure _
      obtain ⟨e, recorded⟩ : ∃ e, Project.recordOutcome name issues s = s.record e none := by
        unfold recordOutcome Session.recordWarning Session.recordInfo
        dsimp only
        split <;> exact ⟨_, rfl⟩
      rw [recorded]
      exact .record s e none

/-- Loading a tool keeps the log. -/
theorem Service.keeps_tool (service : Service) (name : String) : (service.tool name).Keeps := by
  refine (Work.keeps_look _).bind fun project => Work.keeps_get.bind fun s => ?_
  dsimp only
  split
  next => exact Work.keeps_throw _
  next =>
    split
    next => exact (Work.Keeps.update fun s => .record s _ none).bind fun _ => Work.keeps_pure _
    next =>
      split
      next => exact (Work.Keeps.update fun s => .record s _ none).bind fun _ => Work.keeps_throw _
      next => exact Work.keeps_throw _

namespace Http

theorem keeps_answering {α : Type} {check : Document → Checked α} {respond : α → Work Response}
    (body : String) (rest : ∀ question, (respond question).Keeps) :
    (answering check body respond).Keeps := by
  unfold answering
  split
  next => exact Work.keeps_pure _
  next =>
    split
    next => exact rest _
    next =>
      split
      next => exact Work.keeps_throw _
      next => exact Work.keeps_pure _

theorem keeps_refusing {work : Work Response} (refusal : ProjectError → Option Response)
    (first : work.Keeps) : (refusing refusal work).Keeps := by
  refine first.tryCatch fun e => ?_
  split
  next => exact Work.keeps_pure _
  next => exact Work.keeps_throw _

theorem keeps_goodAnswer (f : FileTree → Except ProjectError Json) : (goodAnswer f).Keeps :=
  (Work.keeps_look _).bind fun _ => Work.keeps_pure _

/-- Answering a request keeps the log. -/
theorem keeps_respond (service : Service) (request : Request) : (respond service request).Keeps := by
  unfold respond
  split
  next => exact Work.keeps_pure _
  next route _ =>
    split
    next =>
      cases route with
      | health => exact Work.keeps_pure _
      | evaluate =>
          exact keeps_answering _ fun _ => Work.keeps_host.bind fun _ => Work.keeps_pure _
      | compute =>
          exact keeps_answering _ fun _ => Work.keeps_host.bind fun _ => keeps_goodAnswer _
      | lint => exact keeps_answering _ fun _ => keeps_refusing _ (keeps_goodAnswer _)
      | validate => exact keeps_answering _ fun _ => Work.keeps_pure _
      | tools => exact keeps_refusing _ (keeps_goodAnswer _)
      | tool name =>
          exact keeps_refusing _ ((service.keeps_tool name).bind fun _ => Work.keeps_pure _)
      | toolCompute name =>
          exact keeps_answering _ fun _ => keeps_refusing _
            ((service.keeps_tool name).bind fun _ =>
              Work.keeps_host.bind fun _ => keeps_goodAnswer _)
    next => exact Work.keeps_pure _

end Http

/-! ## Calls -/

namespace Session

/-- The log of a project can be opened: its folders can be made. -/
def Opens (project : Path) (t : FileTree) : Prop :=
  ((Log.ofProject project Log.defaultWindow).ensureFolders t).1 = .ok ()

/-- The log that the events of a session go to is open, if there is one. -/
def Ready (s : Session) : Prop :=
  ∀ log, s.log? = some log → log.Opened s.tree

/-- A step of a session, which attaches a log or leaves the one that is there. -/
structure Steps (s s' : Session) (attaches : Prop) : Prop where
  log? : s'.log? = none ↔ s.log? = none ∧ ¬attaches
  ready : s.Ready → s'.Ready

variable {s s' : Session}

theorem Kept.steps (kept : s.Kept s') {attaches : Prop} (stays : ¬attaches) : Steps s s' attaches := by
  refine ⟨?_, fun ready log attached => ?_⟩
  · rw [kept.log?]
    exact (and_iff_left stays).symm
  · rw [kept.log?] at attached
    exact (ready log attached).kept kept.tree

theorem Steps.kept {s'' : Session} {attaches : Prop} (steps : Steps s s' attaches) (kept : s'.Kept s'') :
    Steps s s'' attaches :=
  ⟨by rw [kept.log?, steps.log?], fun ready => (kept.steps id).ready (steps.ready ready)⟩

/-- Opening the log of a project attaches it if that succeeds. -/
theorem steps_attachLog (project : Path) (s : Session) :
    Steps s (attachLog project s).2 (Opens project s.tree) := by
  obtain ⟨window, warning?, result, t, opens, attached⟩ := exists_attachLog project Log.defaultWindow s
  have keeps := Log.keepsFolders_ensureFolders opens
  rw [Opens, opens, attached]
  cases result with
  | ok _ =>
      refine ⟨by simp, fun _ log there => ?_⟩
      rw [ensureFolders_window project Log.defaultWindow window] at opens
      cases there
      exact (Log.opened_of_ensureFolders opens).1
  | error e =>
      refine ⟨by simp, fun ready log there => ?_⟩
      exact (ready log there).kept keeps

/-- Work that starts with opening a log. -/
theorem steps_attachLog_bind {α : Type} (project : Path) {next : Unit → Work α}
    (rest : ∀ a, (next a).Keeps) (s : Session) :
    Steps s ((attachLog project >>= next) s).2 (Opens project s.tree) := by
  have steps := steps_attachLog project s
  rcases done : attachLog project s with ⟨e | a, s'⟩ <;> rw [done] at steps
  · rw [Work.bind_error done]
    exact steps
  · rw [Work.bind_ok done]
    exact steps.kept (rest a s')

end Session

/-- A call of a program. -/
inductive Call where
  | attach (project : Path)
  | detach
  | lint (project : Path) (strict : Option Bool)
  | batch (tool : Tool) (records : List Tool.Record) (name : Option String) (project : Option Path)
      (workers : Int)
  | start (project : Option Path)
  | loadTool (service : Service) (name : String)
  | ask (service : Service) (request : Http.Request)

namespace Call

/-- The session after a call, whatever the call gives. -/
def after (s : Session) : Call → Session
  | attach project => (Session.attachLog project s).2
  | detach => s.detachLog
  | lint project strict => (Project.lint project strict s).2
  | batch tool records name project workers => (Batch.run tool records name project workers s).2
  | start project => (Http.start project s).2
  | loadTool service name => (service.tool name s).2
  | ask service request => (Http.respond service request s).2

/-- A call attaches the log of a project if it opens one, and that succeeds.  A batch over the limit of its
project stops before. -/
def Attaches (s : Session) : Call → Prop
  | attach project => Session.Opens project s.tree
  | lint project _ => Session.Opens project s.tree
  | batch _ records _ (some project) _ => Session.Opens project s.tree ∧
      ∃ limit : Int, Batch.rowLimit s.tree (some project) = .ok limit ∧ records.length ≤ limit
  | start (some project) => Session.Opens project s.tree
  | _ => False

variable {s : Session}

theorem steps_lint (project : Path) (strict? : Option Bool) (s : Session) :
    s.Steps (Project.lint project strict? s).2 (Session.Opens project s.tree) := by
  refine Session.steps_attachLog_bind project (fun _ => ?_) s
  have tools (strict : Bool) :
      Work.Keeps (Work.look (fun t => .ok (Project.tools t project)) >>= Project.lintTools strict) :=
    (Work.keeps_look _).bind fun _ => Project.keeps_lintTools strict _
  cases strict? with
  | some strict => exact (Work.keeps_pure strict).bind tools
  | none => exact (Work.keeps_look _).bind tools

/-- What a batch does once its log is open keeps the log. -/
theorem keeps_sweeping (run : Batch.Run) (tool : Tool) (records : List Tool.Record) (workers : Int) :
    (run.sweeping tool records workers).Keeps := by
  have recording (e : Session → Event) :
      Work.Keeps (Work.update fun s => s.record (e s) (some run.id)) :=
    Work.Keeps.update fun s => .record s (e s) _
  refine (recording _).bind fun _ => Work.keeps_host.bind fun _ => ?_
  split
  next => exact (recording _).bind fun _ => Work.keeps_throw _
  next => exact (recording _).bind fun _ => Work.keeps_pure _

/-- A batch that may run attaches the log of its project, if that can be opened. -/
theorem steps_batch (tool : Tool) (records : List Tool.Record) (name : Option String)
    (project : Option Path) (workers : Int) (s : Session) :
    s.Steps (Batch.run tool records name project workers s).2
      ((batch tool records name project workers).Attaches s) := by
  cases limited : Batch.rowLimit s.tree project with
  | error e =>
      have looked : Work.look (fun t => Batch.rowLimit t project) s = (.error e, s) := by
        rw [Work.look, limited]
      unfold Batch.run
      rw [Work.bind_error looked]
      refine (Session.Kept.refl s).steps ?_
      cases project with
      | none => exact id
      | some folder =>
          rintro ⟨_, limit, limited', _⟩
          rw [limited] at limited'
          cases limited'
  | ok limit =>
      by_cases within : records.length ≤ limit
      · rw [Batch.run_of_length_le limited within]
        cases project with
        | none =>
            have steps := (keeps_sweeping ⟨Session.batchId s.batchStem (s.batches + 1), name⟩ tool records
              workers { s with batches := s.batches + 1 }).steps id
            exact ⟨steps.log?, steps.ready⟩
        | some folder =>
            have steps := Session.steps_attachLog_bind folder
              (fun _ => keeps_sweeping ⟨Session.batchId s.batchStem (s.batches + 1), name⟩ tool records
                workers) { s with batches := s.batches + 1 }
            have attaches : (batch tool records name (some folder) workers).Attaches s ↔
                Session.Opens folder s.tree :=
              and_iff_left ⟨limit, limited, within⟩
            exact ⟨by rw [attaches]; exact steps.log?, steps.ready⟩
      · rw [Batch.run_of_limit_lt limited (Int.not_le.mp within)]
        refine (Session.Kept.refl s).steps ?_
        cases project with
        | none => exact id
        | some folder =>
            rintro ⟨_, limit', limited', within'⟩
            rw [limited] at limited'
            cases limited'
            exact within within'

/-- What a call does to the log of a session. -/
theorem steps_after (call : Call) (other : call ≠ .detach) :
    s.Steps (call.after s) (call.Attaches s) := by
  cases call with
  | detach => exact absurd rfl other
  | attach project => exact Session.steps_attachLog project s
  | lint project strict => exact steps_lint project strict s
  | batch tool records name project workers => exact steps_batch tool records name project workers s
  | start project =>
      cases project with
      | none => exact (Session.Kept.refl s).steps id
      | some project => exact Session.steps_attachLog_bind project (fun _ => Work.keeps_pure _) s
  | loadTool service name => exact (service.keeps_tool name s).steps id
  | ask service request => exact (Http.keeps_respond service request s).steps id

end Call

/-! ## Sequences of calls -/

namespace Session

variable {s : Session}

/-- The session after some calls. -/
def after (s : Session) (calls : List Call) : Session :=
  calls.foldl Call.after s

/-- The log that events go to stays open, whatever is called. -/
theorem ready_after (calls : List Call) (ready : s.Ready) : (s.after calls).Ready := by
  induction calls generalizing s with
  | nil => exact ready
  | cons call rest ih =>
      refine ih ?_
      by_cases detaches : call = .detach
      · subst detaches
        exact fun log attached => by cases attached
      · exact (call.steps_after detaches).ready ready

/-- There is no log after a call exactly if it detaches it, or if there was none and the call attaches
none. -/
theorem log?_after_call_eq_none_iff (call : Call) :
    (call.after s).log? = none ↔ call = .detach ∨ s.log? = none ∧ ¬call.Attaches s := by
  by_cases detaches : call = .detach
  · subst detaches
    exact iff_of_true rfl (.inl rfl)
  · rw [(call.steps_after detaches).log?]
    simp [detaches]

/-- No log that a call attaches is left: it has been detached since. -/
def AllDetached (s : Session) (calls : List Call) : Prop :=
  ∀ before call later, calls = before ++ call :: later → call.Attaches (s.after before) →
    .detach ∈ later

theorem allDetached_nil (s : Session) : s.AllDetached [] :=
  fun before _ _ split => by cases before <;> cases split

theorem allDetached_cons_iff {call : Call} {rest : List Call} :
    s.AllDetached (call :: rest) ↔
      (call.Attaches s → .detach ∈ rest) ∧ (call.after s).AllDetached rest := by
  constructor
  · intro all
    exact ⟨all [] call rest rfl, fun before c later split => all (call :: before) c later (split ▸ rfl)⟩
  · rintro ⟨first, others⟩ before c later split
    cases before with
    | nil =>
        cases split
        exact first
    | cons b before =>
        cases split
        exact others before c later rfl

/-- After some calls there is no log exactly if the one that there was before has been detached, and so
has each one that a call has attached. -/
theorem log?_after_eq_none_iff (calls : List Call) :
    (s.after calls).log? = none ↔ (s.log? = none ∨ .detach ∈ calls) ∧ s.AllDetached calls := by
  induction calls generalizing s with
  | nil =>
      simp [after, allDetached_nil]
  | cons call rest ih =>
      have step : s.after (call :: rest) = (call.after s).after rest := rfl
      rw [step, ih, log?_after_call_eq_none_iff, allDetached_cons_iff, List.mem_cons]
      by_cases detaches : call = .detach
      · subst detaches
        simp [Call.Attaches]
      · simp only [detaches, Ne.symm detaches, false_or]
        tauto

end Session

end LessonCalc
