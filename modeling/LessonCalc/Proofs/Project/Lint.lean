import LessonCalc.Project.Lint
import LessonCalc.Proofs.Event.Context
import LessonCalc.Proofs.Project.Loading
import LessonCalc.Proofs.Project.Session

/-!
# Linting a project

Every tool of a project gets a report, in order, and a tool whose file is refused gets one with a single
issue.  What is told of each is recorded in the log of the project.  Only what escapes from loading a tool
stops the work, after the reports on the tools before it have been recorded.

* `reportOf`, `lintedEvent`: the issues of a tool, and the event that tells of them.
* `outcome_eq_ok`, `outcome_eq_error`: what linting gives for the tools of a tree.
* `exists_lintTools_of_no_escape`, `exists_lintTools`: this is what one tool and a list of them come to in a
  session, in which an event is recorded for every report.
* `lint_each`: and so does linting a project, unless its log cannot be opened.
-/

namespace LessonCalc

namespace Project

open LessonCalc.Event

/-! ## Reports -/

/-- The issues of the tool in a file: those of the tool, or that the file is refused. -/
def reportOf (t : FileTree) (strict : Bool) (path : Path) : List Lint.Issue :=
  match Tool.load t path with
  | .ok tool => Lint.check tool strict
  | .error e => [⟨.error, .invalidConfig e.message⟩]

/-- What linting tools gives: a report on each of them, or what escapes first. -/
def outcome (t : FileTree) (strict : Bool) :
    List (String × Path) → Except ProjectError (List (String × List Lint.Issue))
  | [] => .ok []
  | (name, path) :: rest =>
    match Tool.escape? t path with
    | some e => .error e
    | none => (outcome t strict rest).map ((name, reportOf t strict path) :: ·)

/-- The tools that get a report: those before the first from which something escapes. -/
def checked (t : FileTree) (tools : List (String × Path)) : List (String × Path) :=
  tools.takeWhile fun tool => (Tool.escape? t tool.2).isNone

section Reports

variable {t : FileTree} {strict : Bool} {tools : List (String × Path)} {path : Path} {e : ProjectError}

theorem issuesOf_of_escape (escapes : Tool.escape? t path = some e) :
    issuesOf t path strict = .error e := by
  obtain ⟨failed, other⟩ := Tool.load_of_escape escapes
  rw [issuesOf, failed]
  exact if_neg (Bool.eq_false_iff.mp other)

theorem issuesOf_of_no_escape (stays : Tool.escape? t path = none) :
    issuesOf t path strict = .ok (reportOf t strict path) := by
  rcases Tool.load_of_no_escape stays with ⟨tool, loaded⟩ | ⟨fault, refused⟩
  · rw [issuesOf, reportOf, loaded]
  · rw [issuesOf, reportOf, refused]
    rfl

/-- Where nothing escapes, every tool gets a report, in the order of the tools. -/
theorem outcome_eq_ok (stay : ∀ tool ∈ tools, Tool.escape? t tool.2 = none) :
    outcome t strict tools = .ok (tools.map fun (name, path) => (name, reportOf t strict path)) ∧
      checked t tools = tools := by
  induction tools with
  | nil => exact ⟨rfl, rfl⟩
  | cons tool tools ih =>
      obtain ⟨first, others⟩ := List.forall_mem_cons.mp stay
      obtain ⟨reports, all⟩ := ih others
      constructor
      · rw [outcome, first]
        dsimp only
        rw [reports]
        rfl
      · rw [checked, List.takeWhile_cons_of_pos (by rw [first]; rfl)]
        exact congrArg _ all

/-- What escapes first stops the work; the tools before it have got their reports. -/
theorem outcome_eq_error {before after : List (String × Path)} {name : String}
    (stay : ∀ tool ∈ before, Tool.escape? t tool.2 = none) (escapes : Tool.escape? t path = some e) :
    outcome t strict (before ++ (name, path) :: after) = .error e ∧
      checked t (before ++ (name, path) :: after) = before := by
  induction before with
  | nil =>
      constructor
      · rw [List.nil_append, outcome, escapes]
      · rw [List.nil_append, checked, List.takeWhile_cons_of_neg (by rw [escapes]; exact Bool.false_ne_true)]
  | cons tool before ih =>
      obtain ⟨first, others⟩ := List.forall_mem_cons.mp stay
      obtain ⟨failed, all⟩ := ih others
      constructor
      · rw [List.cons_append, outcome, first]
        dsimp only
        rw [failed]
        rfl
      · rw [List.cons_append, checked, List.takeWhile_cons_of_pos (by rw [first]; rfl)]
        exact congrArg _ all

end Reports

/-! ## Events -/

/-- The event that tells of a report, as it is recorded. -/
def lintedEvent (time : String) (name : String) (issues : List Lint.Issue) : Event :=
  let context := textEntries (cutTexts [("tool", name)]) ++
    countEntries [("errors", Lint.errorCount issues), ("warnings", Lint.warningCount issues)]
  if Lint.status issues = .fail then
    { time
      level := .warning
      kind := .lintFailed
      context
      message := s!"Lint failed for {name}: {Lint.errorCount issues} error(s)"
      errorCode := some "lint_errors" }
  else
    { time
      level := .info
      kind := .lintPassed
      context
      message := s!"Lint passed for {name}" }

/-- The context of the event of a report, without secrets and long strings. -/
theorem redact_lintedContext (name : String) (errors warnings : Int) :
    redact [("tool", .string name), ("errors", .int errors), ("warnings", .int warnings)] =
      textEntries (cutTexts [("tool", name)]) ++
        countEntries [("errors", errors), ("warnings", warnings)] := by
  have plain : ∀ key ∈ (["tool", "errors", "warnings"] : List RawText), isSecretKey key = false := by
    decide
  exact redact_entries [("tool", name)] [("errors", errors), ("warnings", warnings)] plain

/-- Recording the outcome of a check records its event. -/
theorem exists_recordOutcome (name : String) (issues : List Lint.Issue) (s : Session) :
    ∃ e : Event, recordOutcome name issues s = s.record e none ∧
      e.redacted = lintedEvent s.time name issues := by
  have context := redact_lintedContext name (Lint.errorCount issues) (Lint.warningCount issues)
  unfold recordOutcome lintedEvent
  cases Lint.status issues with
  | fail => exact ⟨_, rfl, redacted_of_context context⟩
  | warn => exact ⟨_, rfl, redacted_of_context context⟩
  | pass => exact ⟨_, rfl, redacted_of_context context⟩

/-- The event of a report has a line unless it counts too many issues. -/
theorem lintedEvent_writable_iff {time name : String} {issues : List Lint.Issue} :
    (lintedEvent time name issues).Writable ↔
      Json.isOversized (Lint.errorCount issues) = false ∧
        Json.isOversized (Lint.warningCount issues) = false := by
  have version : (lintedEvent time name issues).schemaVersion = 1 := by
    unfold lintedEvent
    split <;> rfl
  have context : (lintedEvent time name issues).context = textEntries (cutTexts [("tool", name)]) ++
      countEntries [("errors", Lint.errorCount issues), ("warnings", Lint.warningCount issues)] := by
    unfold lintedEvent
    split <;> rfl
  rw [writable_iff_counts _ _ version context]
  simp

/-! ## The run -/

/-- The events that are recorded for tools that get a report, as far as they have a line. -/
def lintedEvents (t : FileTree) (time : String) (strict : Bool) (tools : List (String × Path)) :
    List Event :=
  ((checked t tools).map fun (name, path) => lintedEvent time name (reportOf t strict path)).filter
    fun e => e.Writable

theorem lintedEvents_of_escape {t : FileTree} {time name : String} {strict : Bool} {path : Path}
    {e : ProjectError} (escapes : Tool.escape? t path = some e) (rest : List (String × Path)) :
    lintedEvents t time strict ((name, path) :: rest) = [] := by
  rw [lintedEvents, checked, List.takeWhile_cons_of_neg (by rw [escapes]; exact Bool.false_ne_true)]
  rfl

theorem lintedEvents_of_no_escape {t : FileTree} {time name : String} {strict : Bool} {path : Path}
    (stays : Tool.escape? t path = none) (rest : List (String × Path)) :
    lintedEvents t time strict ((name, path) :: rest) =
      [lintedEvent time name (reportOf t strict path)].filter (fun e => e.Writable) ++
        lintedEvents t time strict rest := by
  rw [lintedEvents, checked, List.takeWhile_cons_of_pos (by rw [stays]; rfl), List.map_cons,
    ← List.singleton_append, List.filter_append]
  rfl

section Run

variable {t : FileTree} (strict : Bool) {project : Path} {window : Int} {tools : List (String × Path)}
  {s : Session}

/-- A tool is read anew from a tree that so far has gained nothing but events. -/
theorem look_issuesOf {path : Path} {name : String} (beside : t.SameBeside s.tree project "logs")
    (here : (name, path) ∈ Project.tools t project) :
    Work.look (fun t => issuesOf t path strict) s = (issuesOf t path strict, s) := by
  rw [Work.look, issuesOf, (beside.load (by decide) here).1]
  rfl

/-- What escapes stops the work, and nothing is recorded. -/
theorem lintTools_of_escape {path : Path} {name : String} {e : ProjectError}
    (beside : t.SameBeside s.tree project "logs") (here : (name, path) ∈ Project.tools t project)
    (escapes : Tool.escape? t path = some e) (rest : List (String × Path)) :
    lintTools strict ((name, path) :: rest) s = (.error e, s) := by
  have looked := look_issuesOf strict beside here
  rw [issuesOf_of_escape escapes] at looked
  rw [lintTools, Work.bind_error looked]

/-- A tool from which nothing escapes gets its report, an event is recorded, and the work goes on. -/
theorem exists_lintTools_of_no_escape {path : Path} {name : String}
    (attached : s.Attached (Log.ofProject project window)) (beside : t.SameBeside s.tree project "logs")
    (here : (name, path) ∈ Project.tools t project) (stays : Tool.escape? t path = none)
    (rest : List (String × Path)) :
    ∃ s₁, lintTools strict ((name, path) :: rest) s =
        (lintTools strict rest >>= fun reports => return (name, reportOf t strict path) :: reports) s₁ ∧
      s₁.Attached (Log.ofProject project window) ∧ t.SameBeside s₁.tree project "logs" ∧
      s.Records (Log.ofProject project window) s₁ fun file =>
        if file = none ∧ (Log.ofProject project window).TakesLines s.tree then
          [lintedEvent s.time name (reportOf t strict path)].filter fun e => e.Writable
        else [] := by
  have looked := look_issuesOf strict beside here
  rw [issuesOf_of_no_escape stays] at looked
  obtain ⟨e, recorded, redacted⟩ := exists_recordOutcome name (reportOf t strict path) s
  have updated : Work.update (recordOutcome name (reportOf t strict path)) s =
      (.ok (), s.record e none) := by
    rw [Work.update, recorded]
  obtain ⟨attached', records⟩ := attached.record_none e
  have beside' := beside.trans (records.tree.sameBeside attached.opened attached'.opened)
  rw [redacted] at records
  refine ⟨s.record e none, ?_, attached', beside', records⟩
  rw [lintTools, Work.bind_ok looked, Work.bind_ok updated]

/-- Linting tools gives their reports up to what escapes, and records an event for each. -/
theorem exists_lintTools (attached : s.Attached (Log.ofProject project window))
    (beside : t.SameBeside s.tree project "logs") (listed : ∀ tool ∈ tools, tool ∈ Project.tools t project) :
    ∃ s', lintTools strict tools s = (outcome t strict tools, s') ∧
      s.Records (Log.ofProject project window) s' fun file =>
        if file = none ∧ (Log.ofProject project window).TakesLines s.tree then
          lintedEvents t s.time strict tools
        else [] := by
  induction tools generalizing s with
  | nil =>
      refine ⟨s, rfl, ?_⟩
      have nothing : lintedEvents t s.time strict [] = [] := rfl
      simp only [nothing, ite_self]
      exact Session.Records.refl _ s
  | cons tool tools ih =>
      obtain ⟨name, path⟩ := tool
      obtain ⟨here, others⟩ := List.forall_mem_cons.mp listed
      cases escapes : Tool.escape? t path with
      | some e =>
          refine ⟨s, ?_, ?_⟩
          · rw [lintTools_of_escape strict beside here escapes, outcome, escapes]
          · simp only [lintedEvents_of_escape escapes, ite_self]
            exact Session.Records.refl _ s
      | none =>
          obtain ⟨s₁, step, attached', beside', first⟩ :=
            exists_lintTools_of_no_escape strict attached beside here escapes tools
          obtain ⟨s', run, later⟩ := ih attached' beside' others
          have takes := first.tree.takes_iff fun closed => if_neg fun own => closed own.2
          refine ⟨s', ?_, ?_⟩
          · rw [step, outcome, escapes]
            cases result : outcome t strict tools with
            | ok reports =>
                rw [result] at run
                rw [Work.bind_ok run]
                rfl
            | error stop =>
                rw [result] at run
                rw [Work.bind_error run]
                rfl
          · have both := first.trans later
            simp only [first.time, takes] at both
            simp only [lintedEvents_of_no_escape escapes]
            refine cast (congrArg _ (funext fun file => ?_)) both
            split <;> rfl

/-- Linting a project whose log can be opened lints its tools. -/
theorem lint_of_attached {s₁ : Session} {settings : Settings} (strict? : Option Bool)
    (attached : Session.attachLog project s = (.ok (), s₁))
    (loads : Settings.load s₁.tree project = .ok settings) :
    lint project strict? s =
      lintTools (strict?.getD (settings.flag "lint_strict")) (Project.tools s₁.tree project) s₁ := by
  have looked : Work.look (fun t => .ok (Project.tools t project)) s₁ =
      (.ok (Project.tools s₁.tree project), s₁) := rfl
  rw [lint, Work.bind_ok attached]
  cases strict? with
  | some strict =>
      have given : (pure strict : Work Bool) s₁ = (.ok strict, s₁) := rfl
      dsimp only
      rw [Work.bind_ok given, Work.bind_ok looked, Option.getD_some]
  | none =>
      have set : Work.look (fun t => return (← Settings.load t project).flag "lint_strict") s₁ =
          (.ok (settings.flag "lint_strict"), s₁) := by
        rw [Work.look, loads]
        rfl
      dsimp only
      rw [Work.bind_ok set, Work.bind_ok looked, Option.getD_none]

/-- What linting a project gives and leaves behind. -/
structure Linted (log : Log) (opened : FileTree) (s s' : Session) (strict : Bool)
    (tools : List (String × Path)) (result : Except ProjectError (List (String × List Lint.Issue))) :
    Prop where
  folders : FileTree.Grown s.tree opened log.batchFolder
  reports : (∀ tool ∈ tools, Tool.escape? s.tree tool.2 = none) →
    result = .ok (tools.map fun (name, path) => (name, reportOf s.tree strict path)) ∧
      checked s.tree tools = tools
  escaped : ∀ before name path after e, tools = before ++ (name, path) :: after →
    (∀ tool ∈ before, Tool.escape? s.tree tool.2 = none) → Tool.escape? s.tree path = some e →
    result = .error e ∧ checked s.tree tools = before
  events : log.Extends opened s'.tree fun file =>
    if file = none ∧ log.TakesLines opened then lintedEvents s.tree s.time strict tools else []
  lines : ∀ name issues, (lintedEvent s.time name issues).Writable ↔
    Json.isOversized (Lint.errorCount issues) = false ∧
      Json.isOversized (Lint.warningCount issues) = false
  rest : s' = { s with tree := s'.tree, log? := s'.log?, warning? := s'.warning? }

/-- Linting a project whose log can be opened gives a report on every tool, or what escapes first. -/
theorem exists_lint {settings : Settings} (strict? : Option Bool) (window : Int)
    (found : s.tree.find project = .ok .folder) (loads : Settings.load s.tree project = .ok settings)
    (free : ¬Log.Blocked s.tree project) :
    ∃ opened result s', (Log.ofProject project window).ensureFolders s.tree = (.ok (), opened) ∧
      lint project strict? s = (result, s') ∧
      Linted (Log.ofProject project window) opened s s' (strict?.getD (settings.flag "lint_strict"))
        (Project.tools s.tree project) result := by
  obtain ⟨opened, opens, beside, names⟩ := Log.exists_ensureFolders found free window
  obtain ⟨window', s₁, attached, open_, warning?, same⟩ := Session.attachLog_of_ensureFolders opens
  have tree : s₁.tree = opened := by rw [same]
  have time : s₁.time = s.time := by rw [same]
  have apart : s.tree.locate (toolFolder project) = s.tree.locate project ++ ["tools"] :=
    FileTree.locate_child (by decide)
  have listed : Project.tools s₁.tree project = Project.tools s.tree project := by
    rw [tree]
    exact beside.tools (by decide) (names _ (by simp [apart]) (by simp [apart]))
  have settled : Settings.load s₁.tree project = .ok settings := by
    rw [tree, beside.settings (by decide), loads]
  obtain ⟨s', run, records⟩ := exists_lintTools (strict?.getD (settings.flag "lint_strict")) (t := s.tree)
    open_ (tree ▸ beside) fun _ member => member
  rw [tree, time] at records
  refine ⟨opened, _, s', opens, ?_, (Log.opened_of_ensureFolders opens).2, outcome_eq_ok, ?_, ?_,
    fun _ _ => lintedEvent_writable_iff, ?_⟩
  · rw [lint_of_attached strict? attached settled, listed]
    exact run
  · rintro before name path after e together stay escapes
    rw [together]
    exact outcome_eq_error stay escapes
  · have events := records.tree.window window
    rw [tree] at events
    exact events
  · obtain ⟨warning', same'⟩ := records.rest
    rw [same', same]

/-- Where a file stands in the way of the log, linting a project stops before any tool is read. -/
theorem lint_of_blocked (strict? : Option Bool) (found : s.tree.find project = .ok .folder)
    (blocked : Log.Blocked s.tree project) :
    ∃ e s', lint project strict? s = (.error (.file e), s') := by
  obtain ⟨e, t', fails⟩ := Log.ensureFolders_of_blocked found blocked Log.defaultWindow
  obtain ⟨s', failed⟩ := Session.attachLog_of_error fails
  exact ⟨e, s', by rw [lint, Work.bind_error failed]⟩

/-- Loading a tool file gives a tool or a configuration error that names it, or else what escapes, which is no
configuration error.  Linting a project gives a report on every tool in order, up to what escapes, and
records an event for each, unless a file stands in the way of its log. -/
theorem lint_each (project : Path) (strict? : Option Bool) (s : Session) (settings : Settings) (window : Int)
    (found : s.tree.find project = .ok .folder) (loads : Settings.load s.tree project = .ok settings) :
    (∀ path,
      (Tool.escape? s.tree path = none →
        (∃ tool, Tool.load s.tree path = .ok tool) ∨
          ∃ fault, Tool.load s.tree path = .error (.config path fault)) ∧
      ∀ e, Tool.escape? s.tree path = some e → Tool.load s.tree path = .error e ∧ e.isConfig = false) ∧
    (¬Log.Blocked s.tree project → ∃ opened result s',
      (Log.ofProject project window).ensureFolders s.tree = (.ok (), opened) ∧
        lint project strict? s = (result, s') ∧
        Linted (Log.ofProject project window) opened s s' (strict?.getD (settings.flag "lint_strict"))
          (Project.tools s.tree project) result) ∧
    (Log.Blocked s.tree project → ∃ e s', lint project strict? s = (.error (.file e), s')) :=
  ⟨fun _ => ⟨Tool.load_of_no_escape, fun _ => Tool.load_of_escape⟩,
    exists_lint strict? window found loads, lint_of_blocked strict? found⟩

end Run

/-! ## Small projects -/

/-- The file of a tool of the project in the folder where the program runs. -/
def toolFile (name : String) : Path :=
  (toolFolder {}).child name

/-- A session in a project that holds nothing but two tool files. -/
def sessionOf (bad good : Bytes) : Session :=
  { tree := { entries :=
      [(["tools"], .folder), (["tools", "bad.json"], .file bad), (["tools", "good.json"], .file good)] }
    time := "08:00"
    batchStem := "b" }

/-- Such a project has no settings, and nothing stands in the way of its log. -/
theorem ready_sessionOf (bad good : Bytes) :
    (sessionOf bad good).tree.find {} = .ok .folder ∧
      Settings.load (sessionOf bad good).tree {} = .ok Settings.default ∧
      ¬Log.Blocked (sessionOf bad good).tree {} := by
  refine ⟨rfl, rfl, ?_⟩
  rintro ⟨place, member, content, there⟩
  rcases List.mem_cons.mp member with rfl | member
  · cases there
  · cases List.mem_singleton.mp member
    cases there

theorem tools_sessionOf (bad good : Bytes) :
    Project.tools (sessionOf bad good).tree {} =
      [("bad", toolFile "bad.json"), ("good", toolFile "good.json")] := by
  have files : toolFiles (sessionOf bad good).tree {} = [toolFile "bad.json", toolFile "good.json"] := by
    have names : (sessionOf bad good).tree.names (toolFolder {}) = ["bad.json", "good.json"] := rfl
    rw [toolFiles_of_sorted names (by decide)]
    rfl
  rw [Project.tools, files]
  decide

/-- A file that is no JSON gets a report, and so does the tool after it. -/
theorem lint_each_refused :
    let s := sessionOf (Text.encodeUtf8 "[") (Text.encodeUtf8 "\x7b\x7d")
    s.tree.find {} = .ok .folder ∧ Settings.load s.tree {} = .ok Settings.default ∧
      ∃ opened s', lint {} none s =
          (.ok [("bad", reportOf s.tree false (toolFile "bad.json")),
            ("good", reportOf s.tree false (toolFile "good.json"))], s') ∧
        (Log.ofProject {} 4096).Extends opened s'.tree fun file =>
          if file = none ∧ (Log.ofProject {} 4096).TakesLines opened then
            lintedEvents s.tree "08:00" false
              [("bad", toolFile "bad.json"), ("good", toolFile "good.json")]
          else [] := by
  intro s
  obtain ⟨found, loads, free⟩ := ready_sessionOf (Text.encodeUtf8 "[") (Text.encodeUtf8 "\x7b\x7d")
  have stay : ∀ tool ∈ [("bad", toolFile "bad.json"), ("good", toolFile "good.json")],
      Tool.escape? s.tree tool.2 = none := by
    decide +kernel
  obtain ⟨opened, result, s', _, run, linted⟩ := (lint_each {} none s _ 4096 found loads).2.1 free
  rw [tools_sessionOf] at linted
  rw [(linted.reports stay).1] at run
  exact ⟨found, loads, opened, s', run, linted.events⟩

/-- A tool file that is no text is not refused by a configuration error, and stops linting. -/
theorem not_refused_broken :
    let s := sessionOf [0xFF] (Text.encodeUtf8 "\x7b\x7d")
    let e := ProjectError.notText ⟨0, [0xFF], .badStart⟩
    Settings.load s.tree {} = .ok Settings.default ∧
      Project.tools s.tree {} = [("bad", toolFile "bad.json"), ("good", toolFile "good.json")] ∧
      Tool.load s.tree (toolFile "bad.json") = .error e ∧ e.isConfig = false ∧
      ∃ s', lint {} none s = (.error e, s') := by
  intro s e
  obtain ⟨found, loads, free⟩ := ready_sessionOf [0xFF] (Text.encodeUtf8 "\x7b\x7d")
  have listed := tools_sessionOf [0xFF] (Text.encodeUtf8 "\x7b\x7d")
  have escapes : Tool.escape? s.tree (toolFile "bad.json") = some e := by
    decide +kernel
  obtain ⟨failed, other⟩ := Tool.load_of_escape escapes
  obtain ⟨opened, result, s', _, run, linted⟩ := exists_lint (s := s) none 4096 found loads free
  have stopped := (linted.escaped [] "bad" _ _ e listed (by simp) escapes).1
  exact ⟨loads, listed, failed, other, s', stopped ▸ run⟩

end Project

end LessonCalc
