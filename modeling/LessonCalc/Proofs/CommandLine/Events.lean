import LessonCalc.CommandLine.Run

/-!
# What is shown of events

The command for events asks the log once and writes a line for each event that it gets.  An event whose
level is no text has no line, and stops the command.

* `Command.bind_ok`, `Command.bind_error`: a command goes on after a step that succeeds, and ends at one
  that does not.
* `ShownAs`, `exists_showEvents`: events are shown from the first one on, up to one that has no line.
* `exists_runEvents`: so the command shows the first events of the answer to its query, and nothing else.
-/

namespace LessonCalc.CommandLine

/-! ## Steps of commands -/

namespace Command

variable {α β : Type} {step : Command α} {next : α → Command β} {c c' : Console}

theorem bind_eq (step : Command α) (next : α → Command β) (c : Console) : (step >>= next) c =
    (fun out : Except Halt α × Console => ExceptT.bindCont next out.1 out.2) (step c) :=
  rfl

/-- A command goes on after a step that succeeds. -/
theorem bind_ok {a : α} (done : step c = (.ok a, c')) : (step >>= next) c = next a c' := by
  rw [bind_eq, done]
  rfl

/-- A command ends at a step that does not succeed. -/
theorem bind_error {halt : Halt} (ended : step c = (.error halt, c')) :
    (step >>= next) c = (.error halt, c') := by
  rw [bind_eq, ended]
  rfl

theorem newWarning_of_same {s s' : Session} (same : s'.warning? = s.warning?) : newWarning s s' = "" := by
  unfold newWarning
  split
  next none some =>
    rw [same, none] at some
    cases some
  next => rfl

variable {told : ProjectError → Bool} {work : Work α} {s' : Session}

/-- Work that succeeds without a warning changes nothing but the session. -/
theorem working_ok {a : α} (done : work c.session = (.ok a, s')) (same : s'.warning? = c.session.warning?) :
    working told work c = (.ok a, { c with session := s' }) := by
  rw [working, done]
  simp only [newWarning_of_same same, String.append_empty]

/-- An error that has no words ends a command without a text. -/
theorem working_error {e : ProjectError} (failed : work c.session = (.error e, s'))
    (same : s'.warning? = c.session.warning?) (untold : told e = false) :
    working told work c = (.error (.error e), { c with session := s' }) := by
  rw [working, failed]
  simp only [newWarning_of_same same, String.append_empty, untold, Bool.false_eq_true, ↓reduceIte]

end Command

/-! ## Showing events -/

/-- Writes the line of an event. -/
def showEvent (e : Json) : Command Unit := do
  let line ← Command.working (fun _ => false) (Work.look fun _ => eventLine e)
  Command.writeLine line

/-- The text of lines, each with its end. -/
def textOf (lines : List String) : String :=
  String.join (lines.map (· ++ "\n"))

variable {c : Console} {e : Json}

theorem textOf_cons (line : String) (lines : List String) :
    textOf (line :: lines) = line ++ "\n" ++ textOf lines := by
  rw [textOf, List.map_cons, String.join_cons, textOf]

/-- An event that has a line is shown by it. -/
theorem showEvent_ok {line : String} (has : eventLine e = .ok line) :
    showEvent e c = (.ok (), { c with out := c.out ++ (line ++ "\n") }) := by
  have looked : Work.look (fun _ => eventLine e) c.session = (.ok line, c.session) := by
    rw [Work.look, has]
  rw [showEvent, Command.bind_ok (Command.working_ok looked rfl)]
  rfl

/-- An event that has no line stops the command. -/
theorem showEvent_error {stop : ProjectError} (without : eventLine e = .error stop) :
    showEvent e c = (.error (.error stop), c) := by
  have looked : Work.look (fun _ => eventLine e) c.session = (.error stop, c.session) := by
    rw [Work.look, without]
  rw [showEvent, Command.bind_error (Command.working_error looked rfl rfl)]

/-- The lines of the first events of some, of all of them unless the next one has no line. -/
structure ShownAs (events : List Json) (lines : List String) : Prop where
  front : ∃ shown, shown <+: events ∧ shown.mapM eventLine = .ok lines
  whole : lines.length = events.length ∨
    ∃ e stop, events[lines.length]? = some e ∧ eventLine e = .error stop

theorem shownAs_nil : ShownAs [] [] :=
  ⟨⟨[], List.prefix_refl _, rfl⟩, .inl rfl⟩

theorem shownAs_of_error {rest : List Json} {stop : ProjectError} (without : eventLine e = .error stop) :
    ShownAs (e :: rest) [] :=
  ⟨⟨[], List.nil_prefix, rfl⟩, .inr ⟨e, stop, rfl, without⟩⟩

theorem ShownAs.cons {rest : List Json} {line : String} {lines : List String}
    (has : eventLine e = .ok line) (more : ShownAs rest lines) : ShownAs (e :: rest) (line :: lines) := by
  obtain ⟨⟨shown, front, written⟩, whole⟩ := more
  refine ⟨⟨e :: shown, List.cons_prefix_cons.mpr ⟨rfl, front⟩, ?_⟩, whole.imp (congrArg (· + 1)) id⟩
  rw [List.mapM_cons, has, written]
  rfl

/-- Events are shown by their lines, from the first one on, up to one that has no line. -/
theorem exists_showEvents (events : List Json) (c : Console) :
    ∃ lines, ShownAs events lines ∧
      (events.forM showEvent c).2 = { c with out := c.out ++ textOf lines } := by
  induction events generalizing c with
  | nil =>
      refine ⟨[], shownAs_nil, ?_⟩
      rw [textOf, List.map_nil, String.join_nil, String.append_empty]
      rfl
  | cons e rest ih =>
      have first : (e :: rest).forM showEvent = showEvent e >>= fun _ => rest.forM showEvent := rfl
      rw [first]
      cases line? : eventLine e with
      | error stop =>
          refine ⟨[], shownAs_of_error line?, ?_⟩
          rw [Command.bind_error (showEvent_error line?), textOf, List.map_nil, String.join_nil,
            String.append_empty]
      | ok line =>
          obtain ⟨lines, shown, wrote⟩ := ih { c with out := c.out ++ (line ++ "\n") }
          refine ⟨line :: lines, shown.cons line?, ?_⟩
          rw [Command.bind_ok (showEvent_ok line?), wrote, textOf_cons, String.append_assoc]

/-! ## The command -/

theorem out_run (command : Command Unit) (s : Session) :
    (command.run s).1.out = (command { session := s }).2.out := by
  rw [Command.run]
  rcases command { session := s } with ⟨⟨_ | _⟩ | _, _⟩ <;> rfl

/-- What the command for events writes if its query is answered: the lines of the first events of the
answer, of all of them unless one has no line. -/
theorem exists_runEvents {s : Session} {t : FileTree} {folder : String} {log : Log} {query : Log.Query}
    {found : List Json}
    (opened : s.openLog (Path.ofString folder) Log.defaultWindow = (.ok log, { s with tree := t }))
    (answered : log.read t query = .ok found) :
    ∃ lines, ShownAs found lines ∧
      ((runEvents folder query).run s).1.out =
        if found = [] then "No events found.\n" else textOf lines := by
  have ran : runEvents folder query { session := s } =
      (if found.isEmpty then Command.writeLine "No events found." else found.forM showEvent)
        { session := { s with tree := t } } := by
    rw [runEvents]
    refine Command.bind_ok (Command.working_ok (?_ : _ = (Except.ok found, { s with tree := t })) rfl)
    rw [opened]
    show ((log.read t query).mapError ProjectError.log, { s with tree := t }) = _
    rw [answered]
    rfl
  rw [out_run, ran]
  cases found with
  | nil => exact ⟨[], shownAs_nil, rfl⟩
  | cons e rest =>
      obtain ⟨lines, shown, wrote⟩ := exists_showEvents (e :: rest) { session := { s with tree := t } }
      refine ⟨lines, shown, ?_⟩
      simp only [List.isEmpty_cons, Bool.false_eq_true, ↓reduceIte, wrote, reduceCtorEq,
        String.empty_append]

end LessonCalc.CommandLine
