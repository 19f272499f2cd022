import LessonCalc.Batch.Run
import LessonCalc.CommandLine.Call
import LessonCalc.CommandLine.Console
import LessonCalc.Csv.Writer
import LessonCalc.Http.Api
import LessonCalc.Json.Shown
import LessonCalc.Project.Lint
import LessonCalc.Project.Scaffold
import LessonCalc.Text.Upper

/-!
# Running commands

What each command does with its call.
-/

namespace LessonCalc.CommandLine

open LessonCalc.Text LessonCalc.Number

/-! ## Values of calls -/

/-- The pairs that an option gives. -/
def readPairs (option : String) (texts : List String) : Command (Entries String String) := do
  let pairs ← texts.mapM fun text =>
    match splitPair text with
    | (name, some value) => return (String.ofList (strip name.toList), value)
    | (_, none) => Command.fail s!"Invalid {option} format: {quote text}. Use key=value."
  return Entries.ofList pairs

/-- A number without a fraction as an integer, if it has at most sixteen digits. -/
def resultText (x : Float) : String :=
  if isWhole x && decide (x.abs < 1e16) then intText (truncate x) else plainText x

/-- The tool that a call names: a file, or a tool of a project.  Gives its name too. -/
def loadTool (tool : String) (project : Option String) : Command (String × Tool) := do
  let path ← match project with
    | some folder =>
      Command.working ProjectError.isConfig (Work.look fun t =>
        Project.findTool t (Path.ofString folder) tool)
    | none => do
      let path := Path.ofString tool
      match (← get).session.tree.find path with
      | .ok (.file _) => pure path
      | .error .nameTooLong => throw (.error (.file ⟨.nameTooLong, path⟩))
      | _ => Command.fail s!"Tool file not found: {tool}"
  let found ← Command.working ProjectError.isConfig (Work.look fun t => Tool.load t path)
  return (path.stem, found)

/-! ## Single tools -/

/-- Makes a project. -/
def runNew (folder : String) : Command Unit := do
  let isTaken : ProjectError → Bool
    | .settingsThere _ => true
    | .file e => e.fault == .taken
    | _ => false
  let made ← Command.working isTaken
    (Work.change fun t => Project.scaffold t (Path.ofString folder))
  Command.writeLine s!"Created project at {made.text}"

/-- Evaluates a formula. -/
def runEval (formula : String) (assignments : List String) : Command Unit := do
  let pairs ← readPairs "--var" assignments
  let numbers ← pairs.mapM fun (name, text) =>
    match floatText? text with
    | some x => return (name, Json.float x)
    | none => Command.fail s!"Variable {quote name} is not a number: {quote text}"
  let room := (← get).session.host.render
  Command.writeLine (resultText (Formula.evaluate room.formula formula numbers))

/-- What an output is called. -/
def outputTitle (o : Tool.Output) : String :=
  if o.label = "" then o.id else o.label

/-- The line of an output. -/
def outputLine (width : Nat) (c : Tool.Computed) : String :=
  let mark := if c.output.highlight then "*" else " "
  s!" {mark} {padRight width (outputTitle c.output)}  {c.formatted}"

/-- The outputs of a tool as JSON. -/
def computedJson (c : Tool.Computed) : Json :=
  .object [("id", .string c.output.id), ("value", .float c.value),
    ("formatted", .string c.formatted)]

/-- Computes a tool. -/
def runCompute (tool : String) (project : Option String) (values : List String)
    (asJson : Bool) : Command Unit := do
  let (_, tool) ← loadTool tool project
  let pairs ← readPairs "--set" values
  let entered := pairs.map fun (name, text) => (name, Json.string text)
  match tool.compute (← get).session.host.render entered with
  | .error e => throw (.error (.entry e))
  | .ok computed =>
    if asJson then
      Command.writeLine (Json.array (computed.map computedJson)).pretty
    else
      if tool.title ≠ "" then Command.writeLine tool.title
      let width := (computed.map fun c => (outputTitle c.output).length).foldl max 0
      Command.writeLines (computed.map (outputLine width))

/-! ## Linting -/

/-- The line of an issue. -/
def issueLine (i : Lint.Issue) : String :=
  let place := match i.problem.outputId? with
    | some id => if id = "" then "" else s!" [{id}]"
    | none => ""
  s!"  {padRight 7 i.severity.name} {i.problem.code}{place}: {i.problem.message}"

/-- The lines of a report. -/
def reportLines (name : String) (issues : List Lint.Issue) : List String :=
  let status := upperCase (Lint.status issues).name
  s!"{name}: {status}" :: issues.map issueLine

/-- Checks tools. -/
def runLint (target : String) (strict asJson : Bool) : Command Unit := do
  let path := Path.ofString target
  let reports ←
    if (← get).session.tree.isFolder path then
      Command.working ProjectError.isConfig
        (Project.lint path (if strict then some true else none))
    else do
      let (name, tool) ← loadTool target none
      pure [(name, Lint.check tool strict)]
  if reports.isEmpty then Command.writeLine "No tools found."
  else
    if asJson then
      Command.writeLine
        (Json.object (reports.map fun (name, issues) => (name, Lint.report issues))).pretty
    else
      Command.writeLines (reports.flatMap fun (name, issues) => reportLines name issues)
    if reports.any fun (_, issues) => Lint.hasErrors issues then Command.exit 1

/-! ## Batches -/

/-- Writes a table to a file. -/
def saveTable (path : String) (table : Table) : Command Unit :=
  Command.working (fun _ => false) fun s =>
    match s.tree.write (Path.ofString path) (encodeUtf8 (Csv.write table)) with
    | .ok tree => (.ok (), { s with tree })
    | .error e => (.error (.tableFile e.fault path), s)

/-- Over how many workers a batch is spread, by the settings of its project unless told. -/
def workersFor (t : FileTree) (project : Option Path) : Option Int → Except ProjectError Int
  | some workers => .ok workers
  | none =>
    match project with
    | none => .ok 1
    | some folder => do (← Settings.load t folder).whole "batch_max_workers"

/-- Runs a batch. -/
def runBatch (tool inputs : String) (project out : Option String) (workers : Option Int) :
    Command Unit := do
  let (name, found) ← loadTool tool project
  let folder := project.map Path.ofString
  let rows ← Command.working (fun _ => false)
    (Work.look fun t => Batch.loadTable t (Path.ofString inputs))
  let isTold (e : ProjectError) : Bool := e.isConfig || e.isValue
  let workers ← Command.working isTold (Work.look fun t => workersFor t folder workers)
  let table ← Command.working isTold
    (Batch.run found (Batch.recordsOf rows) (some name) folder workers)
  match out with
  | none | some "" => Command.write (Csv.write table)
  | some path =>
    saveTable path table
    Command.writeLine s!"Wrote {table.height} row(s) to {path}"

/-! ## The server -/

/-- Opens the API, and tells where it is.  A server that is `interrupted` tells that it has
stopped. -/
def runServe (folder : Option String) (host : String) (port : Int) (interrupted : Bool) :
    Command Unit := do
  let _ ← Command.working (fun _ => false) (Http.start (folder.map Path.ofString))
  if folder.isSome then
    Command.working (fun _ => false) (Work.update (·.recordInfo .serverStarted
      s!"Serving on {host}:{port}" [("host", .string host), ("port", .int port)] none))
  Command.writeLine s!"Serving API at http://{host}:{port}/api"
  Command.writeLine "Press Ctrl+C to stop"
  if interrupted then Command.writeLine "\nStopped."

/-! ## Events -/

/-- The text of a value in a line.  A torn text cannot be written. -/
def shownText (v : Json) : Except ProjectError String :=
  match v.shown with
  | .whole s => .ok s
  | .torn _ => .error (.answer .brokenText)

/-- A field of an event as it is shown; nothing if it is missing. -/
def shownField (entries : List (RawText × Json)) (key : String) : Except ProjectError String :=
  match entries.lookup (.whole key) with
  | some v => shownText v
  | none => .ok ""

/-- The line of an event. -/
def eventLine : Json → Except ProjectError String
  | .object entries =>
    match (entries.lookup (.whole "level")).getD (.string "") with
    | .string level => do
      let level ← shownText (.string level)
      let time ← shownField entries "ts"
      let kind ← shownField entries "event_type"
      let message ← shownField entries "message"
      let code := (entries.lookup (.whole "error_code")).getD .null
      let ending ← if code.isTruthy then (shownText code).map fun s => s!"  ({s})" else pure ""
      return s!"[{time}] {padRight 7 (upperCase level)} {kind}: {message}" ++ ending
    | _ => .error .noLevel
  | _ => .error (.log .noObject)

/-- Shows events. -/
def runEvents (folder : String) (query : Log.Query) : Command Unit := do
  let events ← Command.working (fun _ => false) fun s =>
    match s.openLog (Path.ofString folder) Log.defaultWindow with
    | (.error e, s) => (.error (.file e), s)
    | (.ok log, s) => ((log.read s.tree query).mapError .log, s)
  if events.isEmpty then Command.writeLine "No events found."
  else
    events.forM fun e => do
      let line ← Command.working (fun _ => false) (Work.look fun _ => eventLine e)
      Command.writeLine line

/-! ## The program -/

/-- Does what a call asks for. -/
def runCall (interrupted : Bool) : Call → Command Unit
  | .new folder => runNew folder
  | .eval formula assignments => runEval formula assignments
  | .compute tool project values asJson => runCompute tool project values asJson
  | .lint target strict asJson => runLint target strict asJson
  | .batch tool inputs project out workers => runBatch tool inputs project out workers
  | .serve folder host port => runServe folder host port interrupted
  | .events folder query => runEvents folder query

/-- Does what the arguments of the program ask for. -/
def runArguments (arguments : List String) (interrupted : Bool) : Command Unit := do
  match read (← get).session.tree arguments with
  | .error misuse => Command.complain 2 (misuse.fault.report misuse.command)
  | .ok .version => Command.writeLine s!"{programName}, version {version}"
  | .ok (.help command) => Command.write (helpFor command)
  | .ok (.call call) => runCall interrupted call

/-- Runs the program on a session. -/
def run (arguments : List String) (interrupted : Bool) (s : Session) : Outcome × Session :=
  (runArguments arguments interrupted).run s

end LessonCalc.CommandLine
