/-!
# The commands

What can be asked on the command line: the commands, the argument that each takes, and the options.
An option starts with two hyphens.  It takes a value, or else is a flag.
-/

namespace LessonCalc.CommandLine

/-- What the value of an argument or an option has to be. -/
inductive ValueKind where
  | text
  | path
  | existingPath
  | whole
  | choice (names : List String)
  deriving Repr, DecidableEq

/-- An option.  One without a kind is a flag. -/
structure OptionSpec where
  name : String
  kind? : Option ValueKind := none
  isRequired : Bool := false
  help : String
  deriving Repr, DecidableEq

/-- The argument of a command. -/
structure ArgumentSpec where
  name : String
  kind : ValueKind := .text
  isRequired : Bool := true
  deriving Repr, DecidableEq

/-- A command.  `about` is told in its help, one paragraph each, and the first of them in the list
of all commands. -/
structure CommandSpec where
  name : String
  about : List String
  argument : ArgumentSpec
  options : List OptionSpec := []
  deriving Repr, DecidableEq

/-! ## Options of several commands -/

/-- The flag that asks for help. -/
def helpOption : OptionSpec :=
  { name := "--help", help := "Show this message and exit." }

/-- The flag that asks for the version. -/
def versionOption : OptionSpec :=
  { name := "--version", help := "Show the version and exit." }

/-- The option for the project that a tool is looked up in. -/
def projectOption : OptionSpec :=
  { name := "--project", kind? := some .existingPath
    help := "Treat TOOL as a tool name in this project." }

/-- The flag for output as JSON. -/
def jsonOption : OptionSpec :=
  { name := "--json", help := "Output as JSON." }

/-! ## The commands -/

/-- Makes a project. -/
def newSpec : CommandSpec :=
  { name := "new"
    about := ["Scaffold a demo project at DIRECTORY."]
    argument := { name := "DIRECTORY", kind := .path } }

/-- Evaluates a formula. -/
def evalSpec : CommandSpec :=
  { name := "eval"
    about := ["Evaluate FORMULA and print the result."]
    argument := { name := "FORMULA" }
    options := [{ name := "--var", kind? := some .text, help := "Variable as name=number." }] }

/-- Computes a tool. -/
def computeSpec : CommandSpec :=
  { name := "compute"
    about := ["Compute the outputs of TOOL for the given inputs."]
    argument := { name := "TOOL" }
    options := [projectOption,
      { name := "--set", kind? := some .text, help := "Input value as id=value." }, jsonOption] }

/-- Checks tools. -/
def lintSpec : CommandSpec :=
  { name := "lint"
    about := ["Check a tool file, or every tool in a project directory.",
      "Exits with status 1 if any error is found."]
    argument := { name := "TARGET", kind := .existingPath }
    options := [
      { name := "--strict"
        help := "Report reference problems as errors (overrides lint_strict)." }, jsonOption] }

/-- Runs a batch. -/
def batchSpec : CommandSpec :=
  { name := "batch"
    about := ["Evaluate TOOL once per row of an inputs CSV."]
    argument := { name := "TOOL" }
    options := [
      { name := "--inputs", kind? := some .existingPath, isRequired := true
        help := "CSV file with one row of inputs per evaluation." },
      projectOption,
      { name := "--out", kind? := some .path
        help := "Write results to this CSV instead of stdout." },
      { name := "--max-workers", kind? := some .whole
        help := "Number of parallel workers (1=sequential)." }] }

/-- Serves the API. -/
def serveSpec : CommandSpec :=
  { name := "serve"
    about := ["Serve the HTTP API, optionally for the project in DIRECTORY."]
    argument := { name := "DIRECTORY", kind := .existingPath, isRequired := false }
    options := [{ name := "--host", kind? := some .text, help := "Bind host." },
      { name := "--port", kind? := some .whole, help := "Bind port." }] }

/-- Shows events. -/
def eventsSpec : CommandSpec :=
  { name := "events"
    about := ["Show structured event log for DIRECTORY."]
    argument := { name := "DIRECTORY", kind := .existingPath }
    options := [
      { name := "--level", kind? := some (.choice ["info", "warning", "error"])
        help := "Filter by level." },
      { name := "--type", kind? := some .text, help := "Filter by event type." },
      { name := "--tool", kind? := some .text, help := "Filter by tool name." },
      { name := "--batch-id", kind? := some .text, help := "Filter by batch id." },
      { name := "--limit", kind? := some .whole, help := "Max events to show." }] }

/-- All commands, in the order of their names. -/
def allSpecs : List CommandSpec :=
  [batchSpec, computeSpec, evalSpec, eventsSpec, lintSpec, newSpec, serveSpec]

/-- All options of a command. -/
def CommandSpec.allOptions (c : CommandSpec) : List OptionSpec :=
  c.options ++ [helpOption]

end LessonCalc.CommandLine
