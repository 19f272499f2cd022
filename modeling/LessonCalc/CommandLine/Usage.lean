import LessonCalc.CommandLine.Spec
import LessonCalc.Program
import LessonCalc.Text.Similarity

/-!
# Usage and help

How the program tells what can be asked, and what is wrong with what was asked.  Text is wrapped to
lines of bounded width; a table of options or commands has the names in one column and their help in
another.
-/

namespace LessonCalc.CommandLine

open LessonCalc.Text

/-! ## Layout -/

/-- The width of a line. -/
def lineWidth : Nat := 78

/-- The words of a text, in lines of a width; `line` is the line so far. -/
def wrapWords (width : Nat) : String → List String → List String
  | line, [] => [line]
  | line, word :: words =>
    if line.length + 1 + word.length ≤ width then wrapWords width (line ++ " " ++ word) words
    else line :: wrapWords width word words

/-- A text in lines of a width. -/
def wrap (width : Nat) (text : String) : List String :=
  match text.splitOn " " with
  | [] => []
  | word :: words => wrapWords width word words

/-- A text filled up with blanks to a least width. -/
def padRight (width : Nat) (text : String) : String :=
  text ++ String.ofList (List.replicate (width - text.length) ' ')

/-- The most characters of a name that stands in a line with its help. -/
def nameWidth : Nat := 30

/-- The rows of a table. -/
def tableLines (rows : List (String × String)) : List String :=
  let widest := (rows.map fun (name, _) => name.length).foldl max 0
  let column := min widest nameWidth + 2
  rows.flatMap fun (name, help) =>
    let lines := wrap (lineWidth - column - 2) help
    let indent := padRight (column + 2) ""
    if name.length + 2 ≤ column then
      match lines with
      | [] => ["  " ++ name]
      | first :: rest => ("  " ++ padRight column name ++ first) :: rest.map (indent ++ ·)
    else ("  " ++ name) :: lines.map (indent ++ ·)

/-- A table under a heading. -/
def titledTable (heading : String) (rows : List (String × String)) : List String :=
  ["", heading ++ ":"] ++ tableLines rows

/-! ## Usage -/

/-- The name of an argument in a usage. -/
def ArgumentSpec.shown (a : ArgumentSpec) : String :=
  if a.isRequired then a.name else "[" ++ a.name ++ "]"

/-- How a command is called; without a command, how the program is. -/
def callOf : Option CommandSpec → String
  | none => programName
  | some c => programName ++ " " ++ c.name

/-- The usage of a command or of the program. -/
def usageOf (command : Option CommandSpec) : String :=
  let rest := match command with
    | none => "COMMAND [ARGS]..."
    | some c => c.argument.shown
  s!"Usage: {callOf command} [OPTIONS] {rest}"

/-! ## Help -/

/-- What stands for the value of an option. -/
def ValueKind.placeholder : ValueKind → String
  | text => "TEXT"
  | path => "PATH"
  | existingPath => "PATH"
  | whole => "INTEGER"
  | choice names => "[" ++ String.intercalate "|" names ++ "]"

/-- The row of an option. -/
def OptionSpec.row (o : OptionSpec) : String × String :=
  let name := match o.kind? with
    | some kind => o.name ++ " " ++ kind.placeholder
    | none => o.name
  (name, if o.isRequired then o.help ++ "  [required]" else o.help)

/-- What the program does. -/
def programAbout : String :=
  "calcblocks -- safe formula engine for interactive lesson tools."

/-- The row of a command. -/
def CommandSpec.row (c : CommandSpec) : String × String :=
  (c.name, c.about.headD "")

/-- The help for a command or for the program. -/
def helpFor (command : Option CommandSpec) : String :=
  let about := match command with
    | none => [programAbout]
    | some c => c.about
  let paragraphs := about.flatMap fun text => "" :: (wrap (lineWidth - 2) text).map ("  " ++ ·)
  let sections := match command with
    | none =>
      titledTable "Options" ([versionOption, helpOption].map OptionSpec.row) ++
        titledTable "Commands" (allSpecs.map CommandSpec.row)
    | some c => titledTable "Options" (c.allOptions.map OptionSpec.row)
  String.join ((usageOf command :: paragraphs ++ sections).map (· ++ "\n"))

/-! ## Faults -/

/-- What is wrong with a call. -/
inductive UsageFault where
  | noArguments
  | noCommand
  | unknownCommand (name : String)
  | unknownOption (name : String) (known : List String)
  | valueMissing (option : String)
  | valueForFlag (option : String)
  | argumentMissing (name : String)
  | optionMissing (name : String)
  | badValue (parameter reason : String)
  | extraArguments (arguments : List String)
  deriving Repr, DecidableEq

/-- The wording of a fault. -/
def UsageFault.message : UsageFault → String
  | noArguments => ""
  | noCommand => "Missing command."
  | unknownCommand name =>
    withSuggestions s!"No such command {quote name}."
      (closeWords name (allSpecs.map CommandSpec.name))
  | unknownOption name known =>
    withSuggestions s!"No such option {quote name}." (closeWords name known)
  | valueMissing option => s!"Option {quote option} requires an argument."
  | valueForFlag option => s!"Option {quote option} does not take a value."
  | argumentMissing name => s!"Missing argument '{name}'."
  | optionMissing name => s!"Missing option '{name}'."
  | badValue parameter reason => s!"Invalid value for '{parameter}': {reason}"
  | extraArguments arguments =>
    let noun := if arguments.length = 1 then "argument" else "arguments"
    let listed := String.intercalate " " arguments
    s!"Got unexpected extra {noun} ({listed})"

/-- Whether a fault is told without the usage. -/
def UsageFault.isBare : UsageFault → Bool
  | valueMissing _ => true
  | valueForFlag _ => true
  | _ => false

/-- What is told of a fault in a call of a command or of the program. -/
def UsageFault.report (fault : UsageFault) (command : Option CommandSpec) : String :=
  match fault with
  | .noArguments => helpFor command
  | fault =>
    let usage :=
      if fault.isBare then ""
      else s!"{usageOf command}\nTry '{callOf command} --help' for help.\n\n"
    usage ++ s!"Error: {fault.message}\n"

end LessonCalc.CommandLine
