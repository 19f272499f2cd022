import LessonCalc.CommandLine.Usage
import LessonCalc.Event.Log
import LessonCalc.Number.Whole
import LessonCalc.Text.Split

/-!
# Calls

The arguments of the program, read as a call of one of its commands.  Options may stand before and
behind the argument of a command; two hyphens end them.  The values are checked in the order in
which the options are given, then the argument, and last the options that are not given; what is
left over is told after that.  A path that has to exist is looked up in the files.
-/

namespace LessonCalc.CommandLine

open LessonCalc.Text LessonCalc.Number

/-- A call of a command. -/
inductive Call where
  | new (folder : String)
  | eval (formula : String) (assignments : List String)
  | compute (tool : String) (project : Option String) (values : List String) (asJson : Bool)
  | lint (target : String) (strict asJson : Bool)
  | batch (tool inputs : String) (project out : Option String) (workers : Option Int)
  | serve (folder : Option String) (host : String) (port : Int)
  | events (folder : String) (query : Log.Query)
  deriving Repr, DecidableEq

/-- What the program is asked for. -/
inductive Demand where
  | version
  | help (command : Option CommandSpec)
  | call (call : Call)
  deriving Repr, DecidableEq

/-- A fault in a call, and the command that was called if there is one. -/
structure Misuse where
  command : Option CommandSpec
  fault : UsageFault
  deriving Repr, DecidableEq

/-! ## Options and arguments -/

/-- What was given: options by name, each with its value unless it is a flag, and the rest. -/
structure Given where
  options : List (String × Option String) := []
  rest : List String := []
  deriving Repr, DecidableEq

/-- Adds an option at the front. -/
def Given.withOption (g : Given) (name : String) (value : Option String) : Given :=
  { g with options := (name, value) :: g.options }

/-- Adds an argument at the front. -/
def Given.withArgument (g : Given) (argument : String) : Given :=
  { g with rest := argument :: g.rest }

/-- Whether a text is meant as an option. -/
def isOption (text : String) : Bool :=
  match text.toList with
  | '-' :: _ :: _ => true
  | _ => false

/-- The name before the first equals sign of a text and the value behind it, if there is one. -/
def splitPair (text : String) : String × Option String :=
  let (name, value) := cutFirst '=' text.toList
  (String.ofList name, value.map String.ofList)

/-- The fault of an unknown option: one with a single hyphen is told by its first letter. -/
def unknownOptionFault (specs : List OptionSpec) (text : String) : UsageFault :=
  match text.toList with
  | '-' :: '-' :: _ => .unknownOption (splitPair text).1 (specs.map OptionSpec.name)
  | _ => .unknownOption (String.ofList (text.toList.take 2)) []

/-- Takes options and arguments apart.  Unless options may stand `mixed` with arguments, the first
argument ends them. -/
def takeApart (specs : List OptionSpec) (mixed : Bool) : List String → Except UsageFault Given
  | [] => .ok {}
  | text :: more =>
    if text = "--" then .ok { rest := more }
    else if isOption text then
      let (name, attached) := splitPair text
      match specs.find? (·.name == name) with
      | none => .error (unknownOptionFault specs text)
      | some spec =>
        match spec.kind? with
        | none =>
          match attached with
          | some _ => .error (.valueForFlag name)
          | none => (takeApart specs mixed more).map (·.withOption name none)
        | some _ =>
          match attached with
          | some value => (takeApart specs mixed more).map (·.withOption name (some value))
          | none =>
            match more with
            | [] => .error (.valueMissing name)
            | value :: rest => (takeApart specs mixed rest).map (·.withOption name (some value))
    else if mixed then (takeApart specs mixed more).map (·.withArgument text)
    else .ok { rest := text :: more }

/-! ## Values -/

namespace Given

/-- Whether an option is given. -/
def has (g : Given) (name : String) : Bool :=
  g.options.any (·.1 == name)

/-- All values of an option. -/
def values (g : Given) (name : String) : List String :=
  g.options.filterMap fun (given, value) => if given = name then value else none

/-- The value of an option, which is the last one given. -/
def value? (g : Given) (name : String) : Option String :=
  (g.values name).getLast?

/-- The value of an option that is an integer. -/
def whole? (g : Given) (name : String) : Option Int :=
  (g.value? name).bind fun text => (wholeOfText text).toOption

end Given

/-- Why a text is no value of a kind. -/
def ValueKind.refusal? (t : FileTree) (value : String) : ValueKind → Option String
  | text => none
  | path => none
  | existingPath =>
    if value ≠ "" ∧ t.contains (Path.ofString value) then none
    else some s!"Path {quote value} does not exist."
  | whole =>
    match wholeOfText value with
    | .ok _ => none
    | .error _ => some s!"{quote value} is not a valid integer."
  | choice names =>
    if names.contains value then none
    else
      let listed := String.intercalate ", " (names.map quote)
      some s!"{quote value} is not one of {listed}."

/-- Checks the value of a parameter. -/
def checkValue (t : FileTree) (parameter : String) (kind : ValueKind) (value : String) :
    Except UsageFault Unit :=
  match kind.refusal? t value with
  | some reason => .error (.badValue parameter reason)
  | none => .ok ()

/-- Checks the options that are given, in the order of their first mention. -/
def checkGiven (t : FileTree) (specs : List OptionSpec) (g : Given) : Except UsageFault Unit :=
  (g.options.map Prod.fst).eraseDups.forM fun name =>
    match (specs.find? (·.name == name)).bind OptionSpec.kind?, g.value? name with
    | some kind, some value => checkValue t name kind value
    | _, _ => .ok ()

/-- Checks the argument, if there is one. -/
def checkArgument (t : FileTree) (spec : ArgumentSpec) (g : Given) : Except UsageFault Unit :=
  match g.rest with
  | value :: _ => checkValue t spec.shown spec.kind value
  | [] => if spec.isRequired then .error (.argumentMissing spec.shown) else .ok ()

/-- Checks that the options that have to be given are. -/
def checkMissing (specs : List OptionSpec) (g : Given) : Except UsageFault Unit :=
  match specs.find? fun o => o.isRequired && !g.has o.name with
  | some o => .error (.optionMissing o.name)
  | none => .ok ()

/-- Checks what was given for a command. -/
def CommandSpec.check (t : FileTree) (c : CommandSpec) (g : Given) : Except UsageFault Unit := do
  checkGiven t c.options g
  checkArgument t c.argument g
  checkMissing c.options g
  if 1 < g.rest.length then .error (.extraArguments (g.rest.drop 1))

/-! ## Calls of commands -/

/-- The call of a command with what was given, which has been checked. -/
def CommandSpec.callWith (c : CommandSpec) (g : Given) : Call :=
  let argument := g.rest.headD ""
  match c.name with
  | "new" => .new argument
  | "eval" => .eval argument (g.values "--var")
  | "compute" =>
    .compute argument (g.value? "--project") (g.values "--set") (g.has "--json")
  | "lint" => .lint argument (g.has "--strict") (g.has "--json")
  | "batch" =>
    .batch argument ((g.value? "--inputs").getD "") (g.value? "--project") (g.value? "--out")
      (g.whole? "--max-workers")
  | "serve" =>
    .serve g.rest.head? ((g.value? "--host").getD "127.0.0.1") ((g.whole? "--port").getD 8000)
  | _ =>
    .events argument
      { level := g.value? "--level"
        kind := g.value? "--type"
        tool := g.value? "--tool"
        batch := g.value? "--batch-id"
        limit := (g.whole? "--limit").getD 50 }

/-- Reads the arguments of a command. -/
def CommandSpec.read (t : FileTree) (c : CommandSpec) (arguments : List String) :
    Except UsageFault Demand := do
  let g ← takeApart c.allOptions true arguments
  if g.has helpOption.name then return .help (some c)
  c.check t g
  return .call (c.callWith g)

/-- The options of the program itself. -/
def programOptions : List OptionSpec := [versionOption, helpOption]

/-- What the first option of the program asks for. -/
def programDemand? (g : Given) : Option Demand :=
  g.options.head?.map fun (name, _) => if name = versionOption.name then .version else .help none

/-- The demand for a command by its name.  A name that is none of a command is read once more as an
option, in case it is one behind two hyphens. -/
def readCommand (t : FileTree) (name : String) (arguments : List String) :
    Except Misuse Demand :=
  match allSpecs.find? (·.name == name) with
  | some c => (c.read t arguments).mapError fun fault => ⟨some c, fault⟩
  | none =>
    match takeApart programOptions false (name :: arguments) with
    | .error fault => .error ⟨none, fault⟩
    | .ok g =>
      match programDemand? g with
      | some demand => .ok demand
      | none => .error ⟨none, .unknownCommand name⟩

/-- Reads the arguments of the program. -/
def read (t : FileTree) (arguments : List String) : Except Misuse Demand :=
  if arguments.isEmpty then .error ⟨none, .noArguments⟩
  else
    match takeApart programOptions false arguments with
    | .error fault => .error ⟨none, fault⟩
    | .ok g =>
      match programDemand? g, g.rest with
      | some demand, _ => .ok demand
      | none, [] => .error ⟨none, .noCommand⟩
      | none, name :: rest => readCommand t name rest

end LessonCalc.CommandLine
