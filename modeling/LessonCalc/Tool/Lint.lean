import LessonCalc.Formula.Parse
import LessonCalc.Tool.Basic

/-!
# Checking a tool

A tool is computed whatever its formulas are.  These checks find what its author did not mean: ids
declared twice, formulas that are blank or not well formed, and names that have no value where they
are used.
-/

namespace LessonCalc

open LessonCalc.Formula LessonCalc.Text

namespace Lint

/-! ## Issues -/

/-- How grave an issue is. -/
inductive Severity where
  | error
  | warning
  deriving Repr, DecidableEq

/-- The name of a severity. -/
def Severity.name : Severity → String
  | .error => "error"
  | .warning => "warning"

/-- What is wrong with a tool. -/
inductive Problem where
  | duplicateId (id : String) (count : Nat)
  | emptyFormula (output : String)
  | syntaxError (output : String) (error : ParseError)
  | forwardReference (output name : String)
  | unknownReference (output name : String) (available : List String)
  | invalidConfig (message : String)
  deriving Repr, DecidableEq

namespace Problem

/-- The code of a problem. -/
def code : Problem → String
  | duplicateId .. => "duplicate_id"
  | emptyFormula .. => "empty_formula"
  | syntaxError .. => "syntax_error"
  | forwardReference .. => "forward_reference"
  | unknownReference .. => "unknown_reference"
  | invalidConfig .. => "invalid_config"

/-- The wording of a problem. -/
def message : Problem → String
  | duplicateId id count => s!"Id {quote id} is declared {count} times"
  | emptyFormula output => s!"Output {quote output} has an empty formula"
  | syntaxError output error => s!"Output {quote output}: {error.detail}"
  | forwardReference output name =>
    s!"Output {quote output} references {quote name}, which is not " ++
      "computed yet at this point and evaluates to 0"
  | unknownReference output name available =>
    s!"Output {quote output} references unknown name {quote name}. " ++
      s!"Available: {quoteList available}"
  | invalidConfig message => message

/-- The id that a problem is about. -/
def outputId? : Problem → Option String
  | duplicateId id _ => some id
  | emptyFormula output => some output
  | syntaxError output _ => some output
  | forwardReference output _ => some output
  | unknownReference output _ _ => some output
  | invalidConfig _ => none

/-- Where in its formula a problem stands. -/
def position? : Problem → Option Nat
  | syntaxError _ error => error.position
  | _ => none

end Problem

/-- A problem and how grave it is. -/
structure Issue where
  severity : Severity
  problem : Problem
  deriving Repr, DecidableEq

/-! ## Checks -/

/-- The ids that occur more than once, each with its count, in order of first occurrence. -/
def duplicates (ids : List String) : List (String × Nat) :=
  (ids.eraseDups.map fun id => (id, ids.count id)).filter fun (_, count) => 1 < count

/-- The problem with a name, if it has no value where it is used: only inputs and earlier outputs
have one. -/
def nameProblem? (output : String) (inputs earlier later : List String) (name : String) :
    Option Problem :=
  if inputs.contains name ∨ earlier.contains name then none
  else if later.contains name then some (.forwardReference output name)
  else some (.unknownReference output name (sortedNames (inputs ++ earlier)))

/-- The issues of a formula.  Problems with names have a severity of their own. -/
def formulaIssues (ofNames : Severity) (inputs earlier later : List String) (o : Tool.Output) :
    List Issue :=
  if dropBlanks o.formula.toList = [] then [⟨.error, .emptyFormula o.id⟩]
  else
    match parse o.formula with
    | .error e => [⟨.error, .syntaxError o.id e⟩]
    | .ok tree =>
      (tree.refs.filterMap (nameProblem? o.id inputs earlier later)).map fun p => ⟨ofNames, p⟩

/-- The issues of the formulas of outputs, of which those in `earlier` come before. -/
def outputIssues (ofNames : Severity) (inputs : List String) :
    List String → List Tool.Output → List Issue
  | _, [] => []
  | earlier, o :: rest =>
    formulaIssues ofNames inputs earlier (o.id :: rest.map (·.id)) o ++
      outputIssues ofNames inputs (earlier ++ [o.id]) rest

/-- The ids of the inputs of a tool. -/
def inputIds (t : Tool) : List String :=
  t.inputs.map (·.id)

/-- The ids of the outputs of a tool. -/
def outputIds (t : Tool) : List String :=
  t.outputs.map (·.id)

/-- All issues of a tool: ids declared twice first, then its formulas in order.  Names without a
value are errors if the check is strict and warnings otherwise. -/
def check (t : Tool) (strict : Bool) : List Issue :=
  (duplicates (inputIds t ++ outputIds t)).map
      (fun (id, count) => ⟨.error, .duplicateId id count⟩) ++
    outputIssues (if strict then .error else .warning) (inputIds t) [] t.outputs

/-! ## Reports -/

/-- The outcome of a check. -/
inductive Status where
  | pass
  | warn
  | fail
  deriving Repr, DecidableEq

/-- The name of an outcome. -/
def Status.name : Status → String
  | .pass => "pass"
  | .warn => "warn"
  | .fail => "fail"

/-- How many issues are errors. -/
def errorCount (issues : List Issue) : Nat :=
  issues.countP (·.severity == .error)

/-- How many issues are no errors. -/
def warningCount (issues : List Issue) : Nat :=
  issues.length - errorCount issues

/-- Whether an issue is an error. -/
def hasErrors (issues : List Issue) : Bool :=
  issues.any (·.severity == .error)

/-- The outcome of a check: its gravest issue decides. -/
def status (issues : List Issue) : Status :=
  if errorCount issues ≠ 0 then .fail
  else if warningCount issues ≠ 0 then .warn
  else .pass

/-- All fields of an issue. -/
def Issue.toJson (i : Issue) : Json :=
  .object [("severity", .string i.severity.name), ("code", .string i.problem.code),
    ("message", .string i.problem.message), ("output_id", .ofOption i.problem.outputId?),
    ("position", match i.problem.position? with | some n => .int n | none => .null)]

/-- The fields of a report. -/
def reportFields (issues : List Issue) : List (RawText × Json) :=
  [("status", .string (status issues).name), ("error_count", .int (errorCount issues)),
   ("warning_count", .int (warningCount issues)), ("issues", .array (issues.map Issue.toJson))]

/-- A report on the issues of a tool. -/
def report (issues : List Issue) : Json :=
  .object (reportFields issues)

end Lint

end LessonCalc
