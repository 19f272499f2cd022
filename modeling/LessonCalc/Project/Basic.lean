import LessonCalc.Batch.Sweep
import LessonCalc.Csv.Reader
import LessonCalc.Event.Log
import LessonCalc.Yaml.Reader

/-!
# What stops the work on a project

A project is a folder that holds settings and a folder of tools, one file each.  The work on it
stops with an error that names the cause.  A file whose content is refused is a configuration error,
and so is a tool that is not there; these are the errors that an author can mend.
-/

namespace LessonCalc

open LessonCalc.Text LessonCalc.Number

/-- Why the content of a file is refused as a configuration. -/
inductive ConfigFault where
  | unreadable (error : FileError)
  | badJson (message : String)
  | badYaml
  | noMapping
  | invalid (faults : List Fault)
  deriving Repr, DecidableEq

/-- The number of faults in words. -/
def faultCountText (count : Nat) : String :=
  if count = 1 then "1 validation error" else s!"{count} validation errors"

/-- What is told of a refused configuration. -/
def ConfigFault.message : ConfigFault → String
  | unreadable error => error.message
  | badJson message => message
  | badYaml => Yaml.Fault.malformed.message
  | noMapping => "expected a mapping at top level"
  | invalid faults => s!"{faultCountText faults.length} for ToolConfig"

/-- The most bytes of a path that the message on the file of a table shows. -/
def tablePathLimit : Nat := 88

/-- What is told of the file of a table that cannot be opened. -/
def tableFileMessage (fault : FileFault) (path : String) : String :=
  let excess := path.utf8ByteSize - tablePathLimit
  let shown := if excess = 0 then path else "..." ++ String.ofList (path.toList.drop excess)
  s!"{fault.reason} (os error {fault.number}): {shown}"

/-- What is told of a batch with more rows than its limit. -/
def tooManyRowsMessage (count : Nat) (limit : Int) : String :=
  if Nat.pow 10 digitLimit ≤ limit.natAbs then tooLongMessage
  else s!"Batch has {count} rows, exceeding batch_max_rows={limit}"

/-- Why an answer or a line cannot be written. -/
inductive AnswerFault where
  | infiniteNumber
  | brokenText
  deriving Repr, DecidableEq

/-- What is told of an answer or a line that cannot be written. -/
def AnswerFault.message : AnswerFault → String
  | infiniteNumber => "Out of range float values are not JSON compliant"
  | brokenText => "surrogates not allowed"

/-- Why the work on a project stops. -/
inductive ProjectError where
  | config (path : Path) (fault : ConfigFault)
  | unknownTool (name : String) (available : List String)
  | settingsThere (folder : Path)
  | file (error : FileError)
  | tableFile (fault : FileFault) (path : String)
  | notText (fault : Utf8Fault)
  | yaml (fault : Yaml.Fault)
  | json (stop : Json.Stop)
  | setting (fault : WholeFault)
  | tooManyRows (count : Nat) (limit : Int)
  | entry (error : Tool.EntryError)
  | pool (error : PoolError)
  | csv (fault : Csv.Fault)
  | log (error : LogError)
  | noLevel
  | noProject
  | noSuchTool (name : String)
  | answer (fault : AnswerFault)
  deriving Repr, DecidableEq

namespace ProjectError

/-- The error of a sweep. -/
def ofSweep : Tool.SweepError → ProjectError
  | .entry error => entry error
  | .pool error => pool error

/-- Whether an error is one of a configuration. -/
def isConfig : ProjectError → Bool
  | config .. => true
  | unknownTool .. => true
  | _ => false

/-- Whether an error is one of a value that a file or a caller gives. -/
def isValue : ProjectError → Bool
  | notText _ => true
  | yaml (.noCharacter _) => true
  | yaml (.noInteger _) => true
  | yaml (.noFloat _) => true
  | yaml (.impossibleTime _) => true
  | json (.tooManyDigits _) => true
  | setting .noNumber => false
  | setting .infinite => false
  | setting _ => true
  | tooManyRows .. => true
  | entry .tooManyDigits => true
  | answer _ => true
  | _ => false

/-- Whether an error is one of a word that was looked up in vain: the name of a tool, or what stands
for a truth value in a file. -/
def isLookup : ProjectError → Bool
  | noSuchTool _ => true
  | yaml (.noTruthValue _) => true
  | _ => false

/-- What is told of an error. -/
def message : ProjectError → String
  | config path fault => s!"{path.text}: {fault.message}"
  | unknownTool name available =>
    s!"Tool {quote name} not found. Available: {quoteList available}"
  | settingsThere folder => s!"calcblocks.yaml already exists in {folder.text}"
  | file error => error.message
  | tableFile fault path => tableFileMessage fault path
  | notText fault => fault.message
  | yaml fault => fault.message
  | json (.tooManyDigits count) => tooManyDigitsMessage count
  | json _ => "maximum recursion depth exceeded"
  | setting fault => fault.message
  | tooManyRows count limit => tooManyRowsMessage count limit
  | entry error => error.message
  | pool error => error.message
  | csv .noHeader => "empty CSV"
  | csv .malformed => "malformed CSV"
  | log (.file error) => error.message
  | log (.noLine fault) => fault.message
  | log (.offset fault) => fault.message
  | log (.tooManyDigits count) => tooManyDigitsMessage count
  | log .tooDeep => "maximum recursion depth exceeded"
  | log .noObject => "not an object"
  | noLevel => "no level"
  | noProject => "No project directory configured"
  | noSuchTool name => quote name
  | answer fault => fault.message

end ProjectError

end LessonCalc
