import LessonCalc.Project.Settings

/-!
# The tools of a project

The tools of a project are the files of its folder `tools` that end in `.yaml`, `.yml` or `.json`.
A tool is called by the name of its file without the ending; of files that share a name, the first
in the order of the folder counts.
-/

namespace LessonCalc

open LessonCalc.Text

/-! ## Tool files -/

/-- The document in a tool file: JSON if the file ends in `.json`, and else YAML. -/
def Path.readDocument (path : Path) (text : List Char) : Except ProjectError Document :=
  if path.extension = ".json" then
    match Json.readText text with
    | .ok v => .ok (.ofJson v)
    | .error (.syntaxFault fault rest) =>
      .error (.config path (.badJson (Json.syntaxMessage text fault rest)))
    | .error stop => .error (.json stop)
  else
    match Yaml.read text with
    | .ok d => .ok d
    | .error .malformed => .error (.config path .badYaml)
    | .error fault => .error (.yaml fault)

/-- The text of a tool file.  A file that cannot be read is a configuration error. -/
def Tool.textOf (t : FileTree) (path : Path) : Except ProjectError (List Char) :=
  match t.readText path with
  | .error (.file e) => .error (.config path (.unreadable e))
  | other => other

/-- The tool in a file. -/
def Tool.load (t : FileTree) (path : Path) : Except ProjectError Tool := do
  match ← path.readDocument (← Tool.textOf t path) with
  | .map entries =>
    match Tool.ofDocument .modelType (.map entries) with
    | .ok tool => return tool
    | .error faults => .error (.config path (.invalid faults))
  | _ => .error (.config path .noMapping)

/-! ## The folder of tools -/

namespace Project

/-- The folder of the tools of a project. -/
def toolFolder (project : Path) : Path :=
  project.child "tools"

/-- The endings of tool files. -/
def toolExtensions : List String := [".yaml", ".yml", ".json"]

/-- The tool files of a project, in the order of their names. -/
def toolFiles (t : FileTree) (project : Path) : List Path :=
  let folder := toolFolder project
  ((sortTexts (t.names folder)).map folder.child).filter fun p =>
    t.isFile p && toolExtensions.contains p.extension

/-- The tools of a project by name, each with its file. -/
def tools (t : FileTree) (project : Path) : Entries String Path :=
  (toolFiles t project).foldl
    (fun found p => if found.contains p.stem then found else found ++ [(p.stem, p)]) []

/-- The file of the tool of a name. -/
def findTool (t : FileTree) (project : Path) (name : String) : Except ProjectError Path :=
  let found := tools t project
  match found.get? name with
  | some path => .ok path
  | none => .error (.unknownTool name (sortTexts found.keys))

end Project

end LessonCalc
