import LessonCalc.Project.Tools
import LessonCalc.Proofs.Files.Beside

/-!
# Loading the tools of a project

A tool file gives a tool or is refused with a configuration error that names it, unless its bytes are no
text or the reader of its text stops for another reason than the form of the text.

* `Tool.escape?`: what stops the loading of a tool without being a configuration error.
* `Tool.load_of_escape`, `Tool.load_of_no_escape`: there is nothing else that a file can come to.
* `Project.tools_congr`, `Tool.load_congr`, `Settings.load_congr`: what stands elsewhere in the folder of
  a project does not matter to its tools and settings.
-/

namespace LessonCalc

open LessonCalc.Text

/-! ## Tool files -/

/-- What stops the reader of a tool file at a text, other than a fault that is told of the file. -/
def Path.stop? (path : Path) (text : List Char) : Option ProjectError :=
  if path.extension = ".json" then
    match Json.readText text with
    | .ok _ => none
    | .error (.syntaxFault _ _) => none
    | .error stop => some (.json stop)
  else
    match Yaml.read text with
    | .ok _ => none
    | .error .malformed => none
    | .error fault => some (.yaml fault)

/-- What stops the loading of a tool without being an error of a configuration: the bytes of the file are
no text, or the reader of the text stops at it. -/
def Tool.escape? (t : FileTree) (path : Path) : Option ProjectError :=
  match t.read path with
  | .error _ => none
  | .ok content =>
    match decodeUtf8 content with
    | .error fault => some (.notText fault)
    | .ok text => path.stop? (unifyLineEnds text)

section Reader

variable {path : Path} {text : List Char} {e : ProjectError}

theorem Path.readDocument_of_stop (stops : path.stop? text = some e) :
    path.readDocument text = .error e ∧ e.isConfig = false := by
  unfold stop? at stops
  unfold readDocument
  by_cases json : path.extension = ".json"
  · rw [if_pos json] at stops ⊢
    cases read : Json.readText text with
    | ok v =>
        rw [read] at stops
        cases stops
    | error stop =>
        rw [read] at stops
        cases stop with
        | syntaxFault fault rest => cases stops
        | _ =>
            cases stops
            exact ⟨rfl, rfl⟩
  · rw [if_neg json] at stops ⊢
    cases read : Yaml.read text with
    | ok d =>
        rw [read] at stops
        cases stops
    | error fault =>
        rw [read] at stops
        cases fault with
        | malformed => cases stops
        | _ =>
            cases stops
            exact ⟨rfl, rfl⟩

theorem Path.readDocument_of_no_stop (goes : path.stop? text = none) :
    (∃ d, path.readDocument text = .ok d) ∨
      ∃ fault, path.readDocument text = .error (.config path fault) := by
  unfold stop? at goes
  unfold readDocument
  by_cases json : path.extension = ".json"
  · rw [if_pos json] at goes ⊢
    cases read : Json.readText text with
    | ok v => exact .inl ⟨_, rfl⟩
    | error stop =>
        rw [read] at goes
        cases stop with
        | syntaxFault fault rest => exact .inr ⟨_, rfl⟩
        | _ => cases goes
  · rw [if_neg json] at goes ⊢
    cases read : Yaml.read text with
    | ok d => exact .inl ⟨_, rfl⟩
    | error fault =>
        rw [read] at goes
        cases fault with
        | malformed => exact .inr ⟨_, rfl⟩
        | _ => cases goes

end Reader

namespace Tool

variable {t t' : FileTree} {path : Path} {e : ProjectError}

/-- Loading a tool reads the document in the text of its file. -/
theorem load_of_read {content : Bytes} {text : List Char} (read : t.read path = .ok content)
    (decoded : decodeUtf8 content = .ok text) :
    load t path = (path.readDocument (unifyLineEnds text) >>= fun d =>
      match d with
      | .map entries =>
        match ofDocument .modelType (.map entries) with
        | .ok tool => .ok tool
        | .error faults => .error (.config path (.invalid faults))
      | _ => .error (.config path .noMapping)) := by
  unfold load textOf FileTree.readText
  rw [read]
  dsimp only
  rw [decoded]
  rfl

/-- What escapes is what loading gives, and it is no configuration error. -/
theorem load_of_escape (escapes : escape? t path = some e) :
    load t path = .error e ∧ e.isConfig = false := by
  unfold escape? at escapes
  cases read : t.read path with
  | error fault =>
      rw [read] at escapes
      cases escapes
  | ok content =>
      rw [read] at escapes
      dsimp only at escapes
      cases decoded : decodeUtf8 content with
      | error fault =>
          rw [decoded] at escapes
          cases escapes
          unfold load textOf FileTree.readText
          rw [read]
          dsimp only
          rw [decoded]
          exact ⟨rfl, rfl⟩
      | ok text =>
          rw [decoded] at escapes
          obtain ⟨stopped, other⟩ := Path.readDocument_of_stop escapes
          rw [load_of_read read decoded, stopped]
          exact ⟨rfl, other⟩

/-- Where nothing escapes, loading gives a tool or a configuration error that names the file. -/
theorem load_of_no_escape (stays : escape? t path = none) :
    (∃ tool, load t path = .ok tool) ∨ ∃ fault, load t path = .error (.config path fault) := by
  unfold escape? at stays
  cases read : t.read path with
  | error fault =>
      unfold load textOf FileTree.readText
      rw [read]
      exact .inr ⟨.unreadable fault, rfl⟩
  | ok content =>
      rw [read] at stays
      dsimp only at stays
      cases decoded : decodeUtf8 content with
      | error fault =>
          rw [decoded] at stays
          cases stays
      | ok text =>
          rw [decoded] at stays
          rw [load_of_read read decoded]
          rcases Path.readDocument_of_no_stop stays with ⟨d, document⟩ | ⟨fault, refused⟩
          · rw [document]
            cases d with
            | map entries =>
                dsimp only [Bind.bind, Except.bind]
                cases ofDocument .modelType (.map entries) with
                | ok tool => exact .inl ⟨tool, rfl⟩
                | error faults => exact .inr ⟨.invalid faults, rfl⟩
            | _ => exact .inr ⟨.noMapping, rfl⟩
          · rw [refused]
            exact .inr ⟨fault, rfl⟩

/-- Loading a tool goes by the content of its file. -/
theorem load_congr (same : t'.read path = t.read path) :
    load t' path = load t path ∧ escape? t' path = escape? t path := by
  unfold load textOf FileTree.readText escape?
  rw [same]
  exact ⟨rfl, rfl⟩

end Tool

/-! ## The folder of tools -/

namespace Project

variable {t t' : FileTree} {project path : Path} {name : String}

/-- A file with the ending of a tool file is not called by two dots. -/
theorem plain_of_extension (ending : toolExtensions.contains path.extension = true) :
    path.name ≠ ".." := by
  intro up
  have none : Path.splitName ".." = ("..", "") := by decide
  rw [Path.extension, up, none] at ending
  exact absurd ending (by decide)

/-- A tool file is an entry of the folder of tools, with a name that is not two dots. -/
theorem exists_of_mem_toolFiles (member : path ∈ toolFiles t project) :
    ∃ file, path = (toolFolder project).child file ∧ file ≠ ".." ∧ t.isFile path = true := by
  unfold toolFiles at member
  obtain ⟨listed, kept⟩ := List.mem_filter.mp member
  obtain ⟨file, _, rfl⟩ := List.mem_map.mp listed
  obtain ⟨isFile, ending⟩ := Bool.and_eq_true_iff.mp kept
  have plain := plain_of_extension ending
  rw [Path.name_child] at plain
  exact ⟨file, rfl, plain, isFile⟩

/-- The tool files of a project whose names are already in order. -/
theorem toolFiles_of_sorted {names : List String} (listed : t.names (toolFolder project) = names)
    (sorted : names.Pairwise fun a b => textLe a b = true) :
    toolFiles t project = (names.map (toolFolder project).child).filter fun p =>
      t.isFile p && toolExtensions.contains p.extension := by
  unfold toolFiles
  dsimp only
  rw [listed, sortTexts, List.mergeSort_of_pairwise sorted]

/-- Every tool of a project has a tool file. -/
theorem mem_toolFiles_of_mem_tools (member : (name, path) ∈ tools t project) :
    path ∈ toolFiles t project := by
  have step : ∀ (files : List Path) (found : Entries String Path),
      (name, path) ∈ files.foldl
        (fun found p => if found.contains p.stem then found else found ++ [(p.stem, p)]) found →
      (name, path) ∈ found ∨ path ∈ files := by
    intro files
    induction files with
    | nil => exact fun found inside => .inl inside
    | cons p files ih =>
        intro found inside
        rcases ih _ inside with early | late
        · dsimp only at early
          split at early
          next => exact .inl early
          next =>
            rcases List.mem_append.mp early with early | here
            · exact .inl early
            · cases List.mem_singleton.mp here
              exact .inr List.mem_cons_self
        · exact .inr (List.mem_cons_of_mem p late)
  rcases step _ [] member with none | inside
  · cases none
  · exact inside

end Project

/-! ## Beside the tools -/

section Beside

variable {t t' : FileTree} {project path : Path} {name other : String}

namespace FileTree.SameBeside

variable (same : SameBeside t t' project other)
include same

/-- The tools are the same if another entry of the folder of the project changes, and no name in the folder
of tools. -/
theorem tools (differ : "tools" ≠ other)
    (names : t'.names (Project.toolFolder project) = t.names (Project.toolFolder project)) :
    Project.tools t' project = Project.tools t project := by
  have files : Project.toolFiles t' project = Project.toolFiles t project := by
    unfold Project.toolFiles
    dsimp only
    rw [names]
    refine List.filter_congr fun p member => ?_
    obtain ⟨file, _, rfl⟩ := List.mem_map.mp member
    cases ending : Project.toolExtensions.contains ((Project.toolFolder project).child file).extension with
    | false => rw [Bool.and_false, Bool.and_false]
    | true =>
        have plain := Project.plain_of_extension ending
        rw [Path.name_child] at plain
        have found := same.find_grandchild differ (by decide) plain
        rw [isFile, isFile, Project.toolFolder, found]
  rw [Project.tools, files, Project.tools]

/-- The tool in a file is the same if another entry of the folder of the project changes. -/
theorem load (differ : "tools" ≠ other) (member : (name, path) ∈ Project.tools t project) :
    Tool.load t' path = Tool.load t path ∧ Tool.escape? t' path = Tool.escape? t path := by
  obtain ⟨file, rfl, plain, _⟩ :=
    Project.exists_of_mem_toolFiles (Project.mem_toolFiles_of_mem_tools member)
  exact Tool.load_congr (read_of_find (same.find_grandchild differ (by decide) plain))

/-- The settings are the same if another entry of the folder of the project changes. -/
theorem settings (differ : "calcblocks.yaml" ≠ other) :
    Settings.load t' project = Settings.load t project := by
  have found : t'.find (Settings.file project) = t.find (Settings.file project) :=
    same.find_child differ (by decide)
  unfold Settings.load FileTree.readText contains
  dsimp only
  rw [found, read_of_find found]

end FileTree.SameBeside

end Beside

end LessonCalc
