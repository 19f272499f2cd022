import LessonCalc.Project.Settings

/-!
# New projects

A new project starts with its settings, two tools and a file of inputs to try them on.  Its parts
are made one after the other; files that stand in the way are written over, and a part that cannot
be made leaves those before it behind.
-/

namespace LessonCalc

open LessonCalc.Text

namespace Project

/-- A part of a new project, at its place below the folder of the project. -/
inductive Part where
  | folder (place : List String)
  | file (place : List String) (lines : List String)
  deriving Repr, DecidableEq

/-! ## What a new project holds -/

/-- The settings of a new project. -/
def demoSettings : List String :=
  ["# calcblocks project config",
   "lint_strict: false",
   "batch_max_rows: 100000",
   "batch_max_workers: 1",
   "logging_fsync: false"]

/-- A tool for what is left of a revenue. -/
def demoProfitTool : List String :=
  ["tool_type: profit_calculator",
   "title: Profit Calculator",
   "description: See what you keep after costs.",
   "inputs:",
   "  - id: revenue",
   "    label: Monthly revenue",
   "    type: currency",
   "    placeholder: \"10000\"",
   "  - id: costs",
   "    label: Monthly costs",
   "    type: currency",
   "    placeholder: \"4000\"",
   "outputs:",
   "  - id: profit",
   "    label: Profit",
   "    formula: revenue - costs",
   "    format: currency",
   "    highlight: true",
   "  - id: margin",
   "    label: Margin",
   "    formula: \"revenue > 0 ? profit / revenue * 100 : 0\"",
   "    format: percentage"]

/-- A tool for a price. -/
def demoPricingTool : List String :=
  ["tool_type: pricing_calculator",
   "title: Pricing Calculator",
   "description: Work out a price from your cost and target markup.",
   "inputs:",
   "  - id: unit_cost",
   "    label: Cost per unit",
   "    type: currency",
   "    default: 20",
   "  - id: markup",
   "    label: Markup",
   "    type: percentage",
   "    default: 50",
   "  - id: units",
   "    label: Units per month",
   "    type: number",
   "    default: 100",
   "outputs:",
   "  - id: price",
   "    label: Price per unit",
   "    formula: unit_cost * (1 + markup / 100)",
   "    format: currency",
   "    highlight: true",
   "  - id: monthly_revenue",
   "    label: Monthly revenue",
   "    formula: price * units",
   "    format: currency",
   "  - id: monthly_profit",
   "    label: Monthly profit",
   "    formula: (price - unit_cost) * units",
   "    format: currency"]

/-- Inputs for the first tool. -/
def demoInputs : List String :=
  ["revenue,costs",
   "10000,4000",
   "5000,6000",
   ",",
   "12500.50,abc"]

/-- The parts of a new project in the order in which they are made. -/
def demoParts : List Part :=
  [.file ["calcblocks.yaml"] demoSettings,
   .folder ["tools"],
   .file ["tools", "profit.yaml"] demoProfitTool,
   .file ["tools", "pricing.yaml"] demoPricingTool,
   .folder ["inputs"],
   .file ["inputs", "profit_sweep.csv"] demoInputs,
   .folder ["logs"]]

/-! ## Making it -/

/-- Lines as the content of a file. -/
def linesContent (lines : List String) : Bytes :=
  encodeUtf8 (String.join (lines.map (· ++ "\n")))

/-- A place below a folder. -/
def placeIn (folder : Path) (place : List String) : Path :=
  { folder with parts := folder.parts ++ place }

/-- Makes a part. -/
def addPart (t : FileTree) (folder : Path) : Part → Except FileError FileTree
  | .folder place => t.ensureFolder (placeIn folder place)
  | .file place lines => t.write (placeIn folder place) (linesContent lines)

/-- Makes parts up to the first that cannot be made. -/
def addParts (folder : Path) : FileTree → List Part → Except FileError Unit × FileTree
  | t, [] => (.ok (), t)
  | t, part :: rest =>
    match addPart t folder part with
    | .ok t => addParts folder t rest
    | .error e => (.error e, t)

/-- Makes a new project in a folder, which is made too unless it is there.  Gives the folder as a
path from the top. -/
def scaffold (t : FileTree) (target : Path) : Except ProjectError Path × FileTree :=
  let folder := t.resolve target
  match t.ensureFolders folder with
  | (.error e, t) => (.error (.file e), t)
  | (.ok (), t) =>
    if t.contains (Settings.file folder) then (.error (.settingsThere folder), t)
    else
      match addParts folder t demoParts with
      | (.error e, t) => (.error (.file e), t)
      | (.ok (), t) => (.ok folder, t)

end Project

end LessonCalc
