import LessonCalc.Json.Basic

/-!
# Tables

Rows of cells under named columns: what a batch reads and what it gives.
-/

namespace LessonCalc

/-- What the cells of a column hold. -/
inductive ColumnType where
  | whole
  | number
  | text
  deriving Repr, DecidableEq, Inhabited

/-- A cell of a table. -/
inductive Cell where
  | empty
  | whole (value : Nat)
  | number (value : Float)
  | text (value : String)
  deriving Repr, Inhabited

/-- Rows of cells under named columns. -/
structure Table where
  columns : List (String × ColumnType) := []
  rows : List (List Cell) := []
  deriving Repr, Inhabited

namespace Table

/-- The names of the columns. -/
def names (t : Table) : List String :=
  t.columns.map Prod.fst

/-- How many rows there are. -/
def height (t : Table) : Nat :=
  t.rows.length

end Table

/-- A cell as JSON. -/
def Cell.toJson : Cell → Json
  | empty => .null
  | whole n => .int n
  | number x => .float x
  | text s => .string s

end LessonCalc
