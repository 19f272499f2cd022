import LessonCalc.Batch.Table
import LessonCalc.Number.Layout

/-!
# Writing CSV

A table is written with the names of its columns on the first line.  A text is put in quotes only
where it needs them.
-/

namespace LessonCalc.Csv

open LessonCalc.Number

/-- Whether a text has to be put in quotes: it is empty or holds a comma, a quote or the end of a
line. -/
def needsQuotes (cs : List Char) : Bool :=
  cs.isEmpty || cs.any fun c => c == ',' || c == '"' || c == '\n' || c == '\r'

/-- A text as a field. -/
def fieldChars (s : String) : List Char :=
  let cs := s.toList
  if needsQuotes cs then
    '"' :: cs.flatMap (fun c => if c = '"' then ['"', '"'] else [c]) ++ ['"']
  else cs

/-- A cell as a field. -/
def cellChars : Cell → List Char
  | .empty => []
  | .whole n => natChars n
  | .number x => if x.isNaN then "NaN".toList else Layout.csv.write x
  | .text s => fieldChars s

/-- Fields on a line, with its end. -/
def lineChars (fields : List (List Char)) : List Char :=
  List.intercalate [','] fields ++ ['\n']

/-- A table as text. -/
def write (t : Table) : String :=
  String.ofList (lineChars (t.names.map fieldChars) ++
    t.rows.flatMap fun row => lineChars (row.map cellChars))

end LessonCalc.Csv
