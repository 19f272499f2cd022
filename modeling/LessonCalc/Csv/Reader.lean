import LessonCalc.Batch.Table
import LessonCalc.Data.Entries
import LessonCalc.Files.Tree
import LessonCalc.Number.Layout
import LessonCalc.Text.Utf8

/-!
# Reading CSV

Fields are separated by commas and lines by line feeds; the first line that is not empty names the
columns.  A field that starts with a quote goes up to the comma or line feed that follows its
quotes; it has to end in a quote, and holds what stands between the first and the last of them,
where two quotes stand for one.  Every cell is read as text.  A field with nothing in it and a field
that is missing are empty cells; a pair of quotes holds the empty text.
-/

namespace LessonCalc.Csv

open LessonCalc.Text LessonCalc.Number

/-- Why a text gives no table. -/
inductive Fault where
  | noHeader
  | malformed
  deriving Repr, DecidableEq

/-! ## Bytes -/

/-- The comma between fields. -/
def comma : UInt8 := 0x2C

/-- The line feed between lines. -/
def lineFeed : UInt8 := 0x0A

/-- The carriage return that may stand before a line feed. -/
def carriageReturn : UInt8 := 0x0D

/-- The quote around fields. -/
def quoteMark : UInt8 := 0x22

/-- The bytes without a byte order mark at their front. -/
def dropByteOrderMark : Bytes → Bytes
  | 0xEF :: 0xBB :: 0xBF :: rest => rest
  | bytes => bytes

/-- The bytes without a carriage return at their end. -/
def dropReturn (bytes : Bytes) : Bytes :=
  if bytes.getLast? = some carriageReturn then bytes.dropLast else bytes

/-- The bytes from the first line on that is not empty. -/
def dropEmptyLines : Bytes → Bytes
  | 0x0A :: rest => dropEmptyLines rest
  | 0x0D :: 0x0A :: rest => dropEmptyLines rest
  | [0x0D] => []
  | bytes => bytes

/-! ## Fields -/

/-- What stands behind a field. -/
inductive Ending where
  | field
  | line
  | text
  deriving Repr, DecidableEq

/-- A field as it is written. -/
structure Field where
  bytes : Bytes
  isQuoted : Bool
  ending : Ending
  deriving Repr, DecidableEq

/-- Takes bytes up to the first comma or line feed that is not between quotes; quotes count only in
a quoted field. -/
def takeField (isQuoted : Bool) : Bool → Bytes → Bytes × Ending × Bytes
  | _, [] => ([], .text, [])
  | inside, b :: rest =>
    let inside := inside != (isQuoted && b == quoteMark)
    if !inside && b == comma then ([], .field, rest)
    else if !inside && b == lineFeed then ([], .line, rest)
    else
      let (more, ending, left) := takeField isQuoted inside rest
      (b :: more, ending, left)

/-- The field at the front of a text, and what follows it. -/
def nextField (bytes : Bytes) : Field × Bytes :=
  let isQuoted := bytes.head? == some quoteMark
  let (field, ending, rest) := takeField isQuoted false bytes
  (⟨field, isQuoted, ending⟩, rest)

/-- The bytes between the first and the last. -/
def inner (bytes : Bytes) : Bytes :=
  (bytes.drop 1).dropLast

/-- The bytes that quoted bytes stand for: of two quotes in a row the second stays, and a quote on
its own is dropped. -/
def unescape : Bool → Bytes → Bytes
  | _, [] => []
  | afterQuote, b :: rest =>
    if b = quoteMark then
      if afterQuote then b :: unescape false rest else unescape true rest
    else b :: unescape false rest

/-- Whether bytes end in the quote that closes the one at their front. -/
def isClosed (bytes : Bytes) : Bool :=
  2 ≤ bytes.length && bytes.getLast? == some quoteMark

/-- The cell that a field holds. -/
def cellOf (field : Field) : Except Fault Cell :=
  let bytes := dropReturn field.bytes
  if bytes.isEmpty then .ok .empty
  else if field.isQuoted ∧ !isClosed bytes then .error .malformed
  else
    match decodeUtf8? (if field.isQuoted then unescape false (inner bytes) else bytes) with
    | some text => .ok (.text (String.ofList text))
    | none => .error .malformed

/-! ## Header -/

/-- The first line, in which no line feed between quotes ends it, and what follows it. -/
def firstLine : Bool → Bytes → Bytes × Bytes
  | _, [] => ([], [])
  | inside, b :: rest =>
    let inside := inside != (b == quoteMark)
    if !inside && b == lineFeed then ([], rest)
    else
      let (line, left) := firstLine inside rest
      (b :: line, left)

/-- The name that a field of the first line spells. -/
def nameOf (field : Field) : String :=
  let bytes := if field.isQuoted ∧ 2 ≤ field.bytes.length then inner field.bytes else field.bytes
  String.ofList (decodeUtf8Lossy bytes)

/-- The names on a line. -/
def namesFrom : Nat → Bytes → List String
  | 0, _ => []
  | fuel + 1, bytes =>
    let (field, rest) := nextField bytes
    match field.ending with
    | .field => nameOf field :: namesFrom fuel rest
    | _ => [nameOf field]

/-- Names of their own for columns: a name that occurs again is numbered. -/
def distinctNames : List String → List String → List String
  | _, [] => []
  | before, name :: rest =>
    let count := before.count name
    let own := if count = 0 then name else s!"{name}_duplicated_{count - 1}"
    own :: distinctNames (name :: before) rest

/-- The names of the columns. -/
def header (line : Bytes) : List String :=
  let line := if 1 < line.length then dropReturn line else line
  distinctNames [] (namesFrom (line.length + 1) line)

/-! ## Rows -/

/-- Reads the cells of a row, of which a number is left to be read; those that are missing are
empty.  More fields than columns are a fault, unless nothing but a comma is left of the text. -/
def readRow : Nat → Bytes → Except Fault (List Cell × Bytes)
  | 0, rest => .ok ([], rest)
  | left + 1, bytes => do
    let (field, rest) := nextField bytes
    let cell ← cellOf field
    match field.ending with
    | .field =>
      if left = 0 then
        if rest.isEmpty then return ([cell], []) else .error .malformed
      else
        let (cells, rest) ← readRow left rest
        return (cell :: cells, rest)
    | _ => return (cell :: List.replicate left .empty, rest)

/-- Reads all rows. -/
def readRows (columns : Nat) : Nat → Bytes → Except Fault (List (List Cell))
  | 0, _ => .ok []
  | _ + 1, [] => .ok []
  | fuel + 1, b :: bytes => do
    let (row, rest) ← readRow columns (b :: bytes)
    return row :: (← readRows columns fuel rest)

/-- The table that a CSV text holds. -/
def read (content : Bytes) : Except Fault Table :=
  match dropEmptyLines (dropByteOrderMark content) with
  | [] => .error .noHeader
  | bytes => do
    let (line, rest) := firstLine false bytes
    let names := header line
    let rows ← readRows names.length rest.length rest
    return ⟨names.map fun name => (name, .text), rows⟩

end LessonCalc.Csv
