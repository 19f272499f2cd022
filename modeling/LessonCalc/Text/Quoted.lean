import LessonCalc.Text.Digit
import LessonCalc.Text.Printable
import LessonCalc.Text.Raw

/-!
# Quoted text

How a name or a piece of a formula is quoted inside a message.  Single quotes enclose the text,
unless it holds a single quote and no double quote.  The enclosing quote and the backslash are
escaped by a backslash, line feed, carriage return and tab by their letters, and any other character
that is not printable by its code in hexadecimal.  Bytes are quoted like the characters of their
codes, of which only those of ASCII are printable, behind the letter `b`.
-/

namespace LessonCalc.Text

/-- The mark that encloses a text: a single quote where that saves an escape or costs none. -/
def quoteMark (cs : List Char) : Char :=
  if '\'' ∈ cs ∧ '"' ∉ cs then '"' else '\''

/-- A code point in hexadecimal, in the shortest of the three widths that hold it. -/
def codeEscape (n : Nat) : List Char :=
  if n < 0x100 then '\\' :: 'x' :: hexDigits 2 n
  else if n < 0x10000 then '\\' :: 'u' :: hexDigits 4 n
  else '\\' :: 'U' :: hexDigits 8 n

/-- One character between two quote marks. -/
def quotedChar (mark c : Char) : List Char :=
  if c = mark ∨ c = '\\' then ['\\', c]
  else if c = '\n' then ['\\', 'n']
  else if c = '\r' then ['\\', 'r']
  else if c = '\t' then ['\\', 't']
  else if isPrintable c then [c]
  else codeEscape c.toNat

/-- One code between two quote marks. -/
def quotedCode (mark : Char) : Code → List Char
  | .char c => quotedChar mark c
  | .half offset => codeEscape (Code.half offset).toNat

/-- A text in quotes. -/
def quoted (s : RawText) : List Char :=
  let mark := quoteMark s.legible.toList
  mark :: s.codes.flatMap (quotedCode mark) ++ [mark]

/-- A string in quotes. -/
def quote (s : String) : String :=
  String.ofList (quoted s)

/-- A list of strings, each in quotes, in brackets. -/
def quoteList (names : List String) : String :=
  "[" ++ String.intercalate ", " (names.map quote) ++ "]"

/-- One byte between two quote marks. -/
def quotedByte (mark : Char) (b : UInt8) : List Char :=
  if b < 0x80 then quotedChar mark (Char.ofNat b.toNat) else codeEscape b.toNat

/-- Bytes in quotes. -/
def quotedBytes (bytes : List UInt8) : List Char :=
  let mark := quoteMark (bytes.map fun b => Char.ofNat b.toNat)
  'b' :: mark :: bytes.flatMap (quotedByte mark) ++ [mark]

end LessonCalc.Text
