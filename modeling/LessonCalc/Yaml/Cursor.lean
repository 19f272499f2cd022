import LessonCalc.Number.Whole
import LessonCalc.Text.Lines

/-!
# Places in a YAML text

A cursor is the rest of a text with its place: how many characters come before it, in which line it
is and in which column.  YAML tells the structure of a text by the columns in which its parts start,
so every part is read from a cursor and gives the cursor behind it.
-/

namespace LessonCalc.Yaml

/-! ## Faults -/

/-- Why a YAML text gives no document.  A text that breaks the rules of YAML is malformed; the other
faults are those of single scalars. -/
inductive Fault where
  | malformed
  | tooDeep
  | noCharacter (code : Nat)
  | noInteger (fault : Number.WholeFault)
  | noFloat (text : String)
  | floatTooLarge
  | noTruthValue (text : String)
  | noDigits
  | noTime
  | noTimeText
  | impossibleTime (reason : String)
  deriving Repr, DecidableEq

/-- What is told of a fault. -/
def Fault.message : Fault → String
  | malformed => "<yaml error>"
  | tooDeep => "maximum recursion depth exceeded"
  | noCharacter _ => "chr() arg not in range(0x110000)"
  | noInteger fault => fault.message
  | noFloat text => s!"could not convert string to float: {Text.quote text}"
  | floatTooLarge => "int too large to convert to float"
  | noTruthValue text => Text.quote text
  | noDigits => "string index out of range"
  | noTime => "no match"
  | noTimeText => "not a text"
  | impossibleTime reason => reason

/-! ## Classes of characters -/

/-- A character that ends a line. -/
def isBreak (c : Char) : Bool :=
  c == '\n' || c == '\r' || c == '\x85' || c == '\u2028' || c == '\u2029'

/-- A space or tab. -/
def isGap (c : Char) : Bool :=
  c == ' ' || c == '\t'

/-- The end of the text or of a line. -/
def endsLine (c : Option Char) : Bool :=
  c.all isBreak

/-- The end of the text or of a line, or a space. -/
def endsWord (c : Option Char) : Bool :=
  c.all fun c => c == ' ' || isBreak c

/-- The end of the text or of a line, or a space or tab. -/
def endsToken (c : Option Char) : Bool :=
  c.all fun c => isGap c || isBreak c

/-- A character of the name of an anchor, a directive or the handle of a tag. -/
def isNameChar (c : Char) : Bool :=
  c.isAlphanum || c == '-' || c == '_'

/-- A character that may stand in a YAML text. -/
def isAllowed (c : Char) : Bool :=
  let n := c.toNat
  n == 0x09 || n == 0x0A || n == 0x0D || (0x20 ≤ n && n ≤ 0x7E) || n == 0x85 ||
    (0xA0 ≤ n && n ≤ 0xD7FF) || (0xE000 ≤ n && n ≤ 0xFFFD) || 0x10000 ≤ n

/-! ## Cursors -/

/-- The rest of a text and its place. -/
structure Cursor where
  rest : List Char
  offset : Nat := 0
  line : Nat := 0
  column : Nat := 0
  deriving Repr, DecidableEq, Inhabited

namespace Cursor

/-- The next character. -/
def peek (c : Cursor) : Option Char :=
  c.rest.head?

/-- The character at a distance. -/
def ahead (c : Cursor) (distance : Nat) : Option Char :=
  c.rest[distance]?

/-- Whether the next character is the given one. -/
def isAt (c : Cursor) (x : Char) : Bool :=
  c.peek == some x

/-- The place behind the next character.  A carriage return before a line feed ends no line, and a
byte order mark takes no column. -/
def advance (c : Cursor) : Cursor :=
  match c.rest with
  | [] => c
  | x :: rest =>
    if isBreak x && !(x == '\r' && rest.head? == some '\n') then
      ⟨rest, c.offset + 1, c.line + 1, 0⟩
    else ⟨rest, c.offset + 1, c.line, if x == '\uFEFF' then c.column else c.column + 1⟩

/-- The place behind a number of characters. -/
def advanceBy : Nat → Cursor → Cursor
  | 0, c => c
  | n + 1, c => advanceBy n c.advance

/-- Reads the characters of a class: what they are, and the place behind them. -/
def takeWhile (p : Char → Bool) (c : Cursor) : List Char × Cursor :=
  let run := c.rest.takeWhile p
  (run, advanceBy run.length c)

/-- The place behind the characters of a class. -/
def skipWhile (p : Char → Bool) (c : Cursor) : Cursor :=
  (c.takeWhile p).2

/-- The place behind the spaces. -/
def skipSpaces (c : Cursor) : Cursor :=
  c.skipWhile (· == ' ')

/-- The place behind a comment, if there is one. -/
def skipComment (c : Cursor) : Cursor :=
  if c.isAt '#' then c.skipWhile (fun x => !isBreak x) else c

/-- Reads the end of a line.  All ends count as a line feed, but for the line separator and the
paragraph separator. -/
def lineBreak? (c : Cursor) : Option (Char × Cursor) :=
  match c.rest with
  | '\r' :: '\n' :: _ => some ('\n', advanceBy 2 c)
  | x :: _ =>
    if isBreak x then some (if x == '\u2028' || x == '\u2029' then x else '\n', c.advance)
    else none
  | [] => none

/-- The place behind the end of a line, if there is one. -/
def skipBreak (c : Cursor) : Cursor :=
  match c.lineBreak? with
  | some (_, c) => c
  | none => c

/-- Whether three equal marks stand here on their own, as between documents. -/
def isAtMark (c : Cursor) (mark : Char) : Bool :=
  c.rest.take 3 == [mark, mark, mark] && endsToken (c.ahead 3)

/-- Whether the mark that starts or the mark that ends a document stands here. -/
def isAtSeparator (c : Cursor) : Bool :=
  c.isAtMark '-' || c.isAtMark '.'

/-- Skips spaces, comments and ends of lines: the place of what follows, and whether a line ended.
A byte order mark at the very front is skipped too. -/
def skipGapsFrom : Nat → Bool → Cursor → Bool × Cursor
  | 0, ended, c => (ended, c)
  | fuel + 1, ended, c =>
    let c := c.skipSpaces.skipComment
    match c.lineBreak? with
    | some (_, c) => skipGapsFrom fuel true c
    | none => (ended, c)

/-- Skips what separates tokens: the place of the next one, and whether a line ended before it. -/
def skipGaps (c : Cursor) : Bool × Cursor :=
  let c := if c.offset == 0 && c.isAt '\uFEFF' then c.advance else c
  skipGapsFrom (c.rest.length + 1) false c

/-- The end of a line on which nothing but spaces and a comment may follow. -/
def endOfLine (c : Cursor) : Except Fault Cursor :=
  let c := c.skipSpaces.skipComment
  if endsLine c.peek then .ok c.skipBreak else .error .malformed

end Cursor

end LessonCalc.Yaml
