/-!
# Lines of a text

A line ends at any of the Unicode line boundaries, and a carriage return followed by a line feed is
one boundary.  `splitLines` gives the lines without their boundaries; a boundary at the very end
opens no further line.
-/

namespace LessonCalc.Text

/-- A character that ends a line. -/
def isLineBoundary (c : Char) : Bool :=
  let n := c.toNat
  (0x0A ≤ n && n ≤ 0x0D) || (0x1C ≤ n && n ≤ 0x1E) || n == 0x85 || n == 0x2028 || n == 0x2029

/-- The lines of a text whose first line starts with the reversed characters `line`; `opened` tells
whether that line has begun. -/
def splitLinesFrom (line : List Char) (opened : Bool) : List Char → List (List Char)
  | [] => if opened then [line.reverse] else []
  | '\r' :: '\n' :: rest => line.reverse :: splitLinesFrom [] false rest
  | c :: rest =>
    if isLineBoundary c then line.reverse :: splitLinesFrom [] false rest
    else splitLinesFrom (c :: line) true rest

/-- The lines of a text, without the characters that end them. -/
def splitLines (cs : List Char) : List (List Char) :=
  splitLinesFrom [] false cs

/-- A text with every carriage return, alone or before a line feed, turned into a line feed. -/
def unifyLineEnds : List Char → List Char
  | [] => []
  | '\r' :: '\n' :: rest => '\n' :: unifyLineEnds rest
  | c :: rest => (if c = '\r' then '\n' else c) :: unifyLineEnds rest

/-- The column of a character, given the characters before it.  Columns count from one and from the
last line feed. -/
def columnAfter (before : List Char) : Nat :=
  (before.reverse.takeWhile (· != '\n')).length + 1

end LessonCalc.Text
