import LessonCalc.Text.Digit
import LessonCalc.Text.Raw
import LessonCalc.Yaml.Cursor

/-!
# Scalars of a YAML text

A scalar is written plain, in quotes or as a block.  A plain or quoted scalar may go over several
lines, which are folded: one line end becomes a space, and of several in a row the first is dropped.
A block keeps its lines, or folds them, and starts where its first line does.
-/

namespace LessonCalc.Yaml

open LessonCalc.Text

namespace Cursor

/-! ## Line ends inside of scalars -/

/-- Reads the line ends that follow, where spaces and tabs may stand before each.  A mark between
documents must not stand at the front of a line. -/
def quotedBreaks : Nat → Cursor → Except Fault (List Char × Cursor)
  | 0, c => .ok ([], c)
  | fuel + 1, c =>
    if c.isAtSeparator then .error .malformed
    else
      let c := c.skipWhile isGap
      match c.lineBreak? with
      | some (b, c) => do
        let (more, c) ← quotedBreaks fuel c
        return (b :: more, c)
      | none => .ok ([], c)

/-- What the line ends inside of a scalar fold to. -/
def folded (first : Char) (more : List Char) : List Char :=
  if first ≠ '\n' then first :: more
  else if more.isEmpty then [' ']
  else more

/-! ## Quoted scalars -/

/-- The character that a letter after a backslash stands for. -/
def escape? : Char → Option Char
  | '0' => some '\x00'
  | 'a' => some '\x07'
  | 'b' => some '\x08'
  | 't' => some '\t'
  | '\t' => some '\t'
  | 'n' => some '\n'
  | 'v' => some '\x0b'
  | 'f' => some '\x0c'
  | 'r' => some '\r'
  | 'e' => some '\x1b'
  | ' ' => some ' '
  | '"' => some '"'
  | '\\' => some '\\'
  | '/' => some '/'
  | 'N' => some '\x85'
  | '_' => some '\xa0'
  | 'L' => some '\u2028'
  | 'P' => some '\u2029'
  | _ => none

/-- How many hexadecimal digits follow a letter after a backslash. -/
def codeLength? : Char → Option Nat
  | 'x' => some 2
  | 'u' => some 4
  | 'U' => some 8
  | _ => none

/-- The number that hexadecimal digits spell. -/
def hexNumber? (digits : List Char) : Option Nat :=
  digits.foldlM (fun n c => (hexValue? c).map (n * 16 + ·)) 0

/-- The code of a number that an escape spells. -/
def codeOf (n : Nat) : Except Fault Code :=
  if 0x10FFFF < n then .error (.noCharacter n) else .ok (.ofNat n)

/-- Reads what follows a backslash. -/
def escaped (c : Cursor) : Except Fault (List Code × Cursor) :=
  match c.peek with
  | none => .error .malformed
  | some x =>
    match escape? x, codeLength? x with
    | some y, _ => .ok ([.char y], c.advance)
    | none, some length =>
      let c := c.advance
      let digits := c.rest.take length
      match hexNumber? digits with
      | some code =>
        if digits.length < length then .error .malformed
        else do
          let y ← codeOf code
          return ([y], advanceBy length c)
      | none => .error .malformed
    | none, none =>
      match c.lineBreak? with
      | some (_, c) => do
        let (breaks, c) ← quotedBreaks (c.rest.length + 1) c
        return (breaks.map .char, c)
      | none => .error .malformed

/-- Reads the rest of a scalar in single or double quotes, whose codes so far are given in reverse. -/
def quotedRest (double : Bool) : Nat → List Code → Cursor → Except Fault (RawText × Cursor)
  | 0, _, _ => .error .malformed
  | fuel + 1, done, c =>
    match c.peek with
    | none => .error .malformed
    | some x =>
      if x = (if double then '"' else '\'') then
        if !double && c.ahead 1 == some '\'' then
          quotedRest double fuel (.char '\'' :: done) (advanceBy 2 c)
        else .ok (.ofCodes done.reverse, c.advance)
      else if double && x == '\\' then do
        let (text, c) ← escaped c.advance
        quotedRest double fuel (text.reverse ++ done) c
      else if isGap x || isBreak x then
        let (gap, c) := c.takeWhile isGap
        match c.lineBreak? with
        | some (first, c) => do
          let (more, c) ← quotedBreaks (c.rest.length + 1) c
          quotedRest double fuel ((folded first more).reverse.map .char ++ done) c
        | none => quotedRest double fuel (gap.reverse.map .char ++ done) c
      else quotedRest double fuel (.char x :: done) c.advance

/-- Reads a scalar in quotes, from its opening quote on. -/
def quoted (c : Cursor) : Except Fault (RawText × Cursor) :=
  quotedRest (c.isAt '"') (c.rest.length + 1) [] c.advance

/-! ## Plain scalars -/

/-- A character that ends a plain scalar inside of brackets. -/
def isFlowMark (c : Char) : Bool :=
  c == ',' || c == '?' || c == '[' || c == ']' || c == '\x7b' || c == '\x7d'

/-- Whether a colon ends a plain scalar, by what follows it. -/
def colonEnds (inFlow : Bool) (next : Option Char) : Bool :=
  endsToken next || (inFlow && next.any fun c => isFlowMark c && c != '?')

/-- The characters of a plain scalar up to the next space. -/
def plainWord (inFlow : Bool) : List Char → List Char
  | [] => []
  | c :: cs =>
    if isGap c || isBreak c || (c == ':' && colonEnds inFlow cs.head?) ||
        (inFlow && isFlowMark c) then []
    else c :: plainWord inFlow cs

/-- Reads the line ends inside of a plain scalar, where spaces may stand around each; nothing if a
mark between documents follows one. -/
def plainBreaks : Nat → Cursor → Option (List Char) × Cursor
  | 0, c => (some [], c)
  | fuel + 1, c =>
    let c := c.skipSpaces
    match c.lineBreak? with
    | some (b, c) =>
      if c.isAtSeparator then (none, c)
      else
        match plainBreaks fuel c with
        | (some more, c) => (some (b :: more), c)
        | (none, c) => (none, c)
    | none => (some [], c)

/-- Reads what separates two words of a plain scalar: what it folds to, whether a line ended, and
the place behind it.  Nothing separates the last word from what is no part of the scalar. -/
def plainGap (c : Cursor) : List Char × Bool × Cursor :=
  let (gap, c) := c.takeWhile (· == ' ')
  match c.lineBreak? with
  | none => (gap, false, c)
  | some (first, c) =>
    if c.isAtSeparator then ([], true, c)
    else
      match plainBreaks (c.rest.length + 1) c with
      | (some more, c) => (folded first more, true, c)
      | (none, c) => ([], true, c)

/-- Reads the rest of a plain scalar, whose characters so far are given in reverse; in a block, its
lines have to reach the given column.  Also tells whether a line ended behind its last word. -/
def plainRest (inFlow : Bool) (least : Int) :
    Nat → List Char → List Char → Bool → Cursor → List Char × Bool × Cursor
  | 0, done, _, ended, c => (done.reverse, ended, c)
  | fuel + 1, done, gap, ended, c =>
    if c.isAt '#' then (done.reverse, ended, c)
    else
      match plainWord inFlow c.rest with
      | [] => (done.reverse, ended, c)
      | word =>
        let done := word.reverse ++ (gap.reverse ++ done)
        let (gap, ended, c) := plainGap (advanceBy word.length c)
        if gap.isEmpty || c.isAt '#' || (!inFlow && decide ((c.column : Int) < least)) then
          (done.reverse, ended, c)
        else plainRest inFlow least fuel done gap ended c

/-- Reads a plain scalar. -/
def plain (inFlow : Bool) (least : Int) (c : Cursor) : List Char × Bool × Cursor :=
  plainRest inFlow least (c.rest.length + 1) [] [] false c

/-! ## Blocks -/

/-- What becomes of the line ends at the end of a block. -/
inductive Chomping where
  | strip
  | clip
  | keep
  deriving Repr, DecidableEq

/-- Reads the sign for what becomes of the last line ends. -/
def chomping? (c : Cursor) : Option (Chomping × Cursor) :=
  match c.peek with
  | some '+' => some (.keep, c.advance)
  | some '-' => some (.strip, c.advance)
  | _ => none

/-- Reads the digit for the indentation of a block, which is not zero. -/
def indentation? (c : Cursor) : Except Fault (Option (Nat × Cursor)) :=
  match c.peek.bind asciiDigit? with
  | some 0 => .error .malformed
  | some n => .ok (some (n, c.advance))
  | none => .ok none

/-- Reads the head of a block: the sign and the digit, in either order. -/
def blockHead (c : Cursor) : Except Fault (Chomping × Option Nat × Cursor) := do
  let (chomping, indentation, c) ←
    match chomping? c with
    | some (chomping, c) =>
      match ← indentation? c with
      | some (n, c) => pure (chomping, some n, c)
      | none => pure (chomping, none, c)
    | none =>
      match ← indentation? c with
      | some (n, c) =>
        match chomping? c with
        | some (chomping, c) => pure (chomping, some n, c)
        | none => pure (Chomping.clip, some n, c)
      | none => pure (Chomping.clip, none, c)
  if endsWord c.peek then return (chomping, indentation, c) else .error .malformed

/-- Skips the empty lines at the front of a block: their ends, the furthest column reached by
spaces, and the place of the first character. -/
def blockFront : Nat → Nat → Cursor → List Char × Nat × Cursor
  | 0, widest, c => ([], widest, c)
  | fuel + 1, widest, c =>
    let c := c.skipSpaces
    let widest := max widest c.column
    match c.lineBreak? with
    | some (b, c) =>
      let (more, widest, c) := blockFront fuel widest c
      (b :: more, widest, c)
    | none => ([], widest, c)

/-- Skips the spaces before a column. -/
def skipTo (column : Nat) (c : Cursor) : Cursor :=
  let run := c.rest.takeWhile (· == ' ')
  advanceBy (min run.length (column - c.column)) c

/-- Skips empty lines inside of a block: their ends, and the place behind the indentation of the
next line. -/
def blockBreaks (column : Nat) : Nat → Cursor → List Char × Cursor
  | 0, c => ([], c)
  | fuel + 1, c =>
    let c := c.skipTo column
    match c.lineBreak? with
    | some (b, c) =>
      let (more, c) := blockBreaks column fuel c
      (b :: more, c)
    | none => ([], c)

/-- Whether the next line of a block starts here. -/
def startsLine (column : Nat) (c : Cursor) : Bool :=
  c.column == column && !c.rest.isEmpty

/-- The line end of the last line of a block, if it has one. -/
def lastBreak (c : Cursor) : List Char :=
  match c.lineBreak? with
  | some (b, _) => [b]
  | none => []

/-- Reads the lines of a block that start in a column.  `breaks` are the ends of the empty lines
before the next line.  Gives the text, the end of the last line, and the ends of the empty lines
behind it. -/
def blockLines (fold : Bool) (column : Nat) :
    Nat → List Char → Cursor → List Char × List Char × List Char × Cursor
  | 0, breaks, c => ([], [], breaks, c)
  | fuel + 1, breaks, c =>
    if startsLine column c then
      let indented := c.peek.any isGap
      let (line, c) := c.takeWhile (fun x => !isBreak x)
      let ending := lastBreak c
      let (next, c) := blockBreaks column (c.rest.length + 1) c.skipBreak
      if startsLine column c then
        let glue :=
          if fold && ending == ['\n'] && !indented && !c.peek.any isGap then
            if next.isEmpty then [' '] else []
          else ending
        let (more, last, tail, c) := blockLines fold column fuel next c
        (breaks ++ line ++ glue ++ more, last, tail, c)
      else (breaks ++ line, ending, next, c)
    else ([], [], breaks, c)

/-- Reads a block from its mark on.  Its lines have to start behind the column `outer` of the
collection around it. -/
def block (outer : Int) (c : Cursor) : Except Fault (List Char × Cursor) := do
  let fold := c.isAt '>'
  let (chomping, indentation, c) ← blockHead c.advance
  let c ← c.endOfLine
  let least := (max (outer + 1) 1).toNat
  let (column, breaks, c) :=
    match indentation with
    | some n =>
      let column := least + n - 1
      let (breaks, c) := blockBreaks column (c.rest.length + 1) c
      (column, breaks, c)
    | none =>
      let (breaks, widest, c) := blockFront (c.rest.length + 1) 0 c
      (max least widest, breaks, c)
  let (text, last, tail, c) := blockLines fold column (c.rest.length + 1) breaks c
  let text := match chomping with
    | .strip => text
    | .clip => text ++ last
    | .keep => text ++ last ++ tail
  return (text, c)

end Cursor

end LessonCalc.Yaml
