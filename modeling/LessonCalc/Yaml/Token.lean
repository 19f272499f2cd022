import LessonCalc.Text.Utf8
import LessonCalc.Yaml.Scalar

/-!
# Tokens of a YAML text

The tokens make the structure of a text explicit: where a collection that is told by indentation
starts and ends, and which scalars are keys.  That a token is a key shows only by the colon behind
it, so the place of every possible key is kept until it is known to be one or not: a key stands on
one line and is no longer than 1024 characters.  Tokens are read no further than that takes, so a
fault of a text is met where its reader gets to.
-/

namespace LessonCalc.Yaml

open LessonCalc.Text LessonCalc.Number

/-- A token. -/
inductive Token where
  | version (major : Nat)
  | handle (name lead : String)
  | unknownDirective
  | documentStart
  | documentEnd
  | blockSequenceStart
  | blockMappingStart
  | blockEnd
  | flowSequenceStart
  | flowSequenceEnd
  | flowMappingStart
  | flowMappingEnd
  | blockEntry
  | flowEntry
  | key
  | value
  | alias (name : String)
  | anchor (name : String)
  | tag (handle : Option String) (suffix : String)
  | scalar (text : RawText) (isPlain : Bool)
  deriving Repr, DecidableEq, Inhabited

/-! ## Directives, anchors and tags -/

namespace Cursor

/-- A character of the address of a tag. -/
def isAddressChar (c : Char) : Bool :=
  c.isAlphanum || "-;/?:@&=+$,_.!~*'()[]%".toList.contains c

/-- Reads the bytes that are written by their codes. -/
def addressBytes : Nat → Cursor → Except Fault (List UInt8 × Cursor)
  | 0, c => .ok ([], c)
  | fuel + 1, c =>
    match c.rest with
    | '%' :: a :: b :: _ => do
      match hexNumber? [a, b] with
      | none => .error .malformed
      | some n =>
        let (more, c) ← addressBytes fuel (advanceBy 3 c)
        return (UInt8.ofNat n :: more, c)
    | '%' :: _ => .error .malformed
    | _ => .ok ([], c)

/-- Reads the characters of an address. -/
def addressRest : Nat → Cursor → Except Fault (List Char × Cursor)
  | 0, c => .ok ([], c)
  | fuel + 1, c =>
    match c.peek with
    | none => .ok ([], c)
    | some x =>
      if x = '%' then do
        let (bytes, c) ← addressBytes (c.rest.length + 1) c
        match decodeUtf8? bytes with
        | none => .error .malformed
        | some text =>
          let (more, c) ← addressRest fuel c
          return (text ++ more, c)
      else if isAddressChar x then do
        let (more, c) ← addressRest fuel c.advance
        return (x :: more, c)
      else .ok ([], c)

/-- Reads the address of a tag, which is not empty. -/
def address (c : Cursor) : Except Fault (String × Cursor) :=
  match addressRest (c.rest.length + 1) c with
  | .error e => .error e
  | .ok (text, next) =>
    if next.offset = c.offset then .error .malformed else .ok (String.ofList text, next)

/-- Reads the handle of a tag: a mark, or a name between two marks. -/
def tagHandle (c : Cursor) : Except Fault (String × Cursor) :=
  if c.isAt '!' then
    let c := c.advance
    if c.isAt ' ' then .ok ("!", c)
    else
      let (name, c) := c.takeWhile isNameChar
      if c.isAt '!' then .ok (String.ofList ('!' :: name ++ ['!']), c.advance)
      else .error .malformed
  else .error .malformed

/-- Reads a name that is not empty. -/
def name (c : Cursor) : Except Fault (String × Cursor) :=
  match c.takeWhile isNameChar with
  | ([], _) => .error .malformed
  | (name, c) => .ok (String.ofList name, c)

/-- Reads a number. -/
def number (c : Cursor) : Except Fault (Nat × Cursor) :=
  match c.takeWhile Char.isDigit with
  | ([], _) => .error .malformed
  | (digits, c) =>
    if digitLimit < digits.length then .error (.noInteger (.tooManyDigits digits.length))
    else .ok (ofDigitChars digits, c)

/-- Reads a version of YAML: its first number. -/
def yamlVersion (c : Cursor) : Except Fault (Token × Cursor) := do
  let (major, c) ← number c.skipSpaces
  if c.isAt '.' then
    let (_, c) ← number c.advance
    if endsWord c.peek then return (.version major, c) else .error .malformed
  else .error .malformed

/-- Reads what a handle of tags stands for. -/
def tagDeclaration (c : Cursor) : Except Fault (Token × Cursor) := do
  let (handle, c) ← tagHandle c.skipSpaces
  if c.isAt ' ' then
    let (lead, c) ← address c.skipSpaces
    if endsWord c.peek then return (.handle handle lead, c) else .error .malformed
  else .error .malformed

/-- Reads a directive from its mark on. -/
def directive (c : Cursor) : Except Fault (Token × Cursor) := do
  let (name, c) ← name c.advance
  if endsWord c.peek then
    let (token, c) ←
      if name = "YAML" then yamlVersion c
      else if name = "TAG" then tagDeclaration c
      else pure (.unknownDirective, c.skipWhile (fun x => !isBreak x))
    return (token, ← c.endOfLine)
  else .error .malformed

/-- A character that may stand right behind the name of an anchor. -/
def endsName (c : Option Char) : Bool :=
  endsToken c || c.any fun c => "?:,]\x7d%@\x60".toList.contains c

/-- Reads the name of an anchor from its mark on. -/
def anchorName (c : Cursor) : Except Fault (String × Cursor) := do
  let (name, c) ← name c.advance
  if endsName c.peek then return (name, c) else .error .malformed

/-- Whether a tag has a name between two marks. -/
def hasHandle (c : Cursor) : Bool :=
  ((c.rest.drop 1).takeWhile fun x => !(x == ' ' || isBreak x)).contains '!'

/-- Reads a tag. -/
def tag (c : Cursor) : Except Fault (Token × Cursor) := do
  let (token, c) ←
    if c.ahead 1 = some '<' then do
      let (suffix, c) ← address (advanceBy 2 c)
      if c.isAt '>' then pure (Token.tag none suffix, c.advance) else .error .malformed
    else if endsToken (c.ahead 1) then pure (Token.tag none "!", c.advance)
    else do
      let (handle, c) ← if hasHandle c then tagHandle c else pure ("!", c.advance)
      let (suffix, c) ← address c
      pure (Token.tag (some handle) suffix, c)
  if endsWord c.peek then return (token, c) else .error .malformed

end Cursor

/-! ## State -/

/-- A place at which a key may have started. -/
structure PossibleKey where
  /-- How many tokens come before the key. -/
  index : Nat
  /-- Whether nothing else than a key can stand here. -/
  required : Bool
  offset : Nat
  line : Nat
  column : Nat
  deriving Repr, DecidableEq

/-- The state of reading tokens. -/
structure Scan where
  cursor : Cursor
  /-- How many characters the text has. -/
  size : Nat
  /-- How many brackets are open. -/
  depth : Nat := 0
  /-- The column of the innermost collection that is told by indentation. -/
  indent : Int := -1
  /-- The columns of the collections around it, innermost first. -/
  outer : List Int := []
  /-- Whether a key may start here. -/
  keyAllowed : Bool := true
  /-- The possible keys, by the count of brackets around them. -/
  keys : List (Nat × PossibleKey) := []
  /-- The tokens that are read and not taken. -/
  queue : List Token := []
  /-- How many tokens have been taken. -/
  taken : Nat := 0
  /-- Whether the end of the text is reached. -/
  ended : Bool := false
  deriving Repr

namespace Scan

/-- Adds a token. -/
def push (s : Scan) (token : Token) : Scan :=
  { s with queue := s.queue ++ [token] }

/-- Puts a token where an earlier one is now, behind the given count of tokens. -/
def insertAt (s : Scan) (index : Nat) (token : Token) : Scan :=
  let earlier := index - s.taken
  { s with queue := s.queue.take earlier ++ token :: s.queue.drop earlier }

/-- Closes the collections that are indented further than a column. -/
def unwindFrom (column : Int) : List Int → Scan → Scan
  | [], s => s
  | indent :: outer, s =>
    if column < s.indent then
      unwindFrom column outer ({ s with indent, outer }.push .blockEnd)
    else s

/-- Closes the collections that are indented further than a column; inside of brackets indentation
does not count. -/
def unwind (s : Scan) (column : Int) : Scan :=
  if s.depth = 0 then unwindFrom column s.outer s else s

/-- Opens a collection in a column if that is indented further; tells whether it did. -/
def openIndent (s : Scan) (column : Nat) : Bool × Scan :=
  if s.indent < column then
    (true, { s with outer := s.indent :: s.outer, indent := column })
  else (false, s)

/-- Forgets the possible key at the present depth. -/
def forgetKey (s : Scan) : Except Fault Scan :=
  match s.keys.lookup s.depth with
  | some key =>
    if key.required then .error .malformed
    else .ok { s with keys := s.keys.filter (·.1 != s.depth) }
  | none => .ok s

/-- The most characters of a key. -/
def keyLimit : Nat := 1024

/-- Whether a possible key is no longer one: its line has ended or it is too long. -/
def isStale (c : Cursor) (key : PossibleKey) : Bool :=
  key.line != c.line || keyLimit < c.offset - key.offset

/-- Forgets the possible keys that no longer are. -/
def dropStale (s : Scan) : Except Fault Scan :=
  let stale := s.keys.filter fun (_, key) => isStale s.cursor key
  if stale.any (·.2.required) then .error .malformed
  else .ok { s with keys := s.keys.filter fun (_, key) => !isStale s.cursor key }

/-- Notes that a key may start here. -/
def noteKey (s : Scan) : Except Fault Scan :=
  if s.keyAllowed then do
    let required := s.depth == 0 && s.indent == s.cursor.column
    let s ← s.forgetKey
    let c := s.cursor
    return { s with
      keys := (s.depth, ⟨s.taken + s.queue.length, required, c.offset, c.line, c.column⟩) ::
        s.keys }
  else .ok s

/-! ## Single tokens -/

/-- Reads a token that may start a key. -/
def readNode (s : Scan) (read : Cursor → Except Fault (Token × Cursor)) : Except Fault Scan := do
  let s ← s.noteKey
  let (token, cursor) ← read s.cursor
  return { s with keyAllowed := false, cursor }.push token

/-- Reads a plain scalar.  A key may follow if the scalar goes up to the end of its line. -/
def readPlain (s : Scan) : Except Fault Scan := do
  let s ← s.noteKey
  let (text, keyAllowed, cursor) := s.cursor.plain (s.depth != 0) (s.indent + 1)
  return { s with keyAllowed, cursor }.push (.scalar (.whole (String.ofList text)) true)

/-- Reads a block. -/
def readBlock (s : Scan) : Except Fault Scan := do
  let s ← s.forgetKey
  let (text, cursor) ← s.cursor.block s.indent
  return { s with keyAllowed := true, cursor }.push (.scalar (.whole (String.ofList text)) false)

/-- Reads a directive or a mark between documents, which closes all collections. -/
def readOuter (s : Scan) (read : Cursor → Except Fault (Token × Cursor)) : Except Fault Scan := do
  let s ← (s.unwind (-1)).forgetKey
  let (token, cursor) ← read s.cursor
  return { s with keyAllowed := false, cursor }.push token

/-- Reads a mark between documents. -/
def readMark (s : Scan) (token : Token) : Except Fault Scan :=
  s.readOuter fun c => .ok (token, c.advanceBy 3)

/-- Reads an opening bracket. -/
def readOpening (s : Scan) (token : Token) : Except Fault Scan := do
  let s ← s.noteKey
  return { s with depth := s.depth + 1, keyAllowed := true, cursor := s.cursor.advance }.push token

/-- Reads a closing bracket. -/
def readClosing (s : Scan) (token : Token) : Except Fault Scan := do
  let s ← s.forgetKey
  return { s with
    depth := s.depth - 1, keyAllowed := false, cursor := s.cursor.advance }.push token

/-- Reads a comma between brackets. -/
def readComma (s : Scan) : Except Fault Scan := do
  let s ← { s with keyAllowed := true }.forgetKey
  return { s with cursor := s.cursor.advance }.push .flowEntry

/-- Opens a collection here that is told by indentation, if there is none in this column. -/
def openHere (s : Scan) (start : Token) : Scan :=
  match s.openIndent s.cursor.column with
  | (true, s) => s.push start
  | (false, s) => s

/-- Reads the hyphen of an item. -/
def readHyphen (s : Scan) : Except Fault Scan := do
  if s.depth = 0 ∧ !s.keyAllowed then .error .malformed
  let s := if s.depth = 0 then s.openHere .blockSequenceStart else s
  let s ← { s with keyAllowed := true }.forgetKey
  return { s with cursor := s.cursor.advance }.push .blockEntry

/-- Reads the question mark of a key. -/
def readQuestion (s : Scan) : Except Fault Scan := do
  if s.depth = 0 ∧ !s.keyAllowed then .error .malformed
  let s := if s.depth = 0 then s.openHere .blockMappingStart else s
  let s ← { s with keyAllowed := s.depth == 0 }.forgetKey
  return { s with cursor := s.cursor.advance }.push .key

/-- Reads the colon of a value.  The possible key before it is one. -/
def readColon (s : Scan) : Except Fault Scan := do
  match s.keys.lookup s.depth with
  | some key =>
    let s := { s with keys := s.keys.filter (·.1 != s.depth) }.insertAt key.index .key
    let s :=
      if s.depth = 0 then
        match s.openIndent key.column with
        | (true, s) => s.insertAt key.index .blockMappingStart
        | (false, s) => s
      else s
    return { s with keyAllowed := false, cursor := s.cursor.advance }.push .value
  | none =>
    if s.depth = 0 ∧ !s.keyAllowed then .error .malformed
    let s := if s.depth = 0 then s.openHere .blockMappingStart else s
    let s ← { s with keyAllowed := s.depth == 0 }.forgetKey
    return { s with cursor := s.cursor.advance }.push .value

/-! ## The next token -/

/-- A character that starts no plain scalar. -/
def isIndicator (c : Char) : Bool :=
  "-?:,[]\x7b\x7d#&*!|>'\"%@\x60".toList.contains c

/-- Whether a plain scalar starts with a character, by what follows it. -/
def startsPlain (inFlow : Bool) (c : Char) (next : Option Char) : Bool :=
  !(isGap c || isBreak c || isIndicator c) ||
    (!endsToken next && (c == '-' || (!inFlow && (c == '?' || c == ':'))))

/-- Reads a scalar in quotes. -/
def quotedToken (c : Cursor) : Except Fault (Token × Cursor) := do
  let (text, c) ← c.quoted
  return (.scalar text false, c)

/-- Reads the token that starts with a character. -/
def readToken (s : Scan) (x : Char) : Except Fault Scan :=
  let c := s.cursor
  let inFlow := s.depth != 0
  let next := c.ahead 1
  if x = '%' ∧ c.column = 0 then s.readOuter Cursor.directive
  else if x = '-' ∧ c.column = 0 ∧ c.isAtMark '-' then s.readMark .documentStart
  else if x = '.' ∧ c.column = 0 ∧ c.isAtMark '.' then s.readMark .documentEnd
  else if x = '[' then s.readOpening .flowSequenceStart
  else if x = '\x7b' then s.readOpening .flowMappingStart
  else if x = ']' then s.readClosing .flowSequenceEnd
  else if x = '\x7d' then s.readClosing .flowMappingEnd
  else if x = ',' then s.readComma
  else if x = '-' ∧ endsToken next then s.readHyphen
  else if x = '?' ∧ (inFlow ∨ endsToken next) then s.readQuestion
  else if x = ':' ∧ (inFlow ∨ endsToken next) then s.readColon
  else if x = '*' then
    s.readNode fun c => do
      let (name, c) ← c.anchorName
      return (.alias name, c)
  else if x = '&' then
    s.readNode fun c => do
      let (name, c) ← c.anchorName
      return (.anchor name, c)
  else if x = '!' then s.readNode Cursor.tag
  else if (x = '|' ∨ x = '>') ∧ !inFlow then s.readBlock
  else if x = '\'' ∨ x = '"' then s.readNode quotedToken
  else if startsPlain inFlow x next then s.readPlain
  else .error .malformed

/-- Reads on at the next place where a token may start. -/
def readOn (s : Scan) : Except Fault Scan := do
  let (lineEnded, cursor) := s.cursor.skipGaps
  let keyAllowed := s.keyAllowed || (lineEnded && s.depth == 0)
  let s ← { s with cursor, keyAllowed }.dropStale
  let s := s.unwind cursor.column
  match cursor.peek with
  | none =>
    let s ← (s.unwind (-1)).forgetKey
    return { s with keys := [], ended := true }
  | some x => s.readToken x

/-- Reads on until a token is there that no other can come before. -/
def fillFrom : Nat → Scan → Except Fault Scan
  | 0, s => .ok s
  | fuel + 1, s =>
    if s.ended then .ok s
    else if s.queue.isEmpty then do
      fillFrom fuel (← s.readOn)
    else do
      let s ← s.dropStale
      if s.keys.any fun (_, key) => key.index == s.taken then fillFrom fuel (← s.readOn)
      else return s

/-- Reads on until the next token is known, or the end of the text. -/
def fill (s : Scan) : Except Fault Scan :=
  fillFrom (s.size + 2) s

/-- Takes the next token. -/
def take (s : Scan) : Scan :=
  { s with queue := s.queue.drop 1, taken := s.taken + 1 }

/-- The state in front of a text, all of whose characters have to be allowed. -/
def ofText (text : List Char) : Except Fault Scan :=
  if text.all isAllowed then .ok { cursor := { rest := text }, size := text.length }
  else .error .malformed

end Scan

end LessonCalc.Yaml
