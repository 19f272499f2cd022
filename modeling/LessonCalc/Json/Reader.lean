import LessonCalc.Json.Writer
import LessonCalc.Number.Literal
import LessonCalc.Text.Lines

/-!
# Reading JSON

A reader for JSON texts that stops at the first fault and says where it stands.  Beyond the standard
it accepts the names `NaN`, `Infinity` and `-Infinity` as numbers; of a key that occurs twice in an
object the last value counts.  Integers are limited in length and values in depth.
-/

namespace LessonCalc.Json

open LessonCalc.Text LessonCalc.Number

/-! ## Faults -/

/-- Why a text is not JSON. -/
inductive SyntaxFault where
  | byteOrderMark
  | expectingValue
  | expectingName
  | expectingColon
  | expectingComma
  | extraData
  | unterminatedString
  | controlCharacter
  | badEscape
  | badCodeEscape
  deriving Repr, DecidableEq

/-- The wording of a fault, without its place. -/
def SyntaxFault.message : SyntaxFault → String
  | byteOrderMark => "Unexpected UTF-8 BOM (decode using utf-8-sig)"
  | expectingValue => "Expecting value"
  | expectingName => "Expecting property name enclosed in double quotes"
  | expectingColon => "Expecting ':' delimiter"
  | expectingComma => "Expecting ',' delimiter"
  | extraData => "Extra data"
  | unterminatedString => "Unterminated string starting at"
  | controlCharacter => "Invalid control character at"
  | badEscape => "Invalid \\escape"
  | badCodeEscape => "Invalid \\uXXXX escape"

/-- Why reading stopped: a fault in the syntax and the text from its place on, an integer with too
many digits, or a value nested too deeply. -/
inductive Stop where
  | syntaxFault (fault : SyntaxFault) (rest : List Char)
  | tooManyDigits (count : Nat)
  | tooDeep
  deriving Repr, DecidableEq

/-- A fault at the given rest of the text. -/
def faultAt {α : Type} (fault : SyntaxFault) (rest : List Char) : Except Stop α :=
  .error (.syntaxFault fault rest)

/-! ## White space -/

/-- The white space between the parts of a JSON text. -/
def isGap (c : Char) : Bool :=
  c == ' ' || c == '\t' || c == '\n' || c == '\r'

/-- A text without leading white space. -/
def skipGap (cs : List Char) : List Char :=
  cs.dropWhile isGap

/-! ## Strings -/

/-- The number that four hexadecimal digits spell. -/
def hexUnit? (a b c d : Char) : Option Nat := do
  let a ← hexValue? a
  let b ← hexValue? b
  let c ← hexValue? c
  let d ← hexValue? d
  return ((a * 16 + b) * 16 + c) * 16 + d

/-- The character that a letter after a backslash stands for. -/
def simpleEscape? : Char → Option Char
  | '"' => some '"'
  | '\\' => some '\\'
  | '/' => some '/'
  | 'b' => some '\x08'
  | 'f' => some '\x0c'
  | 'n' => some '\n'
  | 'r' => some '\r'
  | 't' => some '\t'
  | _ => none

/-- Whether a code unit is the first half of a surrogate pair. -/
def isHighSurrogate (n : Nat) : Bool :=
  0xD800 ≤ n && n ≤ 0xDBFF

/-- Whether a code unit is the second half of a surrogate pair. -/
def isLowSurrogate (n : Nat) : Bool :=
  0xDC00 ≤ n && n ≤ 0xDFFF

/-- The character of a surrogate pair. -/
def pairChar (high low : Nat) : Char :=
  Char.ofNat (0x10000 + (high - 0xD800) * 0x400 + (low - 0xDC00))

/-- Reads the code of an escape, from its `u` on: at least one more character has to follow the four
digits.  A pair of escapes that make one character is read as one. -/
def codeEscape? : List Char → Except Stop (Code × List Char)
  | 'u' :: a :: b :: c :: d :: e :: rest =>
    match hexUnit? a b c d with
    | none => faultAt .badCodeEscape ('u' :: a :: b :: c :: d :: e :: rest)
    | some high =>
      match isHighSurrogate high, e, rest with
      | true, '\\', 'u' :: f :: g :: h :: i :: j :: more =>
        match hexUnit? f g h i with
        | none => faultAt .badCodeEscape ('u' :: f :: g :: h :: i :: j :: more)
        | some low =>
          if isLowSurrogate low then .ok (.char (pairChar high low), j :: more)
          else .ok (.ofNat high, e :: rest)
      | _, _, _ => .ok (.ofNat high, e :: rest)
  | rest => faultAt .badCodeEscape rest

/-- Reads the rest of a string, whose codes so far are given in reverse.  `opening` is the text
from its opening quote on, which is where an unterminated string is reported. -/
def readString (opening : List Char) :
    Nat → List Code → List Char → Except Stop (RawText × List Char)
  | 0, _, _ => faultAt .unterminatedString opening
  | _ + 1, _, [] => faultAt .unterminatedString opening
  | fuel + 1, done, c :: rest =>
    if c = '"' then .ok (.ofCodes done.reverse, rest)
    else if c = '\\' then
      match rest with
      | [] => faultAt .unterminatedString opening
      | e :: more =>
        if e = 'u' then
          match codeEscape? rest with
          | .ok (x, left) => readString opening fuel (x :: done) left
          | .error stop => .error stop
        else
          match simpleEscape? e with
          | some x => readString opening fuel (.char x :: done) more
          | none => faultAt .badEscape (c :: rest)
    else if c.toNat < 0x20 then faultAt .controlCharacter (c :: rest)
    else readString opening fuel (.char c :: done) rest

/-- Reads a string from its opening quote on. -/
def readStringAt (opening : List Char) : Except Stop (RawText × List Char) :=
  readString opening opening.length [] (opening.drop 1)

/-! ## Numbers -/

/-- A minus sign at the front of a text: whether it is there, and what follows it. -/
def takeMinus : List Char → Bool × List Char
  | '-' :: rest => (true, rest)
  | rest => (false, rest)

/-- The digits of an integer part: a zero, or digits that start with none. -/
def takeInteger : List Char → List Char × List Char
  | '0' :: rest => (['0'], rest)
  | cs => digitRun cs

/-- A fraction at the front of a text: a point that digits follow. -/
def takeFraction : List Char → List Char × List Char
  | '.' :: rest =>
    match digitRun rest with
    | ([], _) => ([], '.' :: rest)
    | (digits, left) => (digits, left)
  | cs => ([], cs)

/-- Reads a number: an integer if it has neither a fraction nor an exponent. -/
def readNumber (cs : List Char) : Except Stop (Json × List Char) :=
  let (negative, rest) := takeMinus cs
  match takeInteger rest with
  | ([], _) => faultAt .expectingValue cs
  | (whole, afterWhole) =>
    let (fraction, afterFraction) := takeFraction afterWhole
    match fraction, exponent? digitRun afterFraction with
    | [], none =>
      if digitLimit < whole.length then .error (.tooManyDigits whole.length)
      else
        let n : Int := ofDigitChars whole
        .ok (.int (if negative then -n else n), afterFraction)
    | _, none =>
      .ok (.float (signed negative (Literal.toFloat ⟨whole, fraction, 0⟩)), afterFraction)
    | _, some (e, left) =>
      .ok (.float (signed negative (Literal.toFloat ⟨whole, fraction, e⟩)), left)

/-- The words that stand for values. -/
def words : List (List Char × Json) :=
  [("null".toList, .null), ("true".toList, .bool true), ("false".toList, .bool false),
   ("NaN".toList, .float (0.0 / 0.0)), ("Infinity".toList, .float (1.0 / 0.0)),
   ("-Infinity".toList, .float (-1.0 / 0.0))]

/-- Reads a word that stands for a value. -/
def readWord? (cs : List Char) : Option (Json × List Char) :=
  words.findSome? fun (word, v) => (dropWord? word cs).map fun rest => (v, rest)

/-! ## Values -/

/-- How deep values may be nested. -/
def depthLimit : Nat := 990

mutual

/-- Reads a value, which may hold values down to the given depth. -/
def readValue : Nat → Nat → List Char → Except Stop (Json × List Char)
  | 0, _, cs => faultAt .expectingValue cs
  | fuel + 1, depth, cs =>
    match cs with
    | '"' :: _ => do
      let (s, rest) ← readStringAt cs
      return (.string s, rest)
    | '[' :: rest =>
      match depth with
      | 0 => .error .tooDeep
      | depth + 1 =>
        match skipGap rest with
        | ']' :: left => .ok (.array [], left)
        | rest => do
          let (items, left) ← readItems fuel depth rest
          return (.array items, left)
    | '\x7b' :: rest =>
      match depth with
      | 0 => .error .tooDeep
      | depth + 1 =>
        match skipGap rest with
        | '\x7d' :: left => .ok (.object [], left)
        | rest => do
          let (entries, left) ← readEntries fuel depth rest
          return (.object (Entries.ofList entries), left)
    | _ =>
      match readWord? cs with
      | some found => .ok found
      | none => readNumber cs

/-- Reads the values of an array up to its closing bracket. -/
def readItems : Nat → Nat → List Char → Except Stop (List Json × List Char)
  | 0, _, cs => faultAt .expectingValue cs
  | fuel + 1, depth, cs => do
    let (v, rest) ← readValue fuel depth cs
    match skipGap rest with
    | ']' :: left => return ([v], left)
    | ',' :: more =>
      let (vs, left) ← readItems fuel depth (skipGap more)
      return (v :: vs, left)
    | rest => faultAt .expectingComma rest

/-- Reads the entries of an object up to its closing brace. -/
def readEntries : Nat → Nat → List Char → Except Stop (List (RawText × Json) × List Char)
  | 0, _, cs => faultAt .expectingName cs
  | fuel + 1, depth, cs => do
    match cs with
    | '"' :: _ =>
      let (k, rest) ← readStringAt cs
      match skipGap rest with
      | ':' :: more =>
        let (v, rest) ← readValue fuel depth (skipGap more)
        match skipGap rest with
        | '\x7d' :: left => return ([(k, v)], left)
        | ',' :: more =>
          let (es, left) ← readEntries fuel depth (skipGap more)
          return ((k, v) :: es, left)
        | rest => faultAt .expectingComma rest
      | rest => faultAt .expectingColon rest
    | _ => faultAt .expectingName cs

end

/-- Reads a whole text as one value. -/
def readText (cs : List Char) : Except Stop Json :=
  match cs with
  | '\uFEFF' :: _ => faultAt .byteOrderMark cs
  | _ =>
    match readValue (cs.length + 1) depthLimit (skipGap cs) with
    | .error stop => .error stop
    | .ok (v, rest) =>
      match skipGap rest with
      | [] => .ok v
      | extra => faultAt .extraData extra

/-- The value of a JSON text. -/
def ofString (s : String) : Except Stop Json :=
  readText s.toList

/-! ## Places -/

/-- The place of a fault: its line and column, which count from one, and its offset. -/
def placeText (text : List Char) (offset : Nat) : String :=
  let before := text.take offset
  let line := before.count '\n' + 1
  s!"line {line} column {columnAfter before} (char {offset})"

/-- The message of a fault in a text. -/
def syntaxMessage (text : List Char) (fault : SyntaxFault) (rest : List Char) : String :=
  fault.message ++ ": " ++ placeText text (text.length - rest.length)

end LessonCalc.Json
