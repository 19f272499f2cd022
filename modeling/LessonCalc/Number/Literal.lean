import LessonCalc.Number.Binary64
import LessonCalc.Number.Decimal
import LessonCalc.Text.Blank
import LessonCalc.Text.Digit

/-!
# Numbers as text

The library reads numbers from text in several places, which differ in what may surround a literal
and in whether underscores may group its digits.  All share the *plain literal*: digits with an
optional point and more digits, or a point and digits.

* `plain?` takes the longest plain literal at the front of a text: a number in a formula.
* `typed?` takes the longest signed literal at the front: a number typed into a field, where text
  after it does not matter.
* `floatText?` and `intText?` read a whole text, in the digits of any script.
* `plainFloatText?` and `plainIntText?` read a whole text in ASCII digits.
-/

namespace LessonCalc.Number

open LessonCalc.Text

/-! ## Runs of digits -/

/-- An ASCII digit. -/
def isDigit (c : Char) : Bool :=
  '0' ≤ c && c ≤ '9'

/-- The value of an ASCII digit. -/
def digitValue (c : Char) : Nat :=
  c.toNat - '0'.toNat

/-- A way to take the digits from the front of a text. -/
abbrev DigitRun := List Char → List Char × List Char

/-- The digits at the front of a text and what follows them. -/
def digitRun : DigitRun := fun cs =>
  (cs.takeWhile isDigit, cs.dropWhile isDigit)

/-- The digits at the front of a text, where one underscore may stand between two digits. -/
def groupedDigitRun : DigitRun
  | [] => ([], [])
  | c :: '_' :: d :: more =>
    if isDigit c && isDigit d then
      let (digits, left) := groupedDigitRun (d :: more)
      (c :: digits, left)
    else if isDigit c then ([c], '_' :: d :: more)
    else ([], c :: '_' :: d :: more)
  | c :: rest =>
    if isDigit c then
      let (digits, left) := groupedDigitRun rest
      (c :: digits, left)
    else ([], c :: rest)

/-- The natural number that a list of digit characters spells. -/
def ofDigitChars (cs : List Char) : Nat :=
  ofDigits (cs.map digitValue)

/-! ## Unsigned literals -/

/-- The parts of an unsigned literal. -/
structure Literal where
  whole : List Char
  fraction : List Char
  exponent : Int
  deriving Repr, DecidableEq

/-- The value of a literal as a decimal. -/
def Literal.decimal (l : Literal) : Decimal :=
  ⟨ofDigitChars (l.whole ++ l.fraction), l.exponent - l.fraction.length⟩

/-- The floating-point number nearest to the value of a literal. -/
def Literal.toFloat (l : Literal) : Float :=
  l.decimal.toFloat

/-- The longest literal without an exponent at the front of a text, and what follows it. -/
def mantissa? (run : DigitRun) (cs : List Char) : Option (Literal × List Char) :=
  match run cs with
  | ([], '.' :: rest) =>
    match run rest with
    | ([], _) => none
    | (fraction, left) => some (⟨[], fraction, 0⟩, left)
  | ([], _) => none
  | (whole, '.' :: rest) =>
    let (fraction, left) := run rest
    some (⟨whole, fraction, 0⟩, left)
  | (whole, left) => some (⟨whole, [], 0⟩, left)

/-- A sign at the front of a text: whether it is a minus, and what follows it. -/
def takeSign : List Char → Bool × List Char
  | '-' :: rest => (true, rest)
  | '+' :: rest => (false, rest)
  | rest => (false, rest)

/-- A complete exponent at the front of a text, and what follows it. -/
def exponent? (run : DigitRun) : List Char → Option (Int × List Char)
  | c :: rest =>
    if c = 'e' ∨ c = 'E' then
      let (negative, rest) := takeSign rest
      match run rest with
      | ([], _) => none
      | (digits, left) =>
        let n := ofDigitChars digits
        some (if negative then -n else n, left)
    else none
  | [] => none

/-- The longest literal at the front of a text, with its exponent if that is complete. -/
def literal? (run : DigitRun) (cs : List Char) : Option (Literal × List Char) :=
  (mantissa? run cs).map fun (l, rest) =>
    match exponent? run rest with
    | some (e, left) => ({ l with exponent := e }, left)
    | none => (l, rest)

/-- The longest plain literal at the front of a text: its characters and what follows it. -/
def plain? (cs : List Char) : Option (Literal × List Char) :=
  mantissa? digitRun cs

/-! ## Signed numbers -/

/-- A number with the given sign. -/
def signed (negative : Bool) (x : Float) : Float :=
  if negative then -x else x

/-- What follows a word at the front of a text. -/
def dropWord? : List Char → List Char → Option (List Char)
  | [], rest => some rest
  | _ :: _, [] => none
  | w :: word, c :: rest => if w = c then dropWord? word rest else none

/-- The word for infinity in a typed number. -/
def infinityWord : List Char := "Infinity".toList

/-- The number that a text typed into a field stands for: the longest signed literal or infinity
after leading blanks. -/
def typed? (cs : List Char) : Option Float :=
  let (negative, rest) := takeSign (dropBlanks cs)
  match dropWord? infinityWord rest with
  | some _ => some (signed negative (1.0 / 0.0))
  | none => (literal? digitRun rest).map fun (l, _) => signed negative l.toFloat

/-! ## Whole texts -/

/-- The ASCII letters of a text in lower case. -/
def lowerAscii (cs : List Char) : List Char :=
  cs.map Char.toLower

/-- A number that isn't finite, by name, in any case. -/
def namedNumber? (cs : List Char) : Option Float :=
  match String.ofList (lowerAscii cs) with
  | "inf" => some (1.0 / 0.0)
  | "infinity" => some (1.0 / 0.0)
  | "nan" => some (0.0 / 0.0)
  | _ => none

/-- A whole text as a signed number. -/
def wholeFloat? (run : DigitRun) (cs : List Char) : Option Float :=
  let (negative, rest) := takeSign cs
  match namedNumber? rest with
  | some x => some (signed negative x)
  | none =>
    match literal? run rest with
    | some (l, []) => some (signed negative l.toFloat)
    | _ => none

/-- A whole text as a signed integer, and how many digits it has. -/
def wholeInt? (run : DigitRun) (cs : List Char) : Option (Int × Nat) :=
  let (negative, rest) := takeSign cs
  match run rest with
  | ([], _) => none
  | (digits, []) =>
    let n : Int := ofDigitChars digits
    some (if negative then -n else n, digits.length)
  | _ => none

/-- A text with the digits of all scripts turned into ASCII digits. -/
def asciiDigits (cs : List Char) : List Char :=
  cs.map fun c => match decimalDigit? c with
    | some d => digitChar d
    | none => c

/-- A text as a floating-point number: spaces around it, digits of any script and single
underscores between digits are allowed. -/
def floatText? (s : String) : Option Float :=
  wholeFloat? groupedDigitRun (asciiDigits (trimSpaces s.toList))

/-- A text as an integer, under the rules of `floatText?`, with its count of digits. -/
def intText? (s : String) : Option (Int × Nat) :=
  wholeInt? groupedDigitRun (asciiDigits (trimSpaces s.toList))

/-- A text without its underscores, if it has some, none at an end and no two in a row. -/
def dropUnderscores? (cs : List Char) : Option (List Char) :=
  let doubled := (cs.zip (cs.drop 1)).any fun (a, b) => a == '_' && b == '_'
  if cs.head? = some '_' ∨ cs.getLast? = some '_' ∨ '_' ∉ cs ∨ doubled then none
  else some (cs.filter (· != '_'))

/-- A text as a floating-point number in ASCII digits: with spaces around it, or with single
underscores inside. -/
def plainFloatText? (s : String) : Option Float :=
  match wholeFloat? digitRun (trimSpaces s.toList) with
  | some x => some x
  | none => (dropUnderscores? s.toList).bind (wholeFloat? digitRun)

/-- A text as an integer in ASCII digits, with spaces around it and single underscores between
digits; a fraction of zeros is allowed. -/
def plainIntText? (s : String) : Option Int :=
  let cs := trimSpaces s.toList
  let (negative, rest) := takeSign cs
  match groupedDigitRun rest with
  | ([], _) => none
  | (digits, left) =>
    let n : Int := ofDigitChars digits
    let value := if negative then -n else n
    match left with
    | [] => some value
    | '.' :: zeros => if zeros.all (· == '0') then some value else none
    | _ => none

end LessonCalc.Number
