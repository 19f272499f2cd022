import LessonCalc.Formula.Chain
import LessonCalc.Text.Lines
import LessonCalc.Text.Quoted

/-!
# Checking a formula

The strict grammar accepts a formula only if it reads as written: every character belongs to a token
or is one of five white space characters, every number is a plain literal, no operand is missing and
every parenthesis is closed.

```text
ternary     := comparison ( '?' ternary ( ':' ternary )? )?
comparison  := additive ( ( '>' | '<' | '>=' | '<=' | '==' | '!=' ) additive )*
additive    := multiplicative ( ( '+' | '-' ) multiplicative )*
multiplicative := unary ( ( '*' | '/' | '%' ) unary )*
unary       := '-' atom | atom
atom        := number | name | '(' ternary ')'
```

The text is cut into tokens and checked from left to right, and the first problem is reported: a
character that starts no token, a token that cannot follow those before it, or the end of the text.
-/

namespace LessonCalc.Formula

open LessonCalc.Number LessonCalc.Text

/-! ## Errors -/

/-- Why a formula is refused.  A column counts characters from the last line feed, from one. -/
inductive ParseError where
  | empty
  | character (c : Char) (column : Nat)
  | token (text : String) (column : Nat)
  | ended
  deriving Repr, DecidableEq

namespace ParseError

/-- What is wrong. -/
def detail : ParseError → String
  | empty => "Formula is empty"
  | character c _ => "unexpected character " ++ quote (String.singleton c)
  | token text _ => "unexpected " ++ quote text
  | ended => "unexpected end of formula"

/-- Where it is wrong; the end of the text has no column. -/
def position : ParseError → Option Nat
  | empty => some 0
  | character _ column => some column
  | token _ column => some column
  | ended => none

/-- What is wrong and where. -/
def message (e : ParseError) : String :=
  "Formula parse error: " ++ e.detail ++
    match e.position with
    | some column => s!" (at position {column})"
    | none => ""

end ParseError

/-! ## Strict tokens -/

/-- A token and the text from its first character on. -/
structure Lexeme where
  token : Token
  source : List Char
  deriving Repr, DecidableEq

/-- The white space that a checked formula may hold between tokens. -/
def isLayout (c : Char) : Bool :=
  c == ' ' || c == '\t' || c == '\x0c' || c == '\r' || c == '\n'

/-- The token at the front of a text whose first character is `c`, and what follows it. -/
def strictToken? (c : Char) (rest : List Char) : Option (Token × List Char) :=
  if isNameStart c then
    let word := c :: rest.takeWhile isNameChar
    some (.name (String.ofList word), rest.dropWhile isNameChar)
  else
    match plain? (c :: rest) with
    | some (_, left) =>
      let used := (c :: rest).take (rest.length + 1 - left.length)
      some (.number (String.ofList used), left)
    | none =>
      match takeDouble? c rest with
      | some (op, _, left) => some (.operator op, left)
      | none => (singleToken? c).map fun token => (token, rest)

/-- The tokens of a text up to its end or to the first character that starts none, and the text from
there on.  The first argument bounds the number of characters. -/
def lexWithin : Nat → List Char → List Lexeme × List Char
  | 0, cs => ([], cs)
  | _ + 1, [] => ([], [])
  | bound + 1, c :: rest =>
    if isLayout c then lexWithin bound rest
    else
      match strictToken? c rest with
      | none => ([], c :: rest)
      | some (token, left) =>
        let (lexemes, stop) := lexWithin bound left
        (⟨token, c :: rest⟩ :: lexemes, stop)

/-- The tokens of a text up to its end or to the first character that starts none, and the text from
there on. -/
def lex (cs : List Char) : List Lexeme × List Char :=
  lexWithin (cs.length + 1) cs

/-! ## The grammar -/

/-- Why a list of tokens is not a formula: it ends too early, or a token cannot stand where it
does. -/
inductive Refusal where
  | ended
  | misplaced (lexeme : Lexeme)
  deriving Repr, DecidableEq

/-- The refusal at the front of what is left. -/
def refusalAt : List Lexeme → Refusal
  | [] => .ended
  | lexeme :: _ => .misplaced lexeme

mutual

/-- Reads a chain of operands joined by question marks and colons. -/
def parseTernary : Nat → List Lexeme → Except Refusal (Tree × List Lexeme)
  | 0, lexemes => .error (refusalAt lexemes)
  | fuel + 1, lexemes => do
    let (first, rest) ← parseLevel fuel .comparison lexemes
    let (links, left) ← parseLinks fuel 0 rest
    return (outermost first links, left)

/-- Reads the marks that follow an operand, each with the operand after it, while `opened` question
marks have no colon yet. -/
def parseLinks : Nat → Nat → List Lexeme → Except Refusal (Links × List Lexeme)
  | 0, _, lexemes => .ok ([], lexemes)
  | fuel + 1, opened, lexemes =>
    match lexemes with
    | ⟨.question, _⟩ :: rest => do
      let (operand, rest) ← parseLevel fuel .comparison rest
      let (links, left) ← parseLinks fuel (opened + 1) rest
      return ((.question, operand) :: links, left)
    | ⟨.colon, _⟩ :: rest =>
      match opened with
      | 0 => .ok ([], lexemes)
      | opened + 1 => do
        let (operand, rest) ← parseLevel fuel .comparison rest
        let (links, left) ← parseLinks fuel opened rest
        return ((.colon, operand) :: links, left)
    | _ => .ok ([], lexemes)

/-- Reads operands joined by the operators of a level, which associate to the left. -/
def parseLevel : Nat → Level → List Lexeme → Except Refusal (Tree × List Lexeme)
  | 0, _, lexemes => .error (refusalAt lexemes)
  | fuel + 1, level, lexemes => do
    let (first, rest) ← parseOperand fuel level lexemes
    parseMore fuel level first rest

/-- Reads an operand of the operators of a level. -/
def parseOperand : Nat → Level → List Lexeme → Except Refusal (Tree × List Lexeme)
  | 0, _, lexemes => .error (refusalAt lexemes)
  | fuel + 1, .comparison, lexemes => parseLevel fuel .additive lexemes
  | fuel + 1, .additive, lexemes => parseLevel fuel .multiplicative lexemes
  | fuel + 1, .multiplicative, lexemes => parseUnary fuel lexemes

/-- Reads the operators of a level that follow an operand, each with its right operand. -/
def parseMore : Nat → Level → Tree → List Lexeme → Except Refusal (Tree × List Lexeme)
  | 0, _, first, lexemes => .ok (first, lexemes)
  | fuel + 1, level, first, lexemes =>
    match lexemes with
    | ⟨.operator op, _⟩ :: rest =>
      if op.level = level then do
        let (second, left) ← parseOperand fuel level rest
        parseMore fuel level (.binary op first second) left
      else .ok (first, lexemes)
    | _ => .ok (first, lexemes)

/-- Reads an atom with at most one minus sign before it. -/
def parseUnary : Nat → List Lexeme → Except Refusal (Tree × List Lexeme)
  | 0, lexemes => .error (refusalAt lexemes)
  | fuel + 1, lexemes =>
    match lexemes with
    | ⟨.operator .sub, _⟩ :: rest => do
      let (operand, left) ← parseAtom fuel rest
      return (.negate operand, left)
    | _ => parseAtom fuel lexemes

/-- Reads a number, a name or a closed parenthesis. -/
def parseAtom : Nat → List Lexeme → Except Refusal (Tree × List Lexeme)
  | 0, lexemes => .error (refusalAt lexemes)
  | fuel + 1, lexemes =>
    match lexemes with
    | ⟨.number text, _⟩ :: rest => .ok (.number text, rest)
    | ⟨.name text, _⟩ :: rest => .ok (.name text, rest)
    | ⟨.openParen, _⟩ :: rest => do
      let (inner, left) ← parseTernary fuel rest
      match left with
      | ⟨.closeParen, _⟩ :: left => return (inner, left)
      | left => .error (refusalAt left)
    | left => .error (refusalAt left)

end

/-- Reads a whole list of tokens. -/
def parseAll (lexemes : List Lexeme) : Except Refusal Tree :=
  match parseTernary (10 * (lexemes.length + 1)) lexemes with
  | .error refusal => .error refusal
  | .ok (tree, []) => .ok tree
  | .ok (_, left) => .error (refusalAt left)

/-! ## Texts -/

/-- The column at which the rest of a text starts. -/
def columnOf (text rest : List Char) : Nat :=
  columnAfter (text.take (text.length - rest.length))

/-- The error for the end of the tokens: the character that starts no token, if there is one. -/
def endError (text stop : List Char) : ParseError :=
  match stop with
  | [] => .ended
  | c :: _ => .character c (columnOf text stop)

/-- The tree of a formula, or the first problem with it. -/
def parseChars (text : List Char) : Except ParseError Tree :=
  if dropBlanks text = [] then .error .empty
  else
    let (lexemes, stop) := lex text
    match parseAll lexemes with
    | .error .ended => .error (endError text stop)
    | .error (.misplaced lexeme) =>
      .error (.token lexeme.token.text (columnOf text lexeme.source))
    | .ok tree => if stop = [] then .ok tree else .error (endError text stop)

/-- The tree of a formula, or the first problem with it. -/
def parse (formula : String) : Except ParseError Tree :=
  parseChars formula.toList

/-! ## References -/

/-- Why a formula is refused where only certain names may occur. -/
inductive CheckError where
  | syntaxError (error : ParseError)
  | unknownName (name : String) (available : List String)
  deriving Repr, DecidableEq

/-- The wording of the error. -/
def CheckError.message : CheckError → String
  | .syntaxError error => error.message
  | .unknownName name available =>
    "Unknown reference: " ++ quote name ++
      if available.isEmpty then "" else ". Available: " ++ quoteList available

/-- The names that a formula refers to, in increasing order.  If a list of names is given, all have
to be in it; the first one that is not is reported. -/
def check (formula : String) (available : Option (List String)) :
    Except CheckError (List String) :=
  match parse formula with
  | .error e => .error (.syntaxError e)
  | .ok tree =>
    match available with
    | none => .ok tree.refs
    | some names =>
      match tree.refs.find? (!names.contains ·) with
      | some missing => .error (.unknownName missing (sortedNames names))
      | none => .ok tree.refs

end LessonCalc.Formula
