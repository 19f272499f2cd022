import LessonCalc.Formula.Token

/-!
# Reading a formula without ever refusing it

A formula is read from its tokens by descent through the levels of precedence.  Every token list has
a reading: where a value is expected and none can start, the reading says so (`missing` at the end,
`stray` for a token that is passed over), and an open parenthesis need not be closed.  Tokens after
the formula are left over.

Each function returns what it read and the tokens left, of which there are never more than before.
Each call goes down one level of precedence or follows a token that has been used up, so a number of
steps in proportion to the tokens is enough; the functions count down that number.
-/

namespace LessonCalc.Formula

/-- What a token list reads as. -/
inductive Reading where
  /-- No token was left where a value was expected. -/
  | missing
  /-- A token that starts no value stood where a value was expected. -/
  | stray (token : Token)
  | number (run : String)
  | name (text : String)
  | group (inner : Reading) (closed : Bool)
  | negate (operand : Reading)
  | binary (op : Operator) (left right : Reading)
  | ifThen (condition consequent : Reading)
  | ifThenElse (condition consequent alternative : Reading)
  deriving Repr, DecidableEq

mutual

/-- Reads a condition and, after a question mark, its consequent and optional alternative.  A colon
belongs to the nearest open question mark. -/
def readTernary : Nat → List Token → Reading × List Token
  | 0, tokens => (.missing, tokens)
  | fuel + 1, tokens =>
    match readLevel fuel .comparison tokens with
    | (condition, .question :: rest) =>
      match readTernary fuel rest with
      | (consequent, .colon :: rest) =>
        let (alternative, left) := readTernary fuel rest
        (.ifThenElse condition consequent alternative, left)
      | (consequent, left) => (.ifThen condition consequent, left)
    | (condition, left) => (condition, left)

/-- Reads operands joined by the operators of a level, which associate to the left. -/
def readLevel : Nat → Level → List Token → Reading × List Token
  | 0, _, tokens => (.missing, tokens)
  | fuel + 1, level, tokens =>
    let (first, rest) := readOperand fuel level tokens
    readMore fuel level first rest

/-- Reads an operand of the operators of a level: what the next tighter level reads. -/
def readOperand : Nat → Level → List Token → Reading × List Token
  | 0, _, tokens => (.missing, tokens)
  | fuel + 1, .comparison, tokens => readLevel fuel .additive tokens
  | fuel + 1, .additive, tokens => readLevel fuel .multiplicative tokens
  | fuel + 1, .multiplicative, tokens => readUnary fuel tokens

/-- Reads the operators of a level that follow an operand, each with its right operand. -/
def readMore : Nat → Level → Reading → List Token → Reading × List Token
  | 0, _, first, tokens => (first, tokens)
  | fuel + 1, level, first, tokens =>
    match tokens with
    | .operator op :: rest =>
      if op.level = level then
        let (second, left) := readOperand fuel level rest
        readMore fuel level (.binary op first second) left
      else (first, tokens)
    | _ => (first, tokens)

/-- Reads a value with at most one minus sign before it. -/
def readUnary : Nat → List Token → Reading × List Token
  | 0, tokens => (.missing, tokens)
  | fuel + 1, tokens =>
    match tokens with
    | .operator .sub :: rest =>
      let (operand, left) := readPrimary fuel rest
      (.negate operand, left)
    | _ => readPrimary fuel tokens

/-- Reads a number, a name or a parenthesis, or passes over a token that is none of these. -/
def readPrimary : Nat → List Token → Reading × List Token
  | 0, tokens => (.missing, tokens)
  | fuel + 1, tokens =>
    match tokens with
    | [] => (.missing, [])
    | .number run :: rest => (.number run, rest)
    | .name text :: rest => (.name text, rest)
    | .openParen :: rest =>
      match readTernary fuel rest with
      | (inner, .closeParen :: left) => (.group inner true, left)
      | (inner, left) => (.group inner false, left)
    | token :: rest => (.stray token, rest)

end

/-- Enough steps to read a token list: at most nine calls pass before a token is used up. -/
def stepsFor (tokens : List Token) : Nat :=
  10 * (tokens.length + 1)

/-- The reading of a token list, and the tokens after the formula. -/
def read (tokens : List Token) : Reading × List Token :=
  readTernary (stepsFor tokens) tokens

namespace Reading

/-! ## What a reading uses -/

/-- The names that a reading looks up, in order. -/
def names : Reading → List String
  | missing | stray _ | number _ => []
  | name text => [text]
  | group inner _ => inner.names
  | negate operand => operand.names
  | binary _ left right => left.names ++ right.names
  | ifThen condition consequent => condition.names ++ consequent.names
  | ifThenElse condition consequent alternative =>
    condition.names ++ (consequent.names ++ alternative.names)

/-- How many levels of descent a reading needs: six for a parenthesis, one for a branch of a
condition. -/
def depth : Reading → Nat
  | missing | stray _ | number _ | name _ => 0
  | group inner _ => inner.depth + 6
  | negate operand => operand.depth
  | binary _ left right => max left.depth right.depth
  | ifThen condition consequent => max condition.depth (consequent.depth + 1)
  | ifThenElse condition consequent alternative =>
    max condition.depth (max (consequent.depth + 1) (alternative.depth + 1))

end Reading

end LessonCalc.Formula
