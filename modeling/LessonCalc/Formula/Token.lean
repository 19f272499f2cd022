import LessonCalc.Number.Literal
import LessonCalc.Text.Blank

/-!
# Tokens of a formula

A formula is cut into *pieces*: tokens, each with the characters that spell it, and single
characters that belong to no token.  The pieces spell the formula, so nothing is read twice and
nothing is lost.  The scan never fails: white space and characters outside of the language are
pieces without a token.
-/

namespace LessonCalc.Formula

open LessonCalc.Number LessonCalc.Text

/-! ## Operators -/

/-- An infix operator. -/
inductive Operator where
  | gt
  | lt
  | ge
  | le
  | eq
  | ne
  | add
  | sub
  | mul
  | div
  | mod
  deriving Repr, DecidableEq

/-- How tightly an infix operator binds. -/
inductive Level where
  | comparison
  | additive
  | multiplicative
  deriving Repr, DecidableEq

/-- The level of an operator. -/
def Operator.level : Operator → Level
  | .gt | .lt | .ge | .le | .eq | .ne => .comparison
  | .add | .sub => .additive
  | .mul | .div | .mod => .multiplicative

/-- The spelling of an operator. -/
def Operator.text : Operator → String
  | .gt => ">"
  | .lt => "<"
  | .ge => ">="
  | .le => "<="
  | .eq => "=="
  | .ne => "!="
  | .add => "+"
  | .sub => "-"
  | .mul => "*"
  | .div => "/"
  | .mod => "%"

/-! ## Tokens -/

/-- A unit of a formula.  A number is a run of digits and points, whatever it spells. -/
inductive Token where
  | number (run : String)
  | name (text : String)
  | operator (op : Operator)
  | openParen
  | closeParen
  | question
  | colon
  deriving Repr, DecidableEq

/-- The spelling of a token. -/
def Token.text : Token → String
  | .number run => run
  | .name text => text
  | .operator op => op.text
  | .openParen => "("
  | .closeParen => ")"
  | .question => "?"
  | .colon => ":"

/-- The number that a run of digits and points stands for: the longest plain literal at its front,
and not a number if there is none. -/
def runValue (run : String) : Float :=
  match plain? run.toList with
  | some (l, _) => l.toFloat
  | none => 0.0 / 0.0

/-! ## Character classes -/

/-- A character that continues a number. -/
def isNumberChar (c : Char) : Bool :=
  isDigit c || c == '.'

/-- A character that starts a name. -/
def isNameStart (c : Char) : Bool :=
  ('a' ≤ c && c ≤ 'z') || ('A' ≤ c && c ≤ 'Z') || c == '_'

/-- A character that continues a name. -/
def isNameChar (c : Char) : Bool :=
  isNameStart c || isDigit c

/-- The operator that two characters spell. -/
def doubleOperator? : Char → Char → Option Operator
  | '>', '=' => some .ge
  | '<', '=' => some .le
  | '=', '=' => some .eq
  | '!', '=' => some .ne
  | _, _ => none

/-- The token that a single character spells. -/
def singleToken? : Char → Option Token
  | '+' => some (.operator .add)
  | '-' => some (.operator .sub)
  | '*' => some (.operator .mul)
  | '/' => some (.operator .div)
  | '%' => some (.operator .mod)
  | '>' => some (.operator .gt)
  | '<' => some (.operator .lt)
  | '(' => some .openParen
  | ')' => some .closeParen
  | '?' => some .question
  | ':' => some .colon
  | _ => none

/-! ## Pieces -/

/-- A token and its spelling, or a character that belongs to no token. -/
structure Piece where
  token : Option Token
  text : List Char
  deriving Repr, DecidableEq

/-- The operator of two characters at the front of a text, and what follows it. -/
def takeDouble? (c : Char) : List Char → Option (Operator × Char × List Char)
  | d :: rest => (doubleOperator? c d).map fun op => (op, d, rest)
  | [] => none

/-- The piece at the front of a text whose first character is `c`, and what follows it.  The longest
run makes a number or a name, and an operator of two characters goes before one of them alone. -/
def takePiece (c : Char) (rest : List Char) : Piece × List Char :=
  if isBlank c then (⟨none, [c]⟩, rest)
  else if isNumberChar c then
    let run := c :: rest.takeWhile isNumberChar
    (⟨some (.number (String.ofList run)), run⟩, rest.dropWhile isNumberChar)
  else if isNameStart c then
    let word := c :: rest.takeWhile isNameChar
    (⟨some (.name (String.ofList word)), word⟩, rest.dropWhile isNameChar)
  else
    match takeDouble? c rest with
    | some (op, d, left) => (⟨some (.operator op), [c, d]⟩, left)
    | none => (⟨singleToken? c, [c]⟩, rest)

theorem length_dropWhile_le {α : Type} (p : α → Bool) (l : List α) :
    (l.dropWhile p).length ≤ l.length := by
  induction l with
  | nil => simp
  | cons a l ih =>
    simp only [List.dropWhile_cons]
    split
    · exact Nat.le_succ_of_le ih
    · exact Nat.le_refl _

theorem takeDouble?_eq_some {c : Char} {rest : List Char} {op : Operator} {d : Char}
    {left : List Char} (h : takeDouble? c rest = some (op, d, left)) : rest = d :: left := by
  cases rest with
  | nil => simp [takeDouble?] at h
  | cons e rest =>
    simp only [takeDouble?, Option.map_eq_some_iff, Prod.mk.injEq] at h
    obtain ⟨_, _, _, rfl, rfl⟩ := h
    rfl

/-- A piece and what follows it spell the text they were taken from. -/
theorem takePiece_text (c : Char) (rest : List Char) :
    (takePiece c rest).1.text ++ (takePiece c rest).2 = c :: rest := by
  unfold takePiece
  split
  · rfl
  · split
    · simp
    · split
      · simp
      · split
        · rename_i op d left h
          simp [takeDouble?_eq_some h]
        · rfl

/-- Taking a piece leaves no more than what followed its first character. -/
theorem takePiece_length (c : Char) (rest : List Char) :
    (takePiece c rest).2.length ≤ rest.length := by
  unfold takePiece
  split
  · exact Nat.le_refl _
  · split
    · exact length_dropWhile_le _ _
    · split
      · exact length_dropWhile_le _ _
      · split
        · rename_i op d left h
          simp [takeDouble?_eq_some h]
        · exact Nat.le_refl _

/-- The pieces of a text, in order. -/
def pieces : List Char → List Piece
  | [] => []
  | c :: rest => (takePiece c rest).1 :: pieces (takePiece c rest).2
termination_by cs => cs.length
decreasing_by exact Nat.lt_succ_of_le (takePiece_length c rest)

/-- The pieces of a text spell it. -/
theorem flatMap_text_pieces (cs : List Char) : (pieces cs).flatMap Piece.text = cs := by
  induction cs using pieces.induct with
  | case1 => simp [pieces]
  | case2 c rest ih => rw [pieces, List.flatMap_cons, ih, takePiece_text]

/-- The tokens of a text, in order. -/
def tokensOf (cs : List Char) : List Token :=
  (pieces cs).filterMap Piece.token

/-- The tokens of a formula, in order. -/
def tokenize (formula : String) : List Token :=
  tokensOf formula.toList

end LessonCalc.Formula
