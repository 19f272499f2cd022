import LessonCalc.Formula.Tree

/-!
# Conditions that share their marks

Between two parentheses a formula is a *chain*: operands joined by question marks and colons, such
as `a ? b ? c : d`.  Which question mark a colon belongs to is not decided by the chain itself, so a
chain can stand for several trees.

`outermost` lets the first question mark have a colon whenever that leaves every other colon with a
question mark of its own.  Of the colons it could have, only one is without rival if some colon has
no other open question mark to its left; otherwise it is the last one.
-/

namespace LessonCalc.Formula

/-- What joins the operands of a chain. -/
inductive Mark where
  | question
  | colon
  deriving Repr, DecidableEq

/-- The marks of a chain, each with the operand after it. -/
abbrev Links := List (Mark × Tree)

/-- The position of the first colon that finds none of the question marks before it open, when
`opened` of them are open at the front. -/
def unclaimedColon? : Nat → Links → Option Nat
  | _, [] => none
  | opened, (.question, _) :: rest => (unclaimedColon? (opened + 1) rest).map (· + 1)
  | 0, (.colon, _) :: _ => some 0
  | opened + 1, (.colon, _) :: rest => (unclaimedColon? opened rest).map (· + 1)

/-- The position of the last colon. -/
def lastColon? : Links → Option Nat
  | [] => none
  | (mark, _) :: rest =>
    match lastColon? rest with
    | some position => some (position + 1)
    | none => if mark = .colon then some 0 else none

/-- The position, among the links after a question mark, of the colon that it takes. -/
def ownColon? (links : Links) : Option Nat :=
  (unclaimedColon? 0 links).or (lastColon? links)

/-- The tree of a chain in which every colon belongs to the outermost question mark it can belong
to.  The first argument bounds the number of links. -/
def outermostWithin : Nat → Tree → Links → Tree
  | 0, first, _ => first
  | _ + 1, first, [] => first
  | _ + 1, first, (.colon, _) :: _ => first
  | bound + 1, first, (.question, consequent) :: rest =>
    match ownColon? rest with
    | none => .ifThen first (outermostWithin bound consequent rest)
    | some position =>
      match rest.drop position with
      | [] => .ifThen first (outermostWithin bound consequent rest)
      | (_, alternative) :: after =>
        .ifThenElse first (outermostWithin bound consequent (rest.take position))
          (outermostWithin bound alternative after)

/-- The tree of a chain in which every colon belongs to the outermost question mark it can belong
to. -/
def outermost (first : Tree) (links : Links) : Tree :=
  outermostWithin links.length first links

end LessonCalc.Formula
