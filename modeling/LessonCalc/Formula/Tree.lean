import LessonCalc.Formula.Evaluate
import LessonCalc.Text.Order

/-!
# Trees of checked formulas

The tree of a formula that the strict grammar accepts.  Parentheses leave no trace in it.
-/

namespace LessonCalc.Formula

/-- The structure of a checked formula. -/
inductive Tree where
  | number (text : String)
  | name (text : String)
  | negate (operand : Tree)
  | binary (op : Operator) (left right : Tree)
  | ifThen (condition consequent : Tree)
  | ifThenElse (condition consequent alternative : Tree)
  deriving Repr, DecidableEq, Inhabited

namespace Tree

/-- The names in a tree, from left to right. -/
def names : Tree → List String
  | number _ => []
  | name text => [text]
  | negate operand => operand.names
  | binary _ left right => left.names ++ right.names
  | ifThen condition consequent => condition.names ++ consequent.names
  | ifThenElse condition consequent alternative =>
    condition.names ++ (consequent.names ++ alternative.names)

/-- The value of a tree, given the values of names; a missing alternative is zero. -/
def value (env : String → Float) : Tree → Float
  | number text => runValue text
  | name text => env text
  | negate operand => -operand.value env
  | binary op left right => op.apply (left.value env) (right.value env)
  | ifThen condition consequent =>
    if isTrue (condition.value env) then consequent.value env else 0.0
  | ifThenElse condition consequent alternative =>
    if isTrue (condition.value env) then consequent.value env else alternative.value env

end Tree

/-- The distinct names of a list in increasing order. -/
def sortedNames (names : List String) : List String :=
  Text.sortTexts names.eraseDups

/-- The distinct names that a tree refers to, in increasing order. -/
def Tree.refs (tree : Tree) : List String :=
  sortedNames tree.names

end LessonCalc.Formula
