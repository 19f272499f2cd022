import LessonCalc.Proofs.Formula.Grammar
import Mathlib.Data.List.Chain

/-!
# Neighbours in formulas

Which tokens can stand next to each other in a formula.  Two words never do, since between two operands
there is always a mark, and no operator comes before an equals sign, since operators are followed by an
operand or a minus sign.

* `Token.Splits`: two neighbours that need no layout between them.
* `Derives.separated`: in a phrase all neighbours are so.
-/

namespace LessonCalc.Formula

/-- The token is a number or a name. -/
def Token.isWord : Token → Bool
  | .number _ | .name _ => true
  | _ => false

/-- The token is an operator. -/
def Token.isOperator : Token → Bool
  | .operator _ => true
  | _ => false

/-- Two neighbours that need no layout between them: they are not both words, and if the first is an
operator the second does not start with an equals sign. -/
structure Token.Splits (first second : Token) : Prop where
  word : first.isWord = true → second.isWord = false
  operator : first.isOperator = true → second ≠ .operator .eq

/-- Neighbours in these tokens need no layout between them, and what stands at either end needs none
before or behind a mark. -/
structure Separated (tokens : List Token) : Prop where
  nonempty : tokens ≠ []
  splits : tokens.IsChain Token.Splits
  first : tokens.head? ≠ some (.operator .eq)
  last : ∀ token, tokens.getLast? = some token → token.isOperator = false

namespace Separated

variable {tokens front back : List Token} {mark : Token}

theorem word {token : Token} (isWord : token.isWord = true) : Separated [token] := by
  refine ⟨List.cons_ne_nil _ _, .singleton _, ?_, ?_⟩
  · rintro ⟨⟩
    cases isWord
  · intro last same
    cases same
    cases token <;> first | rfl | cases isWord

/-- Before tokens that do not start with an equals sign any mark can stand. -/
theorem isChain_cons (noWord : mark.isWord = false) (first : back.head? ≠ some (.operator .eq))
    (splits : back.IsChain Token.Splits) : (mark :: back).IsChain Token.Splits := by
  refine List.isChain_cons.mpr ⟨fun second next => ⟨fun isWord => ?_, fun _ same => ?_⟩, splits⟩
  · rw [noWord] at isWord
    cases isWord
  · exact first (same ▸ next)

/-- Behind tokens that do not end in an operator any mark can stand. -/
theorem isChain_append (separated : Separated front) (noWord : mark.isWord = false)
    (splits : (mark :: back).IsChain Token.Splits) :
    (front ++ mark :: back).IsChain Token.Splits := by
  refine List.isChain_append.mpr ⟨separated.splits, splits, fun token last second next => ?_⟩
  cases next
  refine ⟨fun _ => noWord, fun isOperator => ?_⟩
  rw [separated.last token last] at isOperator
  cases isOperator

theorem head?_append (separated : Separated front) :
    (front ++ back).head? ≠ some (.operator .eq) := by
  obtain ⟨token, rest, rfl⟩ := List.exists_cons_of_ne_nil separated.nonempty
  exact separated.first

/-- A mark between tokens. -/
theorem join (separated : Separated front) (noWord : mark.isWord = false)
    (separated' : Separated back) : Separated (front ++ mark :: back) where
  nonempty := List.append_ne_nil_of_left_ne_nil separated.nonempty _
  splits := separated.isChain_append noWord
    (isChain_cons noWord separated'.first separated'.splits)
  first := separated.head?_append
  last token last := by
    rw [List.getLast?_append_cons, List.getLast?_cons_of_ne_nil separated'.nonempty] at last
    exact separated'.last token last

/-- Tokens in parentheses. -/
theorem paren (separated : Separated front) :
    Separated (.openParen :: (front ++ [.closeParen])) where
  nonempty := List.cons_ne_nil _ _
  splits := isChain_cons rfl separated.head?_append
    (separated.isChain_append rfl (.singleton _))
  first := by simp
  last token last := by
    rw [← List.cons_append, List.getLast?_concat] at last
    cases last
    rfl

/-- A minus sign before tokens. -/
theorem negate (separated : Separated back) : Separated (.operator .sub :: back) where
  nonempty := List.cons_ne_nil _ _
  splits := isChain_cons rfl separated.first separated.splits
  first := by simp
  last token last := by
    rw [List.getLast?_cons_of_ne_nil separated.nonempty] at last
    exact separated.last token last

end Separated

/-- Neighbours in a phrase need no layout between them. -/
theorem Derives.separated {Takes : Bool → Prop} {phrase : Phrase} {tokens : List Token} {tree : Tree}
    {dangles : Bool} (derives : Derives Takes phrase tokens tree dangles) : Separated tokens := by
  induction derives with
  | number => exact .word rfl
  | name => exact .word rfl
  | paren _ ih => exact ih.paren
  | atom _ ih => exact ih
  | negate _ ih => exact ih.negate
  | operand _ ih => exact ih
  | binary _ _ left right => exact left.join rfl right
  | condition _ ih => exact ih
  | ifThen _ _ c t => exact c.join rfl t
  | ifThenElse _ _ _ _ c t e => exact c.join rfl (t.join rfl e)

end LessonCalc.Formula
