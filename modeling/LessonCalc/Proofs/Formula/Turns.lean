import LessonCalc.Proofs.Formula.Clean

/-!
# Formulas whose marks take turns

A colon leaves a choice only if two question marks are open before it.  If at every level of parentheses
question marks and colons take turns, beginning with a question mark, there is no choice even where the
last question mark has no colon.

`takesTurns` tells whether the marks do so, and `IsFormula.eq_of_takesTurns` says that such a formula has
only one tree.
-/

namespace LessonCalc.Formula

/-- At every level of the tokens a question mark comes only if none is waiting for its colon.  `waiting`
tells this of the level the tokens start in, `outer` of those around it. -/
def takesTurns (waiting : Bool) (outer : List Bool) : List Token → Bool
  | [] => true
  | .openParen :: rest => takesTurns false (waiting :: outer) rest
  | .closeParen :: rest =>
    match outer with
    | [] => takesTurns false [] rest
    | enclosing :: outer => takesTurns enclosing outer rest
  | .question :: rest => !waiting && takesTurns true outer rest
  | .colon :: rest => takesTurns false outer rest
  | .number _ :: rest => takesTurns waiting outer rest
  | .name _ :: rest => takesTurns waiting outer rest
  | .operator _ :: rest => takesTurns waiting outer rest

/-- What the scan of a phrase tells.  Where marks take turns, a ternary behind a waiting question mark
has no mark of its own, and one that dangles leaves a question mark waiting. -/
structure TellsTurns (phrase : Phrase) (tokens : List Token) (tree : Tree) (dangles : Bool)
    (waiting : Bool) (outer : List Bool) (rest : List Token) : Prop where
  innermost : Derives (· = false) phrase tokens tree dangles
  alone : waiting = true → dangles = false
  behind : takesTurns (waiting || dangles) outer rest = true

/-- Every derivation of a phrase whose marks take turns is an innermost one. -/
theorem Derives.tellsTurns {Takes : Bool → Prop} {phrase : Phrase} {tokens : List Token} {tree : Tree}
    {dangles : Bool} (derives : Derives Takes phrase tokens tree dangles) (waiting : Bool)
    (outer : List Bool) (rest : List Token)
    (turns : takesTurns waiting outer (tokens ++ rest) = true) :
    TellsTurns phrase tokens tree dangles waiting outer rest := by
  induction derives generalizing waiting outer rest with
  | number => exact ⟨.number, fun _ => rfl, by simpa [takesTurns] using turns⟩
  | name => exact ⟨.name, fun _ => rfl, by simpa [takesTurns] using turns⟩
  | paren _ ih =>
      rw [List.cons_append, List.append_assoc, takesTurns] at turns
      obtain ⟨inner, _, behind⟩ := ih _ _ _ turns
      exact ⟨.paren inner, fun _ => rfl, by simpa [takesTurns] using behind⟩
  | atom _ ih =>
      obtain ⟨inner, alone, behind⟩ := ih _ _ _ turns
      exact ⟨.atom inner, alone, behind⟩
  | negate _ ih =>
      obtain ⟨inner, alone, behind⟩ := ih _ _ _ turns
      exact ⟨.negate inner, alone, behind⟩
  | operand _ ih =>
      obtain ⟨inner, alone, behind⟩ := ih _ _ _ turns
      exact ⟨.operand inner, alone, behind⟩
  | binary _ _ left right =>
      rw [List.append_assoc] at turns
      obtain ⟨first, _, behind⟩ := left _ _ _ turns
      rw [Bool.or_false] at behind
      obtain ⟨second, _, behind⟩ := right _ _ _ behind
      exact ⟨.binary first second, fun _ => rfl, behind⟩
  | condition _ ih =>
      obtain ⟨inner, alone, behind⟩ := ih _ _ _ turns
      exact ⟨.condition inner, alone, behind⟩
  | ifThen _ _ c t =>
      rw [List.append_assoc] at turns
      obtain ⟨condition, _, behind⟩ := c _ _ _ turns
      rw [Bool.or_false, List.cons_append, takesTurns, Bool.and_eq_true, Bool.not_eq_true'] at behind
      obtain ⟨rfl, behind⟩ := behind
      obtain ⟨consequent, _, behind⟩ := t _ _ _ behind
      exact ⟨.ifThen condition consequent, fun waits => absurd waits Bool.false_ne_true, behind⟩
  | ifThenElse _ _ _ _ c t e =>
      rw [List.append_assoc] at turns
      obtain ⟨condition, _, behind⟩ := c _ _ _ turns
      rw [Bool.or_false, List.cons_append, List.append_assoc, takesTurns, Bool.and_eq_true,
        Bool.not_eq_true'] at behind
      obtain ⟨rfl, behind⟩ := behind
      obtain ⟨consequent, alone, behind⟩ := t _ _ _ behind
      obtain ⟨alternative, _, behind⟩ := e _ _ _ behind
      exact ⟨.ifThenElse condition consequent (alone rfl) alternative,
        fun waits => absurd waits Bool.false_ne_true, behind⟩

/-- A formula whose marks take turns has only one tree. -/
theorem IsFormula.eq_of_takesTurns {tokens : List Token} {tree tree' : Tree}
    (formula : IsFormula tokens tree) (formula' : IsFormula tokens tree')
    (turns : takesTurns false [] tokens = true) : tree = tree' := by
  have innermost : ∀ {tree}, IsFormula tokens tree → IsInnermost tokens tree := by
    rintro tree ⟨dangles, derives⟩
    exact ⟨dangles, (derives.tellsTurns false [] [] (by rwa [List.append_nil])).innermost⟩
  obtain ⟨_, _, same⟩ := isInnermost_iff.mp (innermost formula)
  obtain ⟨_, _, same'⟩ := isInnermost_iff.mp (innermost formula')
  exact same.symm.trans same'

end LessonCalc.Formula
