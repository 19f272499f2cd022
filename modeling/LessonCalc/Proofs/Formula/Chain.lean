import LessonCalc.Formula.Chain
import LessonCalc.Proofs.Formula.Grammar

/-!
# The tree of a chain is a derivation

The strict reader takes a whole chain of operands, question marks and colons at once and only then
decides which colon belongs to which question mark.  This module shows that its decision, `outermost`,
is one that the grammar allows.

A chain can be read if every colon finds a question mark that is open before it, which is to say that
`unclaimedColon?` finds nothing.  `ownColon?_cases` cuts such a chain at the colon of its first question
mark into two chains that can be read again, and `Spelled.derives_outermost` puts the derivation
together along these cuts.
-/

namespace LessonCalc.Formula

/-! ## Cutting a chain at a colon -/

/-- The first unclaimed colon cuts a chain into a part without one and, if one more question mark were
open, another. -/
theorem unclaimedColon?_eq_some {opened position : Nat} {links : Links}
    (found : unclaimedColon? opened links = some position) :
    ∃ before e after, links = before ++ (.colon, e) :: after ∧ before.length = position ∧
      unclaimedColon? opened before = none ∧
      (unclaimedColon? (opened + 1) links = none → unclaimedColon? 0 after = none) := by
  induction links generalizing opened position with
  | nil => cases found
  | cons link rest ih =>
      obtain ⟨mark, operand⟩ := link
      cases mark with
      | question =>
          simp only [unclaimedColon?, Option.map_eq_some_iff] at found
          obtain ⟨position, found, rfl⟩ := found
          obtain ⟨before, e, after, rfl, rfl, front, back⟩ := ih found
          refine ⟨(.question, operand) :: before, e, after, rfl, rfl, ?_, fun more => ?_⟩
          · simp [unclaimedColon?, front]
          · exact back (by simpa [unclaimedColon?] using more)
      | colon =>
          cases opened with
          | zero =>
              cases found
              exact ⟨[], operand, rest, rfl, rfl, rfl, fun more => by
                simpa [unclaimedColon?] using more⟩
          | succ opened =>
              simp only [unclaimedColon?, Option.map_eq_some_iff] at found
              obtain ⟨position, found, rfl⟩ := found
              obtain ⟨before, e, after, rfl, rfl, front, back⟩ := ih found
              refine ⟨(.colon, operand) :: before, e, after, rfl, rfl, ?_, fun more => ?_⟩
              · simp [unclaimedColon?, front]
              · exact back (by simpa [unclaimedColon?] using more)

/-- The last colon cuts a chain before a part without colons. -/
theorem lastColon?_eq_some {position : Nat} {links : Links}
    (found : lastColon? links = some position) :
    ∃ before e after, links = before ++ (.colon, e) :: after ∧ before.length = position ∧
      lastColon? after = none := by
  induction links generalizing position with
  | nil => cases found
  | cons link rest ih =>
      obtain ⟨mark, operand⟩ := link
      simp only [lastColon?] at found
      cases last : lastColon? rest with
      | some position' =>
          rw [last] at found
          cases found
          obtain ⟨before, e, after, rfl, rfl, noColon⟩ := ih last
          exact ⟨(mark, operand) :: before, e, after, rfl, rfl, noColon⟩
      | none =>
          rw [last] at found
          cases mark with
          | question => cases found
          | colon =>
              cases found
              exact ⟨[], operand, rest, rfl, rfl, last⟩

/-- Without a colon no colon is unclaimed. -/
theorem unclaimedColon?_of_lastColon? {links : Links} (noColon : lastColon? links = none)
    (opened : Nat) : unclaimedColon? opened links = none := by
  induction links generalizing opened with
  | nil => rfl
  | cons link rest ih =>
      obtain ⟨mark, operand⟩ := link
      simp only [lastColon?] at noColon
      cases last : lastColon? rest with
      | some _ => rw [last] at noColon; cases noColon
      | none =>
          rw [last] at noColon
          cases mark with
          | question => simp [unclaimedColon?, ih last]
          | colon => cases noColon

/-- The front of a chain without an unclaimed colon has none. -/
theorem unclaimedColon?_of_append {before after : Links} {opened : Nat}
    (claimed : unclaimedColon? opened (before ++ after) = none) :
    unclaimedColon? opened before = none := by
  induction before generalizing opened with
  | nil => rfl
  | cons link rest ih =>
      obtain ⟨mark, operand⟩ := link
      cases mark with
      | question =>
          simp only [List.cons_append, unclaimedColon?, Option.map_eq_none_iff] at claimed ⊢
          exact ih claimed
      | colon =>
          cases opened with
          | zero => cases claimed
          | succ opened =>
              simp only [List.cons_append, unclaimedColon?, Option.map_eq_none_iff] at claimed ⊢
              exact ih claimed

/-- What follows a question mark of a chain either has no unclaimed colon and is its consequent, or is
cut by the colon of the question mark into two parts without one. -/
theorem ownColon?_cases {links : Links} (claimed : unclaimedColon? 1 links = none) :
    (ownColon? links = none ∧ unclaimedColon? 0 links = none) ∨
      ∃ before e after, links = before ++ (.colon, e) :: after ∧
        ownColon? links = some before.length ∧
        unclaimedColon? 0 before = none ∧ unclaimedColon? 0 after = none := by
  cases first : unclaimedColon? 0 links with
  | some position =>
      obtain ⟨before, e, after, split, rfl, front, back⟩ := unclaimedColon?_eq_some first
      exact .inr ⟨before, e, after, split, by simp [ownColon?, first], front, back claimed⟩
  | none =>
      cases last : lastColon? links with
      | none => exact .inl ⟨by simp [ownColon?, first, last], rfl⟩
      | some position =>
          obtain ⟨before, e, after, split, rfl, noColon⟩ := lastColon?_eq_some last
          refine .inr ⟨before, e, after, split, by simp [ownColon?, first, last], ?_, ?_⟩
          · rw [split] at first
            exact unclaimedColon?_of_append first
          · exact unclaimedColon?_of_lastColon? noColon 0

/-! ## Chains of tokens -/

/-- The token of a mark. -/
def Mark.token : Mark → Token
  | .question => .question
  | .colon => .colon

/-- The tokens spell a chain, the operands of which they derive. -/
inductive Spelled : List Token → Links → Prop
  | nil : Spelled [] []
  | cons {mark cs c tokens links} :
      Derives (fun _ => True) (.level .comparison) cs c false →
      Spelled tokens links →
      Spelled (mark.token :: (cs ++ tokens)) ((mark, c) :: links)

/-- A chain that is cut at a mark is spelled by tokens that are cut there. -/
theorem Spelled.cut {before after : Links} {mark : Mark} {e : Tree} {tokens : List Token}
    (spelled : Spelled tokens (before ++ (mark, e) :: after)) :
    ∃ front es back, tokens = front ++ mark.token :: (es ++ back) ∧ Spelled front before ∧
      Derives (fun _ => True) (.level .comparison) es e false ∧ Spelled back after := by
  induction before generalizing tokens with
  | nil =>
      cases spelled with
      | cons operand rest => exact ⟨[], _, _, rfl, .nil, operand, rest⟩
  | cons link before ih =>
      cases spelled with
      | @cons mark' cs _ _ _ operand rest =>
          obtain ⟨front, es, back, rfl, spelled, operand', rest'⟩ := ih rest
          exact ⟨mark'.token :: (cs ++ front), es, back, by simp, .cons operand spelled, operand',
            rest'⟩

/-- The grammar allows the tree that the strict reader makes of a chain. -/
theorem Spelled.derives_outermost {bound : Nat} {cs : List Token} {first : Tree}
    {tokens : List Token} {links : Links}
    (operand : Derives (fun _ => True) (.level .comparison) cs first false)
    (spelled : Spelled tokens links) (claimed : unclaimedColon? 0 links = none)
    (short : links.length ≤ bound) :
    ∃ dangles,
      Derives (fun _ => True) .ternary (cs ++ tokens) (outermostWithin bound first links) dangles := by
  induction bound generalizing cs first tokens links with
  | zero =>
      cases List.eq_nil_of_length_eq_zero (Nat.le_zero.mp short)
      cases spelled
      exact ⟨false, by simpa [outermostWithin] using Derives.condition operand⟩
  | succ bound ih =>
      cases spelled with
      | nil => exact ⟨false, by simpa [outermostWithin] using Derives.condition operand⟩
      | @cons mark ts consequent rest links operand' spelled =>
          cases mark with
          | colon => cases claimed
          | question =>
              simp only [unclaimedColon?, Option.map_eq_none_iff] at claimed
              simp only [List.length_cons, Nat.add_le_add_iff_right] at short
              rcases ownColon?_cases claimed with
                ⟨own, claimed⟩ | ⟨before, e, after, rfl, own, claimed, claimed'⟩
              · obtain ⟨dangles, derives⟩ := ih operand' spelled claimed short
                simp only [outermostWithin, own]
                exact ⟨true, .ifThen operand derives⟩
              · obtain ⟨front, es, back, rfl, spelled, last, spelled'⟩ := spelled.cut
                simp only [List.length_append, List.length_cons] at short
                obtain ⟨dangles, derives⟩ := ih operand' spelled claimed (by omega)
                obtain ⟨dangles', derives'⟩ := ih last spelled' claimed' (by omega)
                simp only [outermostWithin, own, List.drop_left, List.take_left]
                refine ⟨dangles', ?_⟩
                have whole := Derives.ifThenElse operand derives trivial derives'
                simpa [Mark.token] using whole

end LessonCalc.Formula
