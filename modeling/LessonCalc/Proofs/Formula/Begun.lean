import LessonCalc.Proofs.Formula.Strict

/-!
# Formulas that have begun

Tokens can be followed from the left without building a tree of them.  All that matters of the tokens so
far is what can come next and how many question marks are still open, in the innermost parenthesis and in
each one around it: the `Standing` of a formula that has begun.

* `Standing.step?`: the standing one token further, if the token can come next.
* `Derives.follows`: every formula can be followed to its end.
* `Standing.exists_follows`: from every standing a formula can still be completed.
-/

namespace LessonCalc.Formula

/-! ## Standings -/

/-- What can come next in a formula: an operand, an operand without a minus sign, or a mark behind an
operand. -/
inductive Turn where
  | operand
  | atom
  | mark
  deriving DecidableEq

/-- Where a formula stands that has begun: what can come next, how many question marks are open in the
innermost parenthesis, and how many are in those around it, from the inside out. -/
structure Standing where
  turn : Turn
  questions : Nat
  outer : List Nat
  deriving DecidableEq

namespace Standing

/-- Where every formula starts. -/
def start : Standing := ⟨.operand, 0, []⟩

/-- The standing behind an operand. -/
def behind (s : Standing) : Standing :=
  { s with turn := .mark }

/-- A formula can end here: an operand has ended and every parenthesis is closed. -/
def Finished (s : Standing) : Prop :=
  s.turn = .mark ∧ s.outer = []

/-- The standing one token further, if the token can come next.  A colon takes a question mark that is
open in the same parenthesis. -/
def step? (s : Standing) (token : Token) : Option Standing :=
  match s.turn, token with
  | .mark, .operator _ => some { s with turn := .operand }
  | .mark, .question => some ⟨.operand, s.questions + 1, s.outer⟩
  | .mark, .colon =>
    match s.questions with
    | 0 => none
    | questions + 1 => some ⟨.operand, questions, s.outer⟩
  | .mark, .closeParen =>
    match s.outer with
    | [] => none
    | questions :: outer => some ⟨.mark, questions, outer⟩
  | .mark, _ => none
  | _, .number _ | _, .name _ => some s.behind
  | _, .openParen => some ⟨.operand, 0, s.questions :: s.outer⟩
  | .operand, .operator .sub => some { s with turn := .atom }
  | _, _ => none

/-- Following these tokens leads from one standing to another. -/
def Follows (s : Standing) (tokens : List Token) (s' : Standing) : Prop :=
  tokens.foldlM step? s = some s'

variable {s s' s'' : Standing} {token : Token} {front back : List Token}

theorem Follows.refl (s : Standing) : s.Follows [] s :=
  rfl

theorem follows_nil_iff : s.Follows [] s' ↔ s = s' :=
  Option.some_inj

theorem follows_cons_iff :
    s.Follows (token :: back) s'' ↔ ∃ s', s.step? token = some s' ∧ s'.Follows back s'' := by
  unfold Follows
  rw [List.foldlM_cons]
  exact Option.bind_eq_some_iff

theorem follows_append_iff :
    s.Follows (front ++ back) s'' ↔ ∃ s', s.Follows front s' ∧ s'.Follows back s'' := by
  unfold Follows
  rw [List.foldlM_append]
  exact Option.bind_eq_some_iff

theorem Follows.cons (step : s.step? token = some s') (follows : s'.Follows back s'') :
    s.Follows (token :: back) s'' :=
  follows_cons_iff.mpr ⟨s', step, follows⟩

theorem Follows.append (first : s.Follows front s') (second : s'.Follows back s'') :
    s.Follows (front ++ back) s'' :=
  follows_append_iff.mpr ⟨s', first, second⟩

theorem Follows.unique (first : s.Follows front s') (second : s.Follows front s'') : s' = s'' :=
  Option.some_inj.mp (first.symm.trans second)

end Standing

/-- A token without what tells it from others of its kind. -/
def Token.kind : Token → Token
  | .number _ => .number ""
  | .name _ => .name ""
  | mark => mark

/-- The phrases that can come next: behind a minus sign only an atom, and behind an operand none. -/
def Turn.Admits : Turn → Phrase → Prop
  | .operand, _ => True
  | .atom, phrase => phrase = .atom
  | .mark, _ => False

theorem Turn.Admits.eq_operand {turn : Turn} {phrase : Phrase} (admits : turn.Admits phrase)
    (other : phrase ≠ .atom) : turn = .operand := by
  cases turn with
  | operand => rfl
  | atom => exact absurd admits other
  | mark => exact admits.elim

section Steps

variable {turn : Turn} {questions : Nat} {outer : List Nat}

namespace Standing

/-- What can come next is told by the kinds of tokens. -/
theorem step?_kind (s : Standing) (token : Token) : s.step? token.kind = s.step? token := by
  obtain ⟨turn, questions, outer⟩ := s
  cases turn <;> cases token <;> rfl

theorem step?_number (admits : turn.Admits .atom) (run : String) :
    step? ⟨turn, questions, outer⟩ (.number run) = some ⟨.mark, questions, outer⟩ := by
  cases turn with
  | mark => exact admits.elim
  | _ => rfl

theorem step?_name (admits : turn.Admits .atom) (text : String) :
    step? ⟨turn, questions, outer⟩ (.name text) = some ⟨.mark, questions, outer⟩ := by
  cases turn with
  | mark => exact admits.elim
  | _ => rfl

theorem step?_openParen (admits : turn.Admits .atom) :
    step? ⟨turn, questions, outer⟩ .openParen = some ⟨.operand, 0, questions :: outer⟩ := by
  cases turn with
  | mark => exact admits.elim
  | _ => rfl

end Standing

end Steps

/-! ## Formulas can be followed -/

open Standing

/-- A phrase can be followed wherever it can come next.  It leaves what is around it alone, and only a
ternary opens question marks that it does not close. -/
theorem Derives.follows {Takes : Bool → Prop} {phrase : Phrase} {tokens : List Token} {tree : Tree}
    {dangles : Bool} (derives : Derives Takes phrase tokens tree dangles) :
    ∀ turn questions outer, turn.Admits phrase → ∃ opened, (phrase ≠ .ternary → opened = 0) ∧
      Follows ⟨turn, questions, outer⟩ tokens ⟨.mark, questions + opened, outer⟩ := by
  induction derives with
  | number =>
      intro turn questions outer admits
      exact ⟨0, fun _ => rfl, .cons (step?_number admits _) (.refl _)⟩
  | name =>
      intro turn questions outer admits
      exact ⟨0, fun _ => rfl, .cons (step?_name admits _) (.refl _)⟩
  | paren _ ih =>
      intro turn questions outer admits
      obtain ⟨opened, _, inner⟩ := ih .operand 0 (questions :: outer) trivial
      exact ⟨0, fun _ => rfl, .cons (step?_openParen admits) (inner.append (.cons rfl (.refl _)))⟩
  | atom _ ih =>
      intro turn questions outer admits
      cases admits.eq_operand (by decide)
      obtain ⟨opened, none, atom⟩ := ih .operand questions outer trivial
      exact ⟨opened, fun _ => none (by decide), atom⟩
  | negate _ ih =>
      intro turn questions outer admits
      cases admits.eq_operand (by decide)
      obtain ⟨opened, none, atom⟩ := ih .atom questions outer rfl
      exact ⟨opened, fun _ => none (by decide), .cons rfl atom⟩
  | @operand l _ _ _ ih =>
      intro turn questions outer admits
      cases admits.eq_operand (by simp)
      obtain ⟨opened, none, operand⟩ := ih .operand questions outer trivial
      exact ⟨opened, fun _ => none l.operand_ne_ternary, operand⟩
  | @binary op _ _ _ _ _ _ left right =>
      intro turn questions outer admits
      cases admits.eq_operand (by simp)
      obtain ⟨opened, none, first⟩ := left .operand questions outer trivial
      cases none (by simp)
      obtain ⟨opened', none', second⟩ := right .operand questions outer trivial
      exact ⟨opened', fun _ => none' op.level.operand_ne_ternary, first.append (.cons rfl second)⟩
  | condition _ ih =>
      intro turn questions outer admits
      cases admits.eq_operand (by decide)
      obtain ⟨opened, _, comparison⟩ := ih .operand questions outer trivial
      exact ⟨opened, fun other => absurd rfl other, comparison⟩
  | ifThen _ _ c t =>
      intro turn questions outer admits
      cases admits.eq_operand (by decide)
      obtain ⟨opened, none, condition⟩ := c .operand questions outer trivial
      cases none (by decide)
      obtain ⟨opened', _, consequent⟩ := t .operand (questions + 1) outer trivial
      rw [Nat.add_assoc] at consequent
      exact ⟨1 + opened', fun other => absurd rfl other, condition.append (.cons rfl consequent)⟩
  | ifThenElse _ _ _ _ c t e =>
      intro turn questions outer admits
      cases admits.eq_operand (by decide)
      obtain ⟨opened, none, condition⟩ := c .operand questions outer trivial
      cases none (by decide)
      obtain ⟨opened', _, consequent⟩ := t .operand (questions + 1) outer trivial
      obtain ⟨opened'', _, alternative⟩ := e .operand (questions + opened') outer trivial
      -- The colon takes the question mark of this condition or one that the consequent left open.
      rw [Nat.add_right_comm] at consequent
      rw [Nat.add_assoc] at alternative
      exact ⟨opened' + opened'', fun other => absurd rfl other,
        condition.append (.cons rfl (consequent.append (.cons rfl alternative)))⟩

/-- A formula can be followed to its end. -/
theorem IsFormula.exists_follows {tokens : List Token} {tree : Tree} (formula : IsFormula tokens tree) :
    ∃ s, start.Follows tokens s ∧ s.Finished := by
  obtain ⟨_, derives⟩ := formula
  obtain ⟨_, _, follows⟩ := derives.follows .operand 0 [] trivial
  exact ⟨_, follows, rfl, rfl⟩

/-! ## Formulas can be completed -/

/-- Behind an operand, closing every parenthesis completes a formula. -/
theorem Standing.exists_follows_closing (outer : List Nat) (questions : Nat) :
    ∃ s, Follows ⟨.mark, questions, outer⟩ (List.replicate outer.length .closeParen) s ∧
      s.Finished := by
  induction outer generalizing questions with
  | nil => exact ⟨_, .refl _, rfl, rfl⟩
  | cons questions' outer ih =>
      obtain ⟨s, follows, finished⟩ := ih questions'
      exact ⟨s, .cons rfl follows, finished⟩

/-- From every standing there is a way to the end of a formula, with a name and closing parentheses. -/
theorem Standing.exists_follows (s : Standing) :
    ∃ tokens s', (∀ token ∈ tokens, token = .name "x" ∨ token = .closeParen) ∧
      s.Follows tokens s' ∧ s'.Finished := by
  obtain ⟨turn, questions, outer⟩ := s
  obtain ⟨s', follows, finished⟩ := exists_follows_closing outer questions
  have closing : ∀ token ∈ List.replicate outer.length Token.closeParen,
      token = .name "x" ∨ token = .closeParen :=
    fun token member => .inr (List.eq_of_mem_replicate member)
  have named : ∀ token ∈ Token.name "x" :: List.replicate outer.length .closeParen,
      token = .name "x" ∨ token = .closeParen :=
    List.forall_mem_cons.mpr ⟨.inl rfl, closing⟩
  cases turn with
  | operand => exact ⟨_, s', named, .cons rfl follows, finished⟩
  | atom => exact ⟨_, s', named, .cons rfl follows, finished⟩
  | mark => exact ⟨_, s', closing, follows, finished⟩

end LessonCalc.Formula
