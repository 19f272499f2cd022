import LessonCalc.Proofs.Formula.Grammar

/-!
# Formulas whose colons leave no choice

A formula can have several trees, since a colon can often go to more than one question mark.  It has
one only if at every level of parentheses all question marks have a colon or none has.

`levels` counts the marks at each level.  `IsFormula.isInnermost` says that every tree of a formula
with even levels is the innermost one.
-/

namespace LessonCalc.Formula

/-- How many question marks and colons stand at a level of parentheses. -/
structure Marks where
  questions : Nat
  colons : Nat
  deriving Repr, DecidableEq

namespace Marks

/-- A level without marks. -/
def none : Marks := ⟨0, 0⟩

/-- The marks of two parts of a level. -/
def add (first second : Marks) : Marks :=
  ⟨first.questions + second.questions, first.colons + second.colons⟩

/-- A level has as many colons as question marks, or no colon. -/
def IsEven (marks : Marks) : Prop :=
  marks.colons = marks.questions ∨ marks.colons = 0

instance (marks : Marks) : Decidable marks.IsEven :=
  inferInstanceAs (Decidable (_ ∨ _))

theorem add_none (marks : Marks) : marks.add none = marks := rfl

theorem none_add (marks : Marks) : none.add marks = marks := by
  simp [add, none]

theorem add_assoc (first second third : Marks) :
    (first.add second).add third = first.add (second.add third) := by
  simp [add, Nat.add_assoc]

end Marks

/-- The marks of the levels that end in the tokens, if `current` has been counted of the level they
start in and `outer` of those around it. -/
def levelsFrom (current : Marks) (outer : List Marks) : List Token → List Marks
  | [] => current :: outer
  | .openParen :: rest => levelsFrom .none (current :: outer) rest
  | .closeParen :: rest =>
    match outer with
    | [] => current :: levelsFrom .none [] rest
    | enclosing :: outer => current :: levelsFrom enclosing outer rest
  | .question :: rest => levelsFrom (current.add ⟨1, 0⟩) outer rest
  | .colon :: rest => levelsFrom (current.add ⟨0, 1⟩) outer rest
  | .number _ :: rest => levelsFrom current outer rest
  | .name _ :: rest => levelsFrom current outer rest
  | .operator _ :: rest => levelsFrom current outer rest

/-- The marks of each level of parentheses, in the order in which the levels end. -/
def levels (tokens : List Token) : List Marks :=
  levelsFrom .none [] tokens

/-- The tokens add `own` to the level they stand in and end the levels `inner`. -/
def Adds (tokens : List Token) (own : Marks) (inner : List Marks) : Prop :=
  ∀ current outer rest,
    levelsFrom current outer (tokens ++ rest) = inner ++ levelsFrom (current.add own) outer rest

namespace Adds

variable {tokens tokens' : List Token} {own own' : Marks} {inner inner' : List Marks}

theorem append (first : Adds tokens own inner) (second : Adds tokens' own' inner') :
    Adds (tokens ++ tokens') (own.add own') (inner ++ inner') := by
  intro current outer rest
  rw [List.append_assoc, first, second, Marks.add_assoc, List.append_assoc]

theorem paren (inside : Adds tokens own inner) :
    Adds (.openParen :: (tokens ++ [.closeParen])) .none (inner ++ [own]) := by
  intro current outer rest
  rw [List.cons_append, List.append_assoc, levelsFrom, inside, Marks.none_add]
  simp [levelsFrom, Marks.add_none]

theorem question : Adds [.question] ⟨1, 0⟩ [] :=
  fun _ _ _ => rfl

theorem colon : Adds [.colon] ⟨0, 1⟩ [] :=
  fun _ _ _ => rfl

theorem operator {op : Operator} : Adds [.operator op] .none [] :=
  fun _ _ _ => rfl

theorem levels_eq (whole : Adds tokens own inner) : levels tokens = inner ++ [own] := by
  have counted := whole .none [] []
  rw [List.append_nil, Marks.none_add] at counted
  exact counted

end Adds

/-- What the marks of a phrase tell.  No more colons than question marks stand at its own level, and
fewer if it dangles; and if all levels are even, its derivation is an innermost one. -/
structure Tells (phrase : Phrase) (tokens : List Token) (tree : Tree) (dangles : Bool) (own : Marks)
    (inner : List Marks) : Prop where
  adds : Adds tokens own inner
  inside : phrase ≠ .ternary → own = .none
  claimed : own.colons ≤ own.questions
  opened : dangles = true → own.colons < own.questions
  innermost : (∀ marks ∈ inner, marks.IsEven) → own.IsEven →
    Derives (· = false) phrase tokens tree dangles

/-- A phrase that adds no marks to its level. -/
theorem Tells.ofNone {phrase : Phrase} {tokens : List Token} {tree : Tree} {inner : List Marks}
    (adds : Adds tokens .none inner)
    (innermost : (∀ marks ∈ inner, marks.IsEven) →
      Derives (· = false) phrase tokens tree false) : Tells phrase tokens tree false .none inner where
  adds := adds
  inside _ := rfl
  claimed := Nat.le_refl _
  opened dangles := by cases dangles
  innermost even _ := innermost even

theorem Marks.isEven_none : Marks.none.IsEven :=
  .inl rfl

/-- The marks of every derivation tell this. -/
theorem Derives.tells {Takes : Bool → Prop} {phrase : Phrase} {tokens : List Token} {tree : Tree}
    {dangles : Bool} (derives : Derives Takes phrase tokens tree dangles) :
    ∃ own inner, Tells phrase tokens tree dangles own inner := by
  induction derives with
  | number => exact ⟨_, [], .ofNone (fun _ _ _ => rfl) fun _ => .number⟩
  | name => exact ⟨_, [], .ofNone (fun _ _ _ => rfl) fun _ => .name⟩
  | paren _ ih =>
      obtain ⟨own, inner, tells⟩ := ih
      refine ⟨_, _, .ofNone tells.adds.paren fun even => ?_⟩
      obtain ⟨even, even'⟩ := List.forall_mem_append.mp even
      exact .paren (tells.innermost even (even' own (List.mem_singleton_self own)))
  | atom _ ih =>
      obtain ⟨own, inner, tells⟩ := ih
      cases tells.inside (by decide)
      exact ⟨_, _, .ofNone tells.adds fun even => .atom (tells.innermost even Marks.isEven_none)⟩
  | negate _ ih =>
      obtain ⟨own, inner, tells⟩ := ih
      cases tells.inside (by decide)
      exact ⟨_, _, .ofNone (Adds.operator.append tells.adds) fun even =>
        .negate (tells.innermost even Marks.isEven_none)⟩
  | @operand l _ _ _ ih =>
      obtain ⟨own, inner, tells⟩ := ih
      cases tells.inside l.operand_ne_ternary
      exact ⟨_, _, .ofNone tells.adds fun even =>
        .operand (tells.innermost even Marks.isEven_none)⟩
  | @binary op _ _ _ _ _ _ left right =>
      obtain ⟨own, inner, tells⟩ := left
      cases tells.inside (by simp)
      obtain ⟨own', inner', tells'⟩ := right
      cases tells'.inside op.level.operand_ne_ternary
      refine ⟨_, _, .ofNone (tells.adds.append (Adds.operator.append tells'.adds)) fun even => ?_⟩
      obtain ⟨even, even'⟩ := List.forall_mem_append.mp even
      exact .binary (tells.innermost even Marks.isEven_none)
        (tells'.innermost even' Marks.isEven_none)
  | condition _ ih =>
      obtain ⟨own, inner, tells⟩ := ih
      cases tells.inside (by decide)
      exact ⟨_, _, .ofNone tells.adds fun even =>
        .condition (tells.innermost even Marks.isEven_none)⟩
  | ifThen _ _ c t =>
      obtain ⟨own, inner, tells⟩ := c
      cases tells.inside (by decide)
      obtain ⟨own', inner', tells'⟩ := t
      have fewer := tells'.claimed
      refine ⟨_, _, tells.adds.append (Adds.question.append tells'.adds), fun ternary => ?_, ?_, ?_,
        fun even whole => ?_⟩
      · exact absurd rfl ternary
      · simp only [Marks.add, Marks.none]
        omega
      · simp only [Marks.add, Marks.none]
        omega
      · obtain ⟨even, even'⟩ := List.forall_mem_append.mp even
        simp only [Marks.IsEven, Marks.add, Marks.none] at whole
        exact .ifThen (tells.innermost even Marks.isEven_none)
          (tells'.innermost even' (by simp only [Marks.IsEven]; omega))
  | @ifThenElse _ _ _ _ dangles _ _ _ _ _ taken _ c t e =>
      obtain ⟨own, inner, tells⟩ := c
      cases tells.inside (by decide)
      obtain ⟨own', inner', tells'⟩ := t
      obtain ⟨own'', inner'', tells''⟩ := e
      have fewer := tells'.claimed
      have fewer' := tells''.claimed
      refine ⟨_, _, tells.adds.append (Adds.question.append
        (tells'.adds.append (Adds.colon.append tells''.adds))), fun ternary => ?_, ?_,
        fun dangles => ?_, fun even whole => ?_⟩
      · exact absurd rfl ternary
      · simp only [Marks.add, Marks.none]
        omega
      · have opened := tells''.opened dangles
        simp only [Marks.add, Marks.none]
        omega
      · simp only [List.nil_append, List.forall_mem_append] at even
        obtain ⟨even, even', even''⟩ := even
        simp only [Marks.IsEven, Marks.add, Marks.none] at whole
        -- There is a colon, so the marks are as many, and so they are in both branches.
        have closed : dangles = false := by
          cases dangles with
          | false => rfl
          | true =>
              have opened := tells'.opened rfl
              omega
        exact .ifThenElse (tells.innermost even Marks.isEven_none)
          (tells'.innermost even' (by simp only [Marks.IsEven]; omega)) closed
          (tells''.innermost even'' (by simp only [Marks.IsEven]; omega))

/-- If all levels are even, every tree of a formula is the innermost one. -/
theorem IsFormula.isInnermost {tokens : List Token} {tree : Tree} (formula : IsFormula tokens tree)
    (even : ∀ marks ∈ levels tokens, marks.IsEven) : IsInnermost tokens tree := by
  obtain ⟨dangles, derives⟩ := formula
  obtain ⟨own, inner, tells⟩ := derives.tells
  rw [tells.adds.levels_eq] at even
  refine ⟨dangles, tells.innermost (fun marks member => even marks ?_) (even own ?_)⟩
  · exact List.mem_append_left _ member
  · exact List.mem_append_right _ (List.mem_singleton_self own)

end LessonCalc.Formula
