import LessonCalc.Proofs.Formula.Spelling
import LessonCalc.Proofs.Formula.Turns

/-!
# Printing a tree and reading it again

`Tree.render` writes a tree as a formula, with parentheses only where it would otherwise be read as
another tree.

* `Phrase.rank`: how tightly a phrase binds.  A tree needs parentheses where its phrase binds less tightly
  than the position it stands in.
* `Tree.isInnermost_print`, `Tree.takesTurns_print`: the tokens of a printed tree are a formula of that
  tree and of no other.
* `parse_render`: so the strict reader gives the tree that was printed, whatever the layout.
-/

namespace LessonCalc.Formula

open LessonCalc.Number

/-! ## The printer -/

/-- How tightly a phrase binds. -/
def Phrase.rank : Phrase → Nat
  | .ternary => 0
  | .level .comparison => 1
  | .level .additive => 2
  | .level .multiplicative => 3
  | .unary => 4
  | .atom => 5

namespace Tree

/-- The phrase that a tree is without parentheses. -/
def phrase : Tree → Phrase
  | number _ | name _ => .atom
  | negate _ => .unary
  | binary op _ _ => .level op.level
  | ifThen _ _ | ifThenElse _ _ _ => .ternary

/-- The tokens of a tree in a position for a phrase: in parentheses if the tree binds less tightly. -/
def placed (position : Phrase) (tree : Tree) (tokens : List Token) : List Token :=
  if tree.phrase.rank < position.rank then .openParen :: (tokens ++ [.closeParen]) else tokens

/-- The tokens of a tree.  The right operand of an operator stands in a position for the next tighter
level, and a condition without parentheses stands only where an alternative does. -/
def print : Tree → List Token
  | number text => [.number text]
  | name text => [.name text]
  | negate operand => .operator .sub :: placed .atom operand operand.print
  | binary op left right =>
    placed (.level op.level) left left.print ++
      .operator op :: placed op.level.operand right right.print
  | ifThen condition consequent =>
    placed (.level .comparison) condition condition.print ++
      .question :: placed (.level .comparison) consequent consequent.print
  | ifThenElse condition consequent alternative =>
    placed (.level .comparison) condition condition.print ++
      .question :: (placed (.level .comparison) consequent consequent.print ++
        .colon :: placed .ternary alternative alternative.print)

/-- The text of a tree, with the given layout before its tokens and behind the last one. -/
def render (gap : Nat → List Char) (tree : Tree) : String :=
  String.ofList (spell gap tree.print)

/-- The numbers and names in a tree are spelled as such. -/
def IsSpelled : Tree → Prop
  | number text => IsNumberText text
  | name text => IsNameText text
  | negate operand => operand.IsSpelled
  | binary _ left right => left.IsSpelled ∧ right.IsSpelled
  | ifThen condition consequent => condition.IsSpelled ∧ consequent.IsSpelled
  | ifThenElse condition consequent alternative =>
    condition.IsSpelled ∧ consequent.IsSpelled ∧ alternative.IsSpelled

theorem mem_placed {position : Phrase} {tree : Tree} {tokens : List Token} {token : Token}
    (member : token ∈ placed position tree tokens) :
    token ∈ tokens ∨ token = .openParen ∨ token = .closeParen := by
  unfold placed at member
  split at member
  · simp only [List.mem_cons, List.mem_append, List.not_mem_nil, or_false] at member
    rcases member with rfl | inside | rfl
    · exact .inr (.inl rfl)
    · exact .inl inside
    · exact .inr (.inr rfl)
  · exact .inl member

theorem isSpelled_of_mem_placed {position : Phrase} {tree : Tree} {tokens : List Token}
    (spelled : ∀ token ∈ tokens, token.IsSpelled) :
    ∀ token ∈ placed position tree tokens, token.IsSpelled := by
  intro token member
  rcases mem_placed member with inside | rfl | rfl
  · exact spelled token inside
  · trivial
  · trivial

/-- The tokens of a well-spelled tree are well spelled. -/
theorem IsSpelled.print {tree : Tree} (spelled : tree.IsSpelled) :
    ∀ token ∈ tree.print, token.IsSpelled := by
  induction tree with
  | number text => exact List.forall_mem_singleton.mpr spelled
  | name text => exact List.forall_mem_singleton.mpr spelled
  | negate operand ih =>
      exact List.forall_mem_cons.mpr ⟨trivial, isSpelled_of_mem_placed (ih spelled)⟩
  | binary op left right ih ih' =>
      exact List.forall_mem_append.mpr ⟨isSpelled_of_mem_placed (ih spelled.1),
        List.forall_mem_cons.mpr ⟨trivial, isSpelled_of_mem_placed (ih' spelled.2)⟩⟩
  | ifThen c t ih ih' =>
      exact List.forall_mem_append.mpr ⟨isSpelled_of_mem_placed (ih spelled.1),
        List.forall_mem_cons.mpr ⟨trivial, isSpelled_of_mem_placed (ih' spelled.2)⟩⟩
  | ifThenElse c t e ih ih' ih'' =>
      exact List.forall_mem_append.mpr ⟨isSpelled_of_mem_placed (ih spelled.1),
        List.forall_mem_cons.mpr ⟨trivial, List.forall_mem_append.mpr
          ⟨isSpelled_of_mem_placed (ih' spelled.2.1),
            List.forall_mem_cons.mpr ⟨trivial, isSpelled_of_mem_placed (ih'' spelled.2.2)⟩⟩⟩⟩

end Tree

/-! ## A printed tree is a formula -/

section Widening

variable {Takes : Bool → Prop} {phrase position : Phrase} {tokens : List Token} {tree : Tree}

theorem Phrase.rank_inj (same : phrase.rank = position.rank) : phrase = position := by
  cases phrase with
  | level l => cases position with
    | level l' => cases l <;> cases l' <;> first | rfl | cases same
    | _ => cases l <;> cases same
  | _ => cases position with
    | level l' => cases l' <;> cases same
    | _ => first | rfl | cases same

/-- The phrase that binds next less tightly. -/
def Phrase.wider : Phrase → Phrase
  | .ternary => .ternary
  | .level .comparison => .ternary
  | .level .additive => .level .comparison
  | .level .multiplicative => .level .additive
  | .unary => .level .multiplicative
  | .atom => .unary

theorem Phrase.rank_wider (inside : phrase ≠ .ternary) : phrase.wider.rank + 1 = phrase.rank := by
  cases phrase with
  | ternary => exact absurd rfl inside
  | level l => cases l <;> rfl
  | unary => rfl
  | atom => rfl

theorem Derives.wider (derives : Derives Takes phrase tokens tree false) :
    Derives Takes phrase.wider tokens tree false := by
  cases phrase with
  | ternary => exact derives
  | level l =>
      cases l with
      | comparison => exact .condition derives
      | additive => exact .operand derives
      | multiplicative => exact .operand derives
  | unary => exact .operand derives
  | atom => exact .atom derives

/-- A phrase can stand where one may that binds less tightly. -/
theorem Derives.widen {dangles : Bool} (derives : Derives Takes phrase tokens tree dangles)
    (looser : position.rank ≤ phrase.rank) : ∃ dangles', Derives Takes position tokens tree dangles' := by
  obtain ⟨steps, more⟩ := Nat.exists_eq_add_of_le looser
  induction steps generalizing phrase dangles with
  | zero =>
      cases Phrase.rank_inj more
      exact ⟨dangles, derives⟩
  | succ steps ih =>
      have inside : phrase ≠ .ternary := by
        rintro rfl
        cases more
      have next := Phrase.rank_wider inside
      cases derives.dangles_eq_false inside
      exact ih derives.wider (by omega) (by omega)

/-- Any phrase can stand where a ternary may. -/
theorem Derives.exists_ternary {dangles : Bool} (derives : Derives Takes phrase tokens tree dangles) :
    ∃ dangles', Derives Takes .ternary tokens tree dangles' :=
  derives.widen (Nat.zero_le phrase.rank)

end Widening

namespace Tree

variable {tree : Tree} {position : Phrase}

/-- A tree in any position is derived there if its tokens are derived as its own phrase. -/
theorem derives_placed {tokens : List Token} {dangles : Bool}
    (derives : Derives (· = false) tree.phrase tokens tree dangles) (position : Phrase) :
    ∃ dangles', Derives (· = false) position (placed position tree tokens) tree dangles' := by
  unfold placed
  split
  · obtain ⟨_, ternary⟩ := derives.exists_ternary
    have highest : position.rank ≤ Phrase.atom.rank := by
      cases position with
      | level l => cases l <;> decide
      | _ => decide
    exact (Derives.paren ternary).widen highest
  · rename_i looser
    exact derives.widen (Nat.le_of_not_lt looser)

/-- In a position that is not for a ternary nothing dangles. -/
theorem derives_placed_inside {tokens : List Token}
    (derives : ∃ dangles, Derives (· = false) tree.phrase tokens tree dangles)
    (inside : position ≠ .ternary) :
    Derives (· = false) position (placed position tree tokens) tree false := by
  obtain ⟨_, derives⟩ := derives
  obtain ⟨_, placed⟩ := derives_placed derives position
  cases placed.dangles_eq_false inside
  exact placed

/-- The tokens of a tree are an innermost derivation of it. -/
theorem derives_print (tree : Tree) :
    ∃ dangles, Derives (· = false) tree.phrase tree.print tree dangles := by
  induction tree with
  | number text => exact ⟨false, .number⟩
  | name text => exact ⟨false, .name⟩
  | negate operand ih => exact ⟨false, .negate (derives_placed_inside ih (by decide))⟩
  | binary op left right ih ih' =>
      exact ⟨false, .binary (derives_placed_inside ih (by simp))
        (derives_placed_inside ih' op.level.operand_ne_ternary)⟩
  | ifThen c t ih ih' =>
      exact ⟨true, .ifThen (derives_placed_inside ih (by decide))
        (.condition (derives_placed_inside ih' (by decide)))⟩
  | ifThenElse c t e ih ih' ih'' =>
      obtain ⟨_, alternative⟩ := ih''
      obtain ⟨dangles, alternative⟩ := derives_placed alternative .ternary
      exact ⟨dangles, .ifThenElse (derives_placed_inside ih (by decide))
        (.condition (derives_placed_inside ih' (by decide))) rfl alternative⟩

theorem isInnermost_print (tree : Tree) : IsInnermost tree.print tree := by
  obtain ⟨_, derives⟩ := tree.derives_print
  exact derives.exists_ternary

/-! ## A printed tree is no other formula -/

/-- Where no question mark is waiting, the scan of the tokens goes on behind them, and wherever they
stand it goes on unchanged unless they are those of a condition. -/
def GoesOn (phrase : Phrase) (tokens : List Token) : Prop :=
  (∃ waiting, ∀ outer rest,
      takesTurns false outer (tokens ++ rest) = takesTurns waiting outer rest) ∧
    (phrase ≠ .ternary → ∀ waiting outer rest,
      takesTurns waiting outer (tokens ++ rest) = takesTurns waiting outer rest)

/-- The scan goes on behind a tree in any position. -/
theorem goesOn_placed {tokens : List Token} (goesOn : GoesOn tree.phrase tokens)
    (position : Phrase) : GoesOn position (placed position tree tokens) := by
  obtain ⟨⟨waiting, first⟩, inside⟩ := goesOn
  unfold placed
  split
  · have unchanged : ∀ waiting' outer rest,
        takesTurns waiting' outer (.openParen :: (tokens ++ [.closeParen]) ++ rest) =
          takesTurns waiting' outer rest := by
      intro waiting' outer rest
      rw [List.cons_append, List.append_assoc, takesTurns, first]
      rfl
    exact ⟨⟨false, unchanged false⟩, fun _ => unchanged⟩
  · rename_i looser
    refine ⟨⟨waiting, first⟩, fun notTernary => inside fun ternary => ?_⟩
    rw [ternary] at looser
    exact notTernary (Phrase.rank_inj (Nat.le_zero.mp (Nat.le_of_not_lt looser)))

/-- The scan goes on behind a printed tree. -/
theorem goesOn_print (tree : Tree) : GoesOn tree.phrase tree.print := by
  induction tree with
  | number text => exact ⟨⟨false, fun _ _ => rfl⟩, fun _ _ _ _ => rfl⟩
  | name text => exact ⟨⟨false, fun _ _ => rfl⟩, fun _ _ _ _ => rfl⟩
  | negate operand ih =>
      have unchanged := (goesOn_placed ih .atom).2 (by decide)
      exact ⟨⟨false, unchanged false⟩, fun _ => unchanged⟩
  | binary op left right ih ih' =>
      have first := (goesOn_placed ih (.level op.level)).2 (by simp)
      have second := (goesOn_placed ih' op.level.operand).2 op.level.operand_ne_ternary
      have unchanged : ∀ waiting outer rest, takesTurns waiting outer
          ((binary op left right).print ++ rest) = takesTurns waiting outer rest := by
        intro waiting outer rest
        rw [print, List.append_assoc, first, List.cons_append, takesTurns, second]
      exact ⟨⟨false, unchanged false⟩, fun _ => unchanged⟩
  | ifThen c t ih ih' =>
      have first := (goesOn_placed ih (.level .comparison)).2 (by decide)
      have second := (goesOn_placed ih' (.level .comparison)).2 (by decide)
      refine ⟨⟨true, fun outer rest => ?_⟩, fun notTernary => absurd rfl notTernary⟩
      rw [print, List.append_assoc, first, List.cons_append, takesTurns, second]
      rfl
  | ifThenElse c t e ih ih' ih'' =>
      have first := (goesOn_placed ih (.level .comparison)).2 (by decide)
      have second := (goesOn_placed ih' (.level .comparison)).2 (by decide)
      obtain ⟨waiting, third⟩ := (goesOn_placed ih'' .ternary).1
      refine ⟨⟨waiting, fun outer rest => ?_⟩, fun notTernary => absurd rfl notTernary⟩
      rw [print, List.append_assoc, first, List.cons_append, takesTurns, List.append_assoc, second,
        List.cons_append, takesTurns, third]
      rfl

/-- The marks of a printed tree take turns. -/
theorem takesTurns_print (tree : Tree) : takesTurns false [] tree.print = true := by
  obtain ⟨⟨waiting, goesOn⟩, _⟩ := tree.goesOn_print
  have whole := goesOn [] []
  rwa [List.append_nil] at whole

end Tree

/-! ## The round trip -/

/-- A printed tree is read as that tree. -/
theorem parse_render {tree : Tree} (spelled : tree.IsSpelled) {gap : Nat → List Char}
    (layout : ∀ i, ∀ c ∈ gap i, isLayout c = true) : parse (tree.render gap) = .ok tree := by
  have formula := tree.isInnermost_print.isFormula
  obtain ⟨tree', accepted, formula'⟩ := exists_parse_spell formula spelled.print layout
  cases formula.eq_of_takesTurns formula' tree.takesTurns_print
  exact accepted

/-- A tree that needs parentheses in four places, printed without any layout. -/
theorem parse_render_nested :
    let inner : Tree := .ifThen (.name "x") (.binary .sub (.name "x")
      (.binary .sub (.name "y") (.number "1.")))
    let last : Tree := .ifThen (.name "w") (.binary .mul (.binary .add (.number "2") (.name "c"))
      (.binary .ge (.name "d") (.negate (.name "e"))))
    let tree : Tree := .ifThenElse (.binary .gt (.negate (.binary .mod (.name "a") (.name "b")))
      (.number ".5")) inner last
    tree.IsSpelled ∧ (∀ i : Nat, ∀ c ∈ (fun _ => [] : Nat → List Char) i, isLayout c = true) ∧
      tree.render (fun _ => []) = "-(a%b)>.5?(x?x-(y-1.)):w?(2+c)*(d>=-e)" ∧
      parse "-(a%b)>.5?(x?x-(y-1.)):w?(2+c)*(d>=-e)" = .ok tree := by
  intro inner last tree
  have whole : ∀ text ∈ ["1.", ".5", "2"], IsNumberText text := by
    simp only [List.forall_mem_cons, List.not_mem_nil, false_implies, implies_true, and_true]
    exact ⟨isNumberText_iff.mpr ⟨_, rfl⟩, isNumberText_iff.mpr ⟨_, rfl⟩, isNumberText_iff.mpr ⟨_, rfl⟩⟩
  have letter : ∀ c : Char, isNameStart c = true → IsNameText (String.ofList [c]) :=
    fun c start => ⟨c, [], String.toList_ofList, start, fun d member => by cases member⟩
  have spelled : tree.IsSpelled :=
    ⟨⟨⟨letter 'a' (by decide), letter 'b' (by decide)⟩, whole ".5" (by decide)⟩,
      ⟨letter 'x' (by decide), letter 'x' (by decide), letter 'y' (by decide), whole "1." (by decide)⟩,
      letter 'w' (by decide), ⟨whole "2" (by decide), letter 'c' (by decide)⟩,
      letter 'd' (by decide), letter 'e' (by decide)⟩
  have layout : ∀ i : Nat, ∀ c ∈ (fun _ => [] : Nat → List Char) i, isLayout c = true := by
    simp
  have text : tree.render (fun _ => []) = "-(a%b)>.5?(x?x-(y-1.)):w?(2+c)*(d>=-e)" := by
    cbv
  exact ⟨spelled, layout, text, text ▸ parse_render spelled layout⟩

end LessonCalc.Formula
