import LessonCalc.Proofs.Formula.Descent
import LessonCalc.Proofs.Formula.Grammar

/-!
# Readings that tolerated nothing

The descent reads any token list.  A reading is *clean* if none of its tolerances was needed: a value
stood wherever one was expected, and every parenthesis was closed.

* `Reads.derives`: the tokens that a clean reading has used up are a formula, and the tree of the
  reading is an innermost one.
* `Derives.isRead`: the descent reads every formula cleanly, up to its end, into the innermost tree.
* `isInnermost_iff`: so a token list has an innermost tree exactly if it is read cleanly and whole,
  and the tree is that of the reading.
-/

namespace LessonCalc.Formula

/-! ## Clean readings and their trees -/

/-- Nothing was missing, stray or left open. -/
def Reading.IsClean : Reading → Prop
  | .missing | .stray _ => False
  | .number _ | .name _ => True
  | .group inner closed => closed = true ∧ inner.IsClean
  | .negate operand => operand.IsClean
  | .binary _ left right => left.IsClean ∧ right.IsClean
  | .ifThen condition consequent => condition.IsClean ∧ consequent.IsClean
  | .ifThenElse condition consequent alternative =>
    condition.IsClean ∧ consequent.IsClean ∧ alternative.IsClean

/-- The tree of a reading, in which parentheses leave no trace.  Only that of a clean reading
matters. -/
def Reading.tree : Reading → Tree
  | .missing => .number ""
  | .stray token => .number token.text
  | .number run => .number run
  | .name text => .name text
  | .group inner _ => inner.tree
  | .negate operand => .negate operand.tree
  | .binary op left right => .binary op left.tree right.tree
  | .ifThen condition consequent => .ifThen condition.tree consequent.tree
  | .ifThenElse condition consequent alternative =>
    .ifThenElse condition.tree consequent.tree alternative.tree

namespace Reading

/-- A clean reading has the value of its tree. -/
theorem IsClean.value_eq {r : Reading} (clean : r.IsClean) (env : String → Float) :
    r.value env = r.tree.value env := by
  induction r with
  | missing => exact clean.elim
  | stray _ => exact clean.elim
  | number _ => rfl
  | name _ => rfl
  | group _ _ ih => exact ih clean.2
  | negate _ ih => simp only [value, tree, Tree.value, ih clean]
  | binary _ _ _ left right =>
      simp only [value, tree, Tree.value, left clean.1, right clean.2]
  | ifThen _ _ c t => simp only [value, tree, Tree.value, c clean.1, t clean.2]
  | ifThenElse _ _ _ c t e =>
      simp only [value, tree, Tree.value, c clean.1, t clean.2.1, e clean.2.2]

/-- A reading looks up the names of its tree, in the same order. -/
theorem names_eq (r : Reading) : r.names = r.tree.names := by
  induction r with
  | group _ _ ih => exact ih
  | negate _ ih => exact ih
  | binary _ _ _ left right => simp only [names, tree, Tree.names, left, right]
  | ifThen _ _ c t => simp only [names, tree, Tree.names, c, t]
  | ifThenElse _ _ _ c t e => simp only [names, tree, Tree.names, c, t, e]
  | _ => rfl

end Reading

/-! ## Clean readings derive -/

/-- What the tokens that a call has used up are, if it made the clean reading `r` and left `left`. -/
def Call.Spells : Call → List Token → Reading → List Token → Prop
  | .ternary, used, r, left =>
    ∃ dangles, Derives (· = false) .ternary used r.tree dangles ∧
      (dangles = true → left.head? ≠ some .colon)
  | .level l, used, r, _ => Derives (· = false) (.level l) used r.tree false
  | .operand l, used, r, _ => Derives (· = false) l.operand used r.tree false
  | .more l first, used, r, _ =>
    first.IsClean ∧
      ∀ before, Derives (· = false) (.level l) before first.tree false →
        Derives (· = false) (.level l) (before ++ used) r.tree false
  | .unary, used, r, _ => Derives (· = false) .unary used r.tree false
  | .primary, used, r, _ => Derives (· = false) .atom used r.tree false

/-- The tokens that a clean reading has used up are what its call reads. -/
theorem Reads.derives {call : Call} {tokens left : List Token} {r : Reading}
    (reads : Reads call tokens r left) (clean : r.IsClean) :
    ∃ used, tokens = used ++ left ∧ call.Spells used r left := by
  induction reads with
  | condition _ _ ih =>
      obtain ⟨used, rfl, derives⟩ := ih clean
      exact ⟨used, rfl, false, .condition derives, fun dangles => by cases dangles⟩
  | ifThen _ _ stops first second =>
      obtain ⟨cs, rfl, condition⟩ := first clean.1
      obtain ⟨ts, rfl, _, consequent, _⟩ := second clean.2
      exact ⟨_, by simp, true, .ifThen condition consequent, fun _ => stops⟩
  | ifThenElse _ _ _ first second third =>
      obtain ⟨cs, rfl, condition⟩ := first clean.1
      obtain ⟨ts, rfl, dangles, consequent, ends⟩ := second clean.2.1
      obtain ⟨es, rfl, dangles', alternative, ends'⟩ := third clean.2.2
      have closed : dangles = false := by
        cases dangles with
        | false => rfl
        | true => exact absurd rfl (ends rfl)
      exact ⟨_, by simp, dangles', .ifThenElse condition consequent closed alternative, ends'⟩
  | level _ _ first second =>
      obtain ⟨used', rfl, cleanFirst, grows⟩ := second clean
      obtain ⟨used, rfl, operand⟩ := first cleanFirst
      exact ⟨used ++ used', by simp, grows used (.operand operand)⟩
  | comparison _ ih => exact ih clean
  | additive _ ih => exact ih clean
  | multiplicative _ ih => exact ih clean
  | done _ => exact ⟨[], rfl, clean, fun before derives => by simpa using derives⟩
  | @more _ _ op _ _ _ _ _ level _ _ second last =>
      obtain ⟨used', rfl, cleanFirst, grows⟩ := last clean
      obtain ⟨used, rfl, operand⟩ := second cleanFirst.2
      subst level
      refine ⟨.operator op :: (used ++ used'), by simp, cleanFirst.1, fun before derives => ?_⟩
      have whole := grows _ (.binary derives operand)
      simpa using whole
  | negate _ ih =>
      obtain ⟨used, rfl, derives⟩ := ih clean
      exact ⟨_ :: used, rfl, .negate derives⟩
  | primary _ _ ih =>
      obtain ⟨used, rfl, derives⟩ := ih clean
      exact ⟨used, rfl, .atom derives⟩
  | missing => exact clean.elim
  | number => exact ⟨[_], rfl, .number⟩
  | name => exact ⟨[_], rfl, .name⟩
  | closed _ ih =>
      obtain ⟨used, rfl, _, derives, _⟩ := ih clean.2
      exact ⟨_, by simp, .paren derives⟩
  | unclosed _ _ _ => cases clean.1
  | stray _ => exact clean.elim

/-! ## Formulas are read cleanly -/

/-- How tightly the operators of a level bind. -/
def Level.rank : Level → Nat
  | .comparison => 0
  | .additive => 1
  | .multiplicative => 2

/-- The tokens do not start with an operator that binds more tightly than those of a level. -/
def NoTighter (l : Level) (tokens : List Token) : Prop :=
  ∀ op, tokens.head? = some (.operator op) → op.level.rank ≤ l.rank

/-- The tokens do not start with an operator. -/
def NoOperator (tokens : List Token) : Prop :=
  ∀ op, tokens.head? ≠ some (.operator op)

/-- The tokens do not start with one that a ternary before them would go on with. -/
structure Ends (dangles : Bool) (tokens : List Token) : Prop where
  noOperator : NoOperator tokens
  noQuestion : tokens.head? ≠ some .question
  noColon : dangles = true → tokens.head? ≠ some .colon

theorem ends_nil (dangles : Bool) : Ends dangles [] where
  noOperator _ next := by cases next
  noQuestion next := by cases next
  noColon _ next := by cases next

theorem ends_closeParen (dangles : Bool) (tokens : List Token) :
    Ends dangles (.closeParen :: tokens) where
  noOperator _ next := by cases next
  noQuestion next := by cases next
  noColon _ next := by cases next

theorem ends_colon (tokens : List Token) : Ends false (.colon :: tokens) where
  noOperator _ next := by cases next
  noQuestion next := by cases next
  noColon dangles := by cases dangles

theorem NoOperator.noTighter {tokens : List Token} (none : NoOperator tokens) (l : Level) :
    NoTighter l tokens :=
  fun op same => absurd same (none op)

/-- Operators of a tighter level are read before, so none of them is left. -/
theorem NoTighter.done {l l' : Level} {tokens : List Token} (stops : NoTighter l tokens)
    (tighter : l.rank < l'.rank) (first : Reading) : Reads (.more l' first) tokens first tokens :=
  .done fun op same level => by
    have le := stops op same
    rw [level] at le
    omega

/-- The descent reads these tokens cleanly as a phrase with this tree, whatever follows that cannot
go on with it.  Operators of a level are joined to the left as they come, so for a level the outcome
is left open and what is told is how the operators after the phrase are read. -/
def Phrase.IsRead : Phrase → List Token → Tree → Bool → Prop
  | .ternary, tokens, tree, dangles =>
    ∃ r : Reading, r.IsClean ∧ r.tree = tree ∧
      ∀ rest, Ends dangles rest → Reads .ternary (tokens ++ rest) r rest
  | .level l, tokens, tree, _ =>
    ∃ first : Reading, first.IsClean ∧ first.tree = tree ∧
      ∀ rest r left, NoTighter l rest → Reads (.more l first) rest r left →
        Reads (.level l) (tokens ++ rest) r left
  | .unary, tokens, tree, _ =>
    ∃ r : Reading, r.IsClean ∧ r.tree = tree ∧ ∀ rest, Reads .unary (tokens ++ rest) r rest
  | .atom, tokens, tree, _ =>
    ∃ r : Reading, r.IsClean ∧ r.tree = tree ∧
      ∀ rest, (tokens ++ rest).head? ≠ some (.operator .sub) ∧
        Reads .primary (tokens ++ rest) r rest

/-- An operand of a level is read up to the operators of the level. -/
theorem Phrase.IsRead.operand {l : Level} {tokens : List Token} {tree : Tree} {dangles : Bool}
    (isRead : Phrase.IsRead l.operand tokens tree dangles) :
    ∃ r : Reading, r.IsClean ∧ r.tree = tree ∧
      ∀ rest, NoTighter l rest → Reads (.operand l) (tokens ++ rest) r rest := by
  cases l with
  | comparison =>
      obtain ⟨r, clean, same, reads⟩ := isRead
      refine ⟨r, clean, same, fun rest stops => .comparison (reads rest r rest ?_ ?_)⟩
      · exact fun op next => Nat.le_trans (stops op next) (Nat.le_succ 0)
      · exact stops.done (by decide) r
  | additive =>
      obtain ⟨r, clean, same, reads⟩ := isRead
      refine ⟨r, clean, same, fun rest stops => .additive (reads rest r rest ?_ ?_)⟩
      · exact fun op next => Nat.le_trans (stops op next) (Nat.le_succ 1)
      · exact stops.done (by decide) r
  | multiplicative =>
      obtain ⟨r, clean, same, reads⟩ := isRead
      exact ⟨r, clean, same, fun rest _ => .multiplicative (reads rest)⟩

/-- A comparison is read up to what is no operator. -/
theorem Phrase.IsRead.comparison {tokens : List Token} {tree : Tree} {dangles : Bool}
    (isRead : Phrase.IsRead (.level .comparison) tokens tree dangles) :
    ∃ r : Reading, r.IsClean ∧ r.tree = tree ∧
      ∀ rest, NoOperator rest → Reads (.level .comparison) (tokens ++ rest) r rest := by
  obtain ⟨r, clean, same, reads⟩ := isRead
  refine ⟨r, clean, same, fun rest none => reads rest r rest (none.noTighter _) ?_⟩
  exact .done fun op next => absurd next (none op)

/-- The descent reads every phrase that has an innermost derivation. -/
theorem Derives.isRead {phrase : Phrase} {tokens : List Token} {tree : Tree} {dangles : Bool}
    (derives : Derives (· = false) phrase tokens tree dangles) :
    phrase.IsRead tokens tree dangles := by
  induction derives with
  | number => exact ⟨.number _, trivial, rfl, fun _ => ⟨by simp, .number⟩⟩
  | name => exact ⟨.name _, trivial, rfl, fun _ => ⟨by simp, .name⟩⟩
  | paren _ ih =>
      obtain ⟨r, clean, same, reads⟩ := ih
      refine ⟨.group r true, ⟨rfl, clean⟩, same, fun rest => ⟨by simp, ?_⟩⟩
      have inner := reads (.closeParen :: rest) (ends_closeParen _ rest)
      simpa using Reads.closed inner
  | atom _ ih =>
      obtain ⟨r, clean, same, reads⟩ := ih
      exact ⟨r, clean, same, fun rest => .primary (reads rest).1 (reads rest).2⟩
  | negate _ ih =>
      obtain ⟨r, clean, same, reads⟩ := ih
      refine ⟨.negate r, clean, ?_, fun rest => .negate (reads rest).2⟩
      simp only [Reading.tree, same]
  | operand _ ih =>
      obtain ⟨first, clean, same, reads⟩ := Phrase.IsRead.operand ih
      exact ⟨first, clean, same, fun rest r left stops more => .level (reads rest stops) more⟩
  | @binary op tokens _ tokens' _ _ _ left right =>
      obtain ⟨first, clean, same, reads⟩ := left
      obtain ⟨second, clean', same', reads'⟩ := Phrase.IsRead.operand right
      refine ⟨.binary op first second, ⟨clean, clean'⟩, ?_, fun rest r left stops more => ?_⟩
      · simp only [Reading.tree, same, same']
      · rw [List.append_assoc, List.cons_append]
        refine reads _ r left ?_ (.more rfl (reads' rest stops) more)
        intro op' next
        cases next
        exact Nat.le_refl _
  | condition _ ih =>
      obtain ⟨r, clean, same, reads⟩ := Phrase.IsRead.comparison ih
      exact ⟨r, clean, same, fun rest ends => .condition (reads rest ends.noOperator) ends.noQuestion⟩
  | @ifThen cs _ ts _ dangles _ _ c t =>
      obtain ⟨condition, clean, same, reads⟩ := Phrase.IsRead.comparison c
      obtain ⟨consequent, clean', same', reads'⟩ := t
      refine ⟨.ifThen condition consequent, ⟨clean, clean'⟩, ?_, fun rest ends => ?_⟩
      · simp only [Reading.tree, same, same']
      · have noColon := ends.noColon rfl
        have ends' : Ends dangles rest := ⟨ends.noOperator, ends.noQuestion, fun _ => noColon⟩
        rw [List.append_assoc, List.cons_append]
        exact .ifThen (reads _ fun _ next => by cases next) (reads' rest ends') noColon
  | @ifThenElse cs _ ts _ _ es _ _ _ _ closed _ c t e =>
      obtain ⟨condition, clean, same, reads⟩ := Phrase.IsRead.comparison c
      obtain ⟨consequent, clean', same', reads'⟩ := t
      obtain ⟨alternative, clean'', same'', reads''⟩ := e
      refine ⟨.ifThenElse condition consequent alternative, ⟨clean, clean', clean''⟩, ?_,
        fun rest ends => ?_⟩
      · simp only [Reading.tree, same, same', same'']
      · have ends' := ends_colon (es ++ rest)
        rw [← closed] at ends'
        rw [List.append_assoc, List.cons_append, List.append_assoc, List.cons_append]
        exact .ifThenElse (reads _ fun _ next => by cases next) (reads' _ ends') (reads'' rest ends)

/-! ## The innermost tree is the tree of the reading -/

/-- A token list has an innermost tree exactly if it is read cleanly and whole, and then the tree is
that of the reading. -/
theorem isInnermost_iff {tokens : List Token} {tree : Tree} :
    IsInnermost tokens tree ↔
      (read tokens).1.IsClean ∧ (read tokens).2 = [] ∧ (read tokens).1.tree = tree := by
  constructor
  · rintro ⟨dangles, derives⟩
    obtain ⟨r, clean, same, reads⟩ := derives.isRead
    have whole := reads [] (ends_nil dangles)
    rw [List.append_nil] at whole
    rw [read_eq_iff.mpr whole]
    exact ⟨clean, rfl, same⟩
  · rintro ⟨clean, whole, rfl⟩
    obtain ⟨used, split, dangles, derives, _⟩ := (reads_read tokens).derives clean
    rw [whole, List.append_nil] at split
    rw [← split] at derives
    exact ⟨dangles, derives⟩

end LessonCalc.Formula
