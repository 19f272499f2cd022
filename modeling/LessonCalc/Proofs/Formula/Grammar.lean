import LessonCalc.Formula.Tree

/-!
# The grammar of formulas

The strict reader is a program; this module says which token lists are formulas without one.
`Derives` is the grammar, with one rule for each of its alternatives:

```text
ternary     := comparison | comparison '?' ternary ( ':' ternary )?
comparison  := additive | comparison ( '>' | '<' | '>=' | '<=' | '==' | '!=' ) additive
additive    := multiplicative | additive ( '+' | '-' ) multiplicative
multiplicative := unary | multiplicative ( '*' | '/' | '%' ) unary
unary       := atom | '-' atom
atom        := NUMBER | NAME | '(' ternary ')'
```

The grammar is ambiguous: in `a ? b ? c : d` the colon can belong to either question mark.  A
derivation therefore tells whether its phrase *dangles*, that is, whether a question mark without a
colon is still open at its end, and `Takes` says which consequents may be followed by a colon.

* `IsFormula`: every consequent may.  These are all derivations.
* `IsInnermost`: only one that does not dangle.  Each colon belongs to the innermost question mark
  that is open before it.

`IsFormula.exists_innermost` turns a derivation into one of the second kind.
-/

namespace LessonCalc.Formula

/-- A phrase of the grammar. -/
inductive Phrase where
  | ternary
  | level (l : Level)
  | unary
  | atom
  deriving Repr, DecidableEq

/-- The phrase that the operators of a level join. -/
def Level.operand : Level → Phrase
  | .comparison => .level .additive
  | .additive => .level .multiplicative
  | .multiplicative => .unary

theorem Level.operand_ne_ternary (l : Level) : l.operand ≠ .ternary := by
  cases l <;> decide

/-- `Derives Takes phrase tokens tree dangles`: the tokens are a phrase with this tree, and `dangles`
tells whether a question mark is open at its end. -/
inductive Derives (Takes : Bool → Prop) : Phrase → List Token → Tree → Bool → Prop
  | number {run} : Derives Takes .atom [.number run] (.number run) false
  | name {text} : Derives Takes .atom [.name text] (.name text) false
  | paren {tokens tree dangles} :
      Derives Takes .ternary tokens tree dangles →
      Derives Takes .atom (.openParen :: (tokens ++ [.closeParen])) tree false
  | atom {tokens tree} :
      Derives Takes .atom tokens tree false →
      Derives Takes .unary tokens tree false
  | negate {tokens tree} :
      Derives Takes .atom tokens tree false →
      Derives Takes .unary (.operator .sub :: tokens) (.negate tree) false
  | operand {l tokens tree} :
      Derives Takes (Level.operand l) tokens tree false →
      Derives Takes (.level l) tokens tree false
  | binary {op tokens left tokens' right} :
      Derives Takes (.level op.level) tokens left false →
      Derives Takes op.level.operand tokens' right false →
      Derives Takes (.level op.level) (tokens ++ .operator op :: tokens') (.binary op left right)
        false
  | condition {tokens tree} :
      Derives Takes (.level .comparison) tokens tree false →
      Derives Takes .ternary tokens tree false
  | ifThen {cs c ts t dangles} :
      Derives Takes (.level .comparison) cs c false →
      Derives Takes .ternary ts t dangles →
      Derives Takes .ternary (cs ++ .question :: ts) (.ifThen c t) true
  | ifThenElse {cs c ts t dangles es e dangles'} :
      Derives Takes (.level .comparison) cs c false →
      Derives Takes .ternary ts t dangles →
      Takes dangles →
      Derives Takes .ternary es e dangles' →
      Derives Takes .ternary (cs ++ .question :: (ts ++ .colon :: es)) (.ifThenElse c t e) dangles'

/-- The tokens are a formula with this tree. -/
def IsFormula (tokens : List Token) (tree : Tree) : Prop :=
  ∃ dangles, Derives (fun _ => True) .ternary tokens tree dangles

/-- The tokens are a formula, and in this tree each colon belongs to the innermost question mark that
is open before it. -/
def IsInnermost (tokens : List Token) (tree : Tree) : Prop :=
  ∃ dangles, Derives (· = false) .ternary tokens tree dangles

/-- The name that a token is, if it is one. -/
def Token.name? : Token → Option String
  | .name text => some text
  | _ => none

namespace Derives

variable {Takes Takes' : Bool → Prop} {phrase : Phrase} {tokens : List Token} {tree : Tree}
  {dangles : Bool}

/-- Only a ternary can dangle. -/
theorem dangles_eq_false (derives : Derives Takes phrase tokens tree dangles)
    (inside : phrase ≠ .ternary) : dangles = false := by
  cases derives with
  | condition _ => rfl
  | ifThen _ _ => exact absurd rfl inside
  | ifThenElse _ _ _ _ => exact absurd rfl inside
  | _ => rfl

/-- A derivation is one under every rule that takes no fewer consequents. -/
theorem mono (le : ∀ dangles, Takes dangles → Takes' dangles)
    (derives : Derives Takes phrase tokens tree dangles) :
    Derives Takes' phrase tokens tree dangles := by
  induction derives with
  | number => exact .number
  | name => exact .name
  | paren _ ih => exact .paren ih
  | atom _ ih => exact .atom ih
  | negate _ ih => exact .negate ih
  | operand _ ih => exact .operand ih
  | binary _ _ left right => exact .binary left right
  | condition _ ih => exact .condition ih
  | ifThen _ _ c t => exact .ifThen c t
  | ifThenElse _ _ taken _ c t e => exact .ifThenElse c t (le _ taken) e

/-- The names of a tree are those of its tokens, in the same order. -/
theorem names_eq (derives : Derives Takes phrase tokens tree dangles) :
    tree.names = tokens.filterMap Token.name? := by
  induction derives with
  | number => rfl
  | name => rfl
  | paren _ ih => simp [List.filterMap_cons, Token.name?, ih]
  | atom _ ih => exact ih
  | negate _ ih => simp [List.filterMap_cons, Token.name?, Tree.names, ih]
  | operand _ ih => exact ih
  | binary _ _ left right => simp [List.filterMap_cons, Token.name?, Tree.names, left, right]
  | condition _ ih => exact ih
  | ifThen _ _ c t => simp [List.filterMap_cons, Token.name?, Tree.names, c, t]
  | ifThenElse _ _ _ _ c t e => simp [List.filterMap_cons, Token.name?, Tree.names, c, t, e]

/-- A colon and an alternative can follow a ternary that dangles: they go to its innermost open
question mark. -/
theorem attach {es : List Token} {e : Tree} {dangles' : Bool}
    (consequent : Derives (· = false) phrase tokens tree dangles) (ternary : phrase = .ternary)
    (unfinished : dangles = true) (alternative : Derives (· = false) .ternary es e dangles') :
    ∃ whole dangles'',
      Derives (· = false) .ternary (tokens ++ .colon :: es) whole dangles'' := by
  induction consequent with
  | @ifThen cs c ts t inner condition consequent _ attached =>
      cases inner with
      | false =>
          refine ⟨.ifThenElse c t e, dangles', ?_⟩
          rw [List.append_assoc, List.cons_append]
          exact .ifThenElse condition consequent rfl alternative
      | true =>
          obtain ⟨whole, dangles'', derives⟩ := attached rfl rfl
          refine ⟨.ifThen c whole, true, ?_⟩
          rw [List.append_assoc, List.cons_append]
          exact .ifThen condition derives
  | @ifThenElse cs c ts t inner es' e' last condition consequent closed _ _ _ attached =>
      obtain ⟨whole, dangles'', derives⟩ := attached rfl unfinished
      refine ⟨.ifThenElse c t whole, dangles'', ?_⟩
      rw [List.append_assoc, List.cons_append, List.append_assoc, List.cons_append]
      exact .ifThenElse condition consequent closed derives
  | condition _ => cases unfinished
  | _ => cases ternary

/-- Whatever can be derived has a derivation in which each colon belongs to the innermost open
question mark. -/
theorem exists_innermost (derives : Derives Takes phrase tokens tree dangles) :
    ∃ tree' dangles', Derives (· = false) phrase tokens tree' dangles' := by
  induction derives with
  | number => exact ⟨_, _, .number⟩
  | name => exact ⟨_, _, .name⟩
  | paren _ ih =>
      obtain ⟨_, _, inner⟩ := ih
      exact ⟨_, _, .paren inner⟩
  | atom _ ih =>
      obtain ⟨_, _, inner⟩ := ih
      cases inner.dangles_eq_false (by decide)
      exact ⟨_, _, .atom inner⟩
  | negate _ ih =>
      obtain ⟨_, _, inner⟩ := ih
      cases inner.dangles_eq_false (by decide)
      exact ⟨_, _, .negate inner⟩
  | @operand l _ _ _ ih =>
      obtain ⟨_, _, inner⟩ := ih
      cases inner.dangles_eq_false l.operand_ne_ternary
      exact ⟨_, _, .operand inner⟩
  | @binary op _ _ _ _ _ _ left right =>
      obtain ⟨_, _, first⟩ := left
      cases first.dangles_eq_false (by simp)
      obtain ⟨_, _, second⟩ := right
      cases second.dangles_eq_false op.level.operand_ne_ternary
      exact ⟨_, _, .binary first second⟩
  | condition _ ih =>
      obtain ⟨_, _, inner⟩ := ih
      cases inner.dangles_eq_false (by decide)
      exact ⟨_, _, .condition inner⟩
  | ifThen _ _ c t =>
      obtain ⟨_, _, first⟩ := c
      cases first.dangles_eq_false (by decide)
      obtain ⟨_, _, second⟩ := t
      exact ⟨_, _, .ifThen first second⟩
  | ifThenElse _ _ _ _ c t e =>
      obtain ⟨_, _, first⟩ := c
      cases first.dangles_eq_false (by decide)
      obtain ⟨_, dangles, second⟩ := t
      obtain ⟨_, _, third⟩ := e
      -- The colon cannot go to the question mark it had if the new consequent dangles.
      cases dangles with
      | false => exact ⟨_, _, .ifThenElse first second rfl third⟩
      | true =>
          obtain ⟨_, _, attached⟩ := second.attach rfl rfl third
          exact ⟨_, _, .ifThen first attached⟩

end Derives

/-- A formula has an innermost derivation. -/
theorem IsFormula.exists_innermost {tokens : List Token} {tree : Tree}
    (formula : IsFormula tokens tree) : ∃ tree', IsInnermost tokens tree' := by
  obtain ⟨_, derives⟩ := formula
  obtain ⟨tree', dangles', inner⟩ := derives.exists_innermost
  exact ⟨tree', dangles', inner⟩

/-- An innermost derivation is a derivation. -/
theorem IsInnermost.isFormula {tokens : List Token} {tree : Tree}
    (innermost : IsInnermost tokens tree) : IsFormula tokens tree := by
  obtain ⟨dangles, derives⟩ := innermost
  exact ⟨dangles, derives.mono fun _ _ => trivial⟩

/-- The names of the tree of a formula are those of its tokens, in the same order. -/
theorem IsFormula.names_eq {tokens : List Token} {tree : Tree} (formula : IsFormula tokens tree) :
    tree.names = tokens.filterMap Token.name? := by
  obtain ⟨_, derives⟩ := formula
  exact derives.names_eq

end LessonCalc.Formula
