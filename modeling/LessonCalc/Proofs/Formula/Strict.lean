import LessonCalc.Formula.Parse
import LessonCalc.Proofs.Formula.Chain
import LessonCalc.Proofs.Formula.Clean

/-!
# The strict reader accepts the grammar

`parseAll` reads a whole list of tokens or refuses it.  It accepts exactly the formulas:

* `isFormula_of_parseAll`: the tree it gives is a tree of the tokens.
* `IsFormula.exists_parseAll`: it refuses no formula.

Both follow its functions call by call.  `ReadsFormulas` says what their results are, whatever the
number of steps; `Phrase.IsParsed` says that they have one if there are steps enough for the tokens.
-/

namespace LessonCalc.Formula

theorem exists_of_bind_eq_ok {ε α β : Type} {x : Except ε α} {next : α → Except ε β} {b : β}
    (ok : (x >>= next) = .ok b) : ∃ a, x = .ok a ∧ next a = .ok b := by
  cases x with
  | error _ => cases ok
  | ok a => exact ⟨a, rfl, ok⟩

/-- The tokens of lexemes. -/
abbrev tokensIn (lexemes : List Lexeme) : List Token :=
  lexemes.map Lexeme.token

/-! ## What is read is a formula -/

/-- The functions of the strict reader give what the grammar allows, if they may take these steps. -/
structure ReadsFormulas (fuel : Nat) : Prop where
  ternary : ∀ {lexemes tree left}, parseTernary fuel lexemes = .ok (tree, left) →
    ∃ used, lexemes = used ++ left ∧ IsFormula (tokensIn used) tree
  links : ∀ {opened lexemes links left}, parseLinks fuel opened lexemes = .ok (links, left) →
    ∃ used, lexemes = used ++ left ∧ Spelled (tokensIn used) links ∧
      unclaimedColon? opened links = none
  level : ∀ {l lexemes tree left}, parseLevel fuel l lexemes = .ok (tree, left) →
    ∃ used, lexemes = used ++ left ∧
      Derives (fun _ => True) (.level l) (tokensIn used) tree false
  operand : ∀ {l lexemes tree left}, parseOperand fuel l lexemes = .ok (tree, left) →
    ∃ used, lexemes = used ++ left ∧
      Derives (fun _ => True) l.operand (tokensIn used) tree false
  more : ∀ {l first lexemes tree left}, parseMore fuel l first lexemes = .ok (tree, left) →
    ∃ used, lexemes = used ++ left ∧
      ∀ before, Derives (fun _ => True) (.level l) before first false →
        Derives (fun _ => True) (.level l) (before ++ tokensIn used) tree false
  unary : ∀ {lexemes tree left}, parseUnary fuel lexemes = .ok (tree, left) →
    ∃ used, lexemes = used ++ left ∧
      Derives (fun _ => True) .unary (tokensIn used) tree false
  atom : ∀ {lexemes tree left}, parseAtom fuel lexemes = .ok (tree, left) →
    ∃ used, lexemes = used ++ left ∧
      Derives (fun _ => True) .atom (tokensIn used) tree false

section Steps

variable {fuel : Nat} {lexemes left : List Lexeme} {tree : Tree}

theorem ReadsFormulas.ternary_succ (fewer : ReadsFormulas fuel)
    (parsed : parseTernary (fuel + 1) lexemes = .ok (tree, left)) :
    ∃ used, lexemes = used ++ left ∧ IsFormula (tokensIn used) tree := by
  simp only [parseTernary] at parsed
  obtain ⟨⟨first, rest⟩, level, parsed⟩ := exists_of_bind_eq_ok parsed
  obtain ⟨⟨links, left⟩, chain, parsed⟩ := exists_of_bind_eq_ok parsed
  cases parsed
  obtain ⟨used, rfl, operand⟩ := fewer.level level
  obtain ⟨used', rfl, spelled, claimed⟩ := fewer.links chain
  refine ⟨used ++ used', by simp, ?_⟩
  rw [tokensIn, List.map_append]
  exact spelled.derives_outermost operand claimed (Nat.le_refl _)

theorem ReadsFormulas.links_succ (fewer : ReadsFormulas fuel) {opened : Nat} {links : Links}
    (parsed : parseLinks (fuel + 1) opened lexemes = .ok (links, left)) :
    ∃ used, lexemes = used ++ left ∧ Spelled (tokensIn used) links ∧
      unclaimedColon? opened links = none := by
  simp only [parseLinks] at parsed
  split at parsed
  · rename_i source rest
    obtain ⟨⟨operand, rest'⟩, level, parsed⟩ := exists_of_bind_eq_ok parsed
    obtain ⟨⟨links, left⟩, chain, parsed⟩ := exists_of_bind_eq_ok parsed
    cases parsed
    obtain ⟨used, rfl, derives⟩ := fewer.level level
    obtain ⟨used', rfl, spelled, claimed⟩ := fewer.links chain
    have chained : Spelled (Mark.question.token :: (tokensIn used ++ tokensIn used'))
        ((.question, operand) :: links) := .cons derives spelled
    refine ⟨⟨.question, source⟩ :: (used ++ used'), by simp, ?_, ?_⟩
    · simpa [tokensIn, Mark.token] using chained
    · simp [unclaimedColon?, claimed]
  · rename_i source rest
    cases opened with
    | zero =>
        cases parsed
        exact ⟨[], rfl, .nil, rfl⟩
    | succ opened =>
        obtain ⟨⟨operand, rest'⟩, level, parsed⟩ := exists_of_bind_eq_ok parsed
        obtain ⟨⟨links, left⟩, chain, parsed⟩ := exists_of_bind_eq_ok parsed
        cases parsed
        obtain ⟨used, rfl, derives⟩ := fewer.level level
        obtain ⟨used', rfl, spelled, claimed⟩ := fewer.links chain
        have chained : Spelled (Mark.colon.token :: (tokensIn used ++ tokensIn used'))
            ((.colon, operand) :: links) := .cons derives spelled
        refine ⟨⟨.colon, source⟩ :: (used ++ used'), by simp, ?_, ?_⟩
        · simpa [tokensIn, Mark.token] using chained
        · simp [unclaimedColon?, claimed]
  · cases parsed
    exact ⟨[], rfl, .nil, rfl⟩

theorem ReadsFormulas.level_succ (fewer : ReadsFormulas fuel) {l : Level}
    (parsed : parseLevel (fuel + 1) l lexemes = .ok (tree, left)) :
    ∃ used, lexemes = used ++ left ∧
      Derives (fun _ => True) (.level l) (tokensIn used) tree false := by
  simp only [parseLevel] at parsed
  obtain ⟨⟨first, rest⟩, operand, more⟩ := exists_of_bind_eq_ok parsed
  obtain ⟨used, rfl, derives⟩ := fewer.operand operand
  obtain ⟨used', rfl, grows⟩ := fewer.more more
  refine ⟨used ++ used', by simp, ?_⟩
  rw [tokensIn, List.map_append]
  exact grows _ (.operand derives)

theorem ReadsFormulas.operand_succ (fewer : ReadsFormulas fuel) {l : Level}
    (parsed : parseOperand (fuel + 1) l lexemes = .ok (tree, left)) :
    ∃ used, lexemes = used ++ left ∧
      Derives (fun _ => True) l.operand (tokensIn used) tree false := by
  cases l with
  | comparison => exact fewer.level parsed
  | additive => exact fewer.level parsed
  | multiplicative => exact fewer.unary parsed

theorem ReadsFormulas.more_succ (fewer : ReadsFormulas fuel) {l : Level} {first : Tree}
    (parsed : parseMore (fuel + 1) l first lexemes = .ok (tree, left)) :
    ∃ used, lexemes = used ++ left ∧
      ∀ before, Derives (fun _ => True) (.level l) before first false →
        Derives (fun _ => True) (.level l) (before ++ tokensIn used) tree false := by
  simp only [parseMore] at parsed
  split at parsed
  · rename_i op source rest
    split at parsed
    · rename_i level
      subst level
      obtain ⟨⟨second, middle⟩, operand, more⟩ := exists_of_bind_eq_ok parsed
      obtain ⟨used, rfl, derives⟩ := fewer.operand operand
      obtain ⟨used', rfl, grows⟩ := fewer.more more
      refine ⟨⟨.operator op, source⟩ :: (used ++ used'), by simp, fun before derives' => ?_⟩
      have whole := grows _ (.binary derives' derives)
      simpa [tokensIn] using whole
    · cases parsed
      exact ⟨[], rfl, fun before derives => by simpa using derives⟩
  · cases parsed
    exact ⟨[], rfl, fun before derives => by simpa using derives⟩

theorem ReadsFormulas.unary_succ (fewer : ReadsFormulas fuel)
    (parsed : parseUnary (fuel + 1) lexemes = .ok (tree, left)) :
    ∃ used, lexemes = used ++ left ∧
      Derives (fun _ => True) .unary (tokensIn used) tree false := by
  simp only [parseUnary] at parsed
  split at parsed
  · rename_i source rest
    obtain ⟨⟨operand, left⟩, atom, parsed⟩ := exists_of_bind_eq_ok parsed
    cases parsed
    obtain ⟨used, rfl, derives⟩ := fewer.atom atom
    exact ⟨⟨.operator .sub, source⟩ :: used, rfl, .negate derives⟩
  · obtain ⟨used, rfl, derives⟩ := fewer.atom parsed
    exact ⟨used, rfl, .atom derives⟩

theorem ReadsFormulas.atom_succ (fewer : ReadsFormulas fuel)
    (parsed : parseAtom (fuel + 1) lexemes = .ok (tree, left)) :
    ∃ used, lexemes = used ++ left ∧
      Derives (fun _ => True) .atom (tokensIn used) tree false := by
  simp only [parseAtom] at parsed
  split at parsed
  · rename_i text source rest
    cases parsed
    exact ⟨[⟨.number text, source⟩], rfl, .number⟩
  · rename_i text source rest
    cases parsed
    exact ⟨[⟨.name text, source⟩], rfl, .name⟩
  · rename_i source rest
    obtain ⟨⟨inner, left⟩, ternary, closed⟩ := exists_of_bind_eq_ok parsed
    obtain ⟨used, rfl, _, derives⟩ := fewer.ternary ternary
    split at closed
    · rename_i source' left' same
      cases same
      cases closed
      refine ⟨⟨.openParen, source⟩ :: (used ++ [⟨.closeParen, source'⟩]), by simp, ?_⟩
      simpa [tokensIn] using Derives.paren derives
    · cases closed
  · cases parsed

end Steps

theorem readsFormulas (fuel : Nat) : ReadsFormulas fuel := by
  induction fuel with
  | zero =>
      exact
        { ternary := fun parsed => by cases parsed
          links := fun parsed => by cases parsed; exact ⟨[], rfl, .nil, rfl⟩
          level := fun parsed => by cases parsed
          operand := fun parsed => by cases parsed
          more := fun parsed => by
            cases parsed
            exact ⟨[], rfl, fun before derives => by simpa using derives⟩
          unary := fun parsed => by cases parsed
          atom := fun parsed => by cases parsed }
  | succ fuel fewer =>
      exact
        { ternary := fewer.ternary_succ
          links := fewer.links_succ
          level := fewer.level_succ
          operand := fewer.operand_succ
          more := fewer.more_succ
          unary := fewer.unary_succ
          atom := fewer.atom_succ }

/-- The tree that the strict reader gives is a tree of the tokens. -/
theorem isFormula_of_parseAll {lexemes : List Lexeme} {tree : Tree}
    (parsed : parseAll lexemes = .ok tree) : IsFormula (tokensIn lexemes) tree := by
  unfold parseAll at parsed
  split at parsed
  · cases parsed
  · rename_i tree' ran
    cases parsed
    obtain ⟨used, rfl, formula⟩ := (readsFormulas _).ternary ran
    rw [List.append_nil]
    exact formula
  · cases parsed

/-! ## A formula is read -/

section Enough

variable {fuel n : Nat} {call : Call}

theorem exists_fuel_succ (enough : n + call.height ≤ fuel) : ∃ fewer, fuel = fewer + 1 := by
  have positive := call.height_pos
  exact ⟨fuel - 1, by omega⟩

end Enough

theorem tokensIn_eq_cons {lexemes : List Lexeme} {token : Token} {tokens : List Token}
    (same : tokensIn lexemes = token :: tokens) :
    ∃ source rest, lexemes = ⟨token, source⟩ :: rest ∧ tokensIn rest = tokens := by
  obtain ⟨⟨_, source⟩, rest, rfl, rfl, rest_same⟩ := List.map_eq_cons_iff.mp same
  exact ⟨source, rest, rfl, rest_same⟩

/-- With steps enough, these lexemes are read as a comparison up to what is no operator. -/
def ReadsComparison (lexemes : List Lexeme) (tree : Tree) : Prop :=
  ∀ rest fuel, NoOperator (tokensIn rest) →
    10 * (lexemes ++ rest).length + (Call.level .comparison).height ≤ fuel →
    parseLevel fuel .comparison (lexemes ++ rest) = .ok (tree, rest)

/-- With steps enough, these lexemes are read as the marks of a chain, and `opened` of their question
marks are still open after them.  What is read of the chain after them is left open. -/
structure ReadsMarks (lexemes : List Lexeme) (own : Links) (opened : Nat) : Prop where
  noOperator : ∀ rest, NoOperator (tokensIn rest) → NoOperator (tokensIn (lexemes ++ rest))
  reads : ∀ before rest links left, NoOperator (tokensIn rest) →
    (∀ fuel, 10 * rest.length < fuel →
      parseLinks fuel (before + opened) rest = .ok (links, left)) →
    ∀ fuel, 10 * (lexemes ++ rest).length < fuel →
      parseLinks fuel before (lexemes ++ rest) = .ok (own ++ links, left)

/-- The strict reader, with steps enough for its tokens, reads these lexemes as a phrase, whatever
follows that cannot go on with it.  As for the tolerant reader, the outcome for a level is left open
and what is told is how the operators after the phrase are read.  So it is for a ternary, which is a
comparison and the marks of a chain. -/
def Phrase.IsParsed : Phrase → List Lexeme → Prop
  | .ternary, lexemes =>
    ∃ cs first marks own opened, lexemes = cs ++ marks ∧ ReadsComparison cs first ∧
      ReadsMarks marks own opened
  | .level l, lexemes =>
    ∃ first, ∀ rest result, NoTighter l (tokensIn rest) →
      (∀ fuel, 10 * rest.length < fuel → parseMore fuel l first rest = .ok result) →
      ∀ fuel, 10 * (lexemes ++ rest).length + (Call.level l).height ≤ fuel →
        parseLevel fuel l (lexemes ++ rest) = .ok result
  | .unary, lexemes =>
    ∃ tree, ∀ rest fuel, 10 * (lexemes ++ rest).length + Call.unary.height ≤ fuel →
      parseUnary fuel (lexemes ++ rest) = .ok (tree, rest)
  | .atom, lexemes =>
    ∃ tree, ∀ rest fuel, 10 * (lexemes ++ rest).length + Call.primary.height ≤ fuel →
      (tokensIn (lexemes ++ rest)).head? ≠ some (.operator .sub) ∧
        parseAtom fuel (lexemes ++ rest) = .ok (tree, rest)

/-! ### Where the loops stop -/

theorem parseMore_of_ne {l : Level} {rest : List Lexeme}
    (stops : ∀ op, (tokensIn rest).head? = some (.operator op) → op.level ≠ l) (first : Tree)
    (fuel : Nat) : parseMore fuel l first rest = .ok (first, rest) := by
  cases fuel with
  | zero => rfl
  | succ fuel =>
      simp only [parseMore]
      split
      · rename_i op _ _
        rw [if_neg (stops op rfl)]
      · rfl

theorem NoTighter.parseMore {l l' : Level} {rest : List Lexeme}
    (stops : NoTighter l (tokensIn rest)) (tighter : l.rank < l'.rank) (first : Tree)
    (fuel : Nat) : parseMore fuel l' first rest = .ok (first, rest) := by
  refine parseMore_of_ne (fun op next level => ?_) first fuel
  have le := stops op next
  rw [level] at le
  omega

theorem Ends.parseLinks {rest : List Lexeme} (ends : Ends true (tokensIn rest))
    (fuel opened : Nat) : parseLinks fuel opened rest = .ok ([], rest) := by
  cases fuel with
  | zero => rfl
  | succ fuel =>
      simp only [LessonCalc.Formula.parseLinks]
      split
      · exact absurd rfl ends.noQuestion
      · exact absurd rfl (ends.noColon rfl)
      · rfl

/-! ### Phrases in their places -/

namespace Phrase.IsParsed

variable {lexemes : List Lexeme}

/-- An operand of a level is read up to the operators of the level. -/
theorem operand {l : Level} (isParsed : IsParsed l.operand lexemes) :
    ∃ tree, ∀ rest fuel, NoTighter l (tokensIn rest) →
      10 * (lexemes ++ rest).length + (Call.operand l).height ≤ fuel →
      parseOperand fuel l (lexemes ++ rest) = .ok (tree, rest) := by
  cases l with
  | comparison =>
      obtain ⟨first, reads⟩ := isParsed
      refine ⟨first, fun rest fuel stops enough => ?_⟩
      obtain ⟨fuel, rfl⟩ := exists_fuel_succ enough
      refine reads rest _ ?_ (fun fuel _ => stops.parseMore (by decide) first fuel) fuel ?_
      · exact fun op next => Nat.le_trans (stops op next) (Nat.le_succ 0)
      · exact Nat.le_of_succ_le_succ enough
  | additive =>
      obtain ⟨first, reads⟩ := isParsed
      refine ⟨first, fun rest fuel stops enough => ?_⟩
      obtain ⟨fuel, rfl⟩ := exists_fuel_succ enough
      refine reads rest _ ?_ (fun fuel _ => stops.parseMore (by decide) first fuel) fuel ?_
      · exact fun op next => Nat.le_trans (stops op next) (Nat.le_succ 1)
      · exact Nat.le_of_succ_le_succ enough
  | multiplicative =>
      obtain ⟨tree, reads⟩ := isParsed
      refine ⟨tree, fun rest fuel _ enough => ?_⟩
      obtain ⟨fuel, rfl⟩ := exists_fuel_succ enough
      exact reads rest fuel (Nat.le_of_succ_le_succ enough)

/-- A comparison is read up to what is no operator. -/
theorem comparison (isParsed : IsParsed (.level .comparison) lexemes) :
    ∃ tree, ReadsComparison lexemes tree := by
  obtain ⟨first, reads⟩ := isParsed
  refine ⟨first, fun rest fuel none enough => ?_⟩
  refine reads rest _ (none.noTighter _) (fun fuel _ => ?_) fuel enough
  exact parseMore_of_ne (fun op next => absurd next (none op)) first fuel

/-- A ternary is read up to what cannot go on with it. -/
theorem ternary (isParsed : IsParsed .ternary lexemes) :
    ∃ tree, ∀ rest fuel, Ends true (tokensIn rest) →
      10 * (lexemes ++ rest).length + Call.ternary.height ≤ fuel →
      parseTernary fuel (lexemes ++ rest) = .ok (tree, rest) := by
  obtain ⟨cs, first, marks, own, opened, rfl, comparison, chain⟩ := isParsed
  refine ⟨outermost first own, fun rest fuel ends enough => ?_⟩
  obtain ⟨fuel, rfl⟩ := exists_fuel_succ enough
  simp only [Call.height, List.append_assoc, List.length_append] at enough
  have level := comparison (marks ++ rest) fuel (chain.noOperator rest ends.noOperator)
    (by simp only [Call.height, List.length_append]; omega)
  have links := chain.reads 0 rest [] rest ends.noOperator
    (fun fuel _ => ends.parseLinks fuel _) fuel (by simp only [List.length_append]; omega)
  rw [List.append_assoc, parseTernary, level]
  simp [bind, Except.bind, links, pure, Except.pure]

end Phrase.IsParsed

/-! ### Marks one after the other -/

namespace ReadsMarks

variable {lexemes marks cs marks' : List Lexeme} {own own' : Links} {opened opened' : Nat}
  {operand : Tree}

theorem nil : ReadsMarks [] [] 0 where
  noOperator _ none := none
  reads _ _ _ _ _ next := next

/-- A question mark and its operand before the marks of a chain. -/
theorem question (source : List Char) (comparison : ReadsComparison cs operand)
    (chain : ReadsMarks marks own opened) :
    ReadsMarks (⟨.question, source⟩ :: (cs ++ marks)) ((.question, operand) :: own)
      (opened + 1) where
  noOperator rest _ op next := by cases next
  reads before rest links left none next fuel enough := by
    obtain ⟨fuel, rfl⟩ := Nat.exists_eq_add_one.mpr (Nat.zero_lt_of_lt enough)
    simp only [List.cons_append, List.append_assoc, List.length_cons, List.length_append]
      at enough ⊢
    have level := comparison (marks ++ rest) fuel (chain.noOperator rest none)
      (by simp only [Call.height, List.length_append]; omega)
    have more := chain.reads (before + 1) rest links left none
      (fun fuel enough => by rw [Nat.add_right_comm]; exact next fuel enough) fuel
      (by simp only [List.length_append]; omega)
    simp [parseLinks, level, more, bind, Except.bind, pure, Except.pure]

/-- A colon and its operand between the marks of two chains, the first of which leaves a question mark
open. -/
theorem colon (source : List Char) (front : ReadsMarks lexemes own (opened + 1))
    (comparison : ReadsComparison cs operand) (back : ReadsMarks marks own' opened') :
    ReadsMarks (lexemes ++ ⟨.colon, source⟩ :: (cs ++ marks))
      (own ++ (.colon, operand) :: own') (opened + opened') where
  noOperator rest none := by
    rw [List.append_assoc, List.cons_append]
    exact front.noOperator _ fun op next => by cases next
  reads before rest links left none next fuel enough := by
    rw [List.append_assoc, List.cons_append, List.append_assoc] at enough ⊢
    rw [List.append_assoc, List.cons_append]
    refine front.reads before _ _ left (fun op next => by cases next) (fun fuel enough => ?_) fuel
      enough
    obtain ⟨fuel, rfl⟩ := Nat.exists_eq_add_one.mpr (Nat.zero_lt_of_lt enough)
    simp only [List.length_cons, List.length_append] at enough
    have level := comparison (marks ++ rest) fuel (back.noOperator rest none)
      (by simp only [Call.height, List.length_append]; omega)
    have more := back.reads (before + opened) rest links left none
      (fun fuel enough => by rw [Nat.add_assoc]; exact next fuel enough) fuel
      (by simp only [List.length_append]; omega)
    simp [parseLinks, level, more, bind, Except.bind, pure, Except.pure]

end ReadsMarks

/-! ### Every phrase is read -/

/-- The strict reader reads every phrase that can be derived. -/
theorem Derives.isParsed {Takes : Bool → Prop} {phrase : Phrase} {tokens : List Token}
    {tree : Tree} {dangles : Bool} (derives : Derives Takes phrase tokens tree dangles) :
    ∀ lexemes, tokensIn lexemes = tokens → phrase.IsParsed lexemes := by
  induction derives with
  | @number run =>
      intro lexemes same
      obtain ⟨source, _, rfl, none⟩ := tokensIn_eq_cons same
      cases List.map_eq_nil_iff.mp none
      refine ⟨.number run, fun rest fuel enough => ⟨by simp, ?_⟩⟩
      obtain ⟨fuel, rfl⟩ := exists_fuel_succ enough
      rfl
  | @name text =>
      intro lexemes same
      obtain ⟨source, _, rfl, none⟩ := tokensIn_eq_cons same
      cases List.map_eq_nil_iff.mp none
      refine ⟨.name text, fun rest fuel enough => ⟨by simp, ?_⟩⟩
      obtain ⟨fuel, rfl⟩ := exists_fuel_succ enough
      rfl
  | paren _ ih =>
      intro lexemes same
      obtain ⟨source, _, rfl, inside⟩ := tokensIn_eq_cons same
      obtain ⟨lexemes, last, rfl, inner, final⟩ := List.map_eq_append_iff.mp inside
      obtain ⟨source', _, rfl, none⟩ := tokensIn_eq_cons final
      cases List.map_eq_nil_iff.mp none
      obtain ⟨tree, reads⟩ := (ih lexemes inner).ternary
      refine ⟨tree, fun rest fuel enough => ⟨by simp, ?_⟩⟩
      obtain ⟨fuel, rfl⟩ := exists_fuel_succ enough
      simp only [Call.height, List.cons_append, List.append_assoc, List.nil_append,
        List.length_cons, List.length_append] at enough reads
      have ran := reads (⟨.closeParen, source'⟩ :: rest) fuel (ends_closeParen true _)
        (by simp only [List.length_cons]; omega)
      simp [parseAtom, ran, bind, Except.bind, pure, Except.pure]
  | atom _ ih =>
      intro lexemes same
      obtain ⟨tree, reads⟩ := ih lexemes same
      refine ⟨tree, fun rest fuel enough => ?_⟩
      obtain ⟨fuel, rfl⟩ := exists_fuel_succ enough
      obtain ⟨noMinus, ran⟩ := reads rest fuel (Nat.le_of_succ_le_succ enough)
      simp only [parseUnary]
      split
      · rename_i starts
        rw [starts] at noMinus
        exact absurd rfl noMinus
      · exact ran
  | negate _ ih =>
      intro lexemes same
      obtain ⟨source, lexemes, rfl, inner⟩ := tokensIn_eq_cons same
      obtain ⟨tree, reads⟩ := ih lexemes inner
      refine ⟨.negate tree, fun rest fuel enough => ?_⟩
      obtain ⟨fuel, rfl⟩ := exists_fuel_succ enough
      simp only [Call.height, List.cons_append, List.length_cons] at enough reads
      obtain ⟨_, ran⟩ := reads rest fuel (by omega)
      simp [parseUnary, ran, bind, Except.bind, pure, Except.pure]
  | @operand l _ _ _ ih =>
      intro lexemes same
      obtain ⟨first, reads⟩ := (ih lexemes same).operand
      refine ⟨first, fun rest result stops more fuel enough => ?_⟩
      obtain ⟨fuel, rfl⟩ := exists_fuel_succ enough
      rw [Call.height_level] at enough
      have ran := reads rest fuel stops (by omega)
      simp only [List.length_append] at enough
      have positive := (Call.operand l).height_pos
      rw [parseLevel, ran]
      exact more fuel (by omega)
  | @binary op _ _ _ _ _ _ left right =>
      intro lexemes same
      obtain ⟨lexemes, last, rfl, inner, final⟩ := List.map_eq_append_iff.mp same
      obtain ⟨source, lexemes', rfl, inner'⟩ := tokensIn_eq_cons final
      obtain ⟨first, reads⟩ := left lexemes inner
      obtain ⟨second, reads'⟩ := (right lexemes' inner').operand
      refine ⟨.binary op first second, fun rest result stops more => ?_⟩
      rw [List.append_assoc, List.cons_append]
      refine reads _ result ?_ fun fuel enough => ?_
      · intro op' next
        cases next
        exact Nat.le_refl _
      · obtain ⟨fuel, rfl⟩ := Nat.exists_eq_add_one.mpr (Nat.zero_lt_of_lt enough)
        simp only [List.length_cons, List.length_append] at enough reads'
        have low := Call.height_operand_le op.level
        have ran := reads' rest fuel stops (by omega)
        simp only [parseMore, ↓reduceIte, ran]
        exact more fuel (by omega)
  | condition _ ih =>
      intro lexemes same
      obtain ⟨first, comparison⟩ := (ih lexemes same).comparison
      exact ⟨lexemes, first, [], [], 0, by simp, comparison, .nil⟩
  | ifThen _ _ c t =>
      intro lexemes same
      obtain ⟨cs, final, rfl, inner, follow⟩ := List.map_eq_append_iff.mp same
      obtain ⟨source, lexemes, rfl, inner'⟩ := tokensIn_eq_cons follow
      obtain ⟨first, comparison⟩ := (c cs inner).comparison
      obtain ⟨ts, consequent, marks, own, opened, rfl, comparison', chain⟩ := t lexemes inner'
      exact ⟨cs, first, _, _, _, rfl, comparison, chain.question source comparison'⟩
  | ifThenElse _ _ _ _ c t e =>
      intro lexemes same
      obtain ⟨cs, final, rfl, inner, follow⟩ := List.map_eq_append_iff.mp same
      obtain ⟨source, middle, rfl, follow'⟩ := tokensIn_eq_cons follow
      obtain ⟨lexemes, final, rfl, inner', follow''⟩ := List.map_eq_append_iff.mp follow'
      obtain ⟨source', lexemes', rfl, inner''⟩ := tokensIn_eq_cons follow''
      obtain ⟨first, comparison⟩ := (c cs inner).comparison
      obtain ⟨ts, consequent, marks, own, opened, rfl, comparison', chain⟩ := t lexemes inner'
      obtain ⟨es, alternative, marks', own', opened', rfl, comparison'', chain'⟩ :=
        e lexemes' inner''
      have whole := (chain.question source comparison').colon source' comparison'' chain'
      exact ⟨cs, first, _, _, _, by simp, comparison, whole⟩

/-- The strict reader refuses no formula. -/
theorem IsFormula.exists_parseAll {lexemes : List Lexeme} {tree : Tree}
    (formula : IsFormula (tokensIn lexemes) tree) : ∃ tree', parseAll lexemes = .ok tree' := by
  obtain ⟨_, derives⟩ := formula
  obtain ⟨tree', reads⟩ := (derives.isParsed lexemes rfl).ternary
  have ran := reads [] (10 * (lexemes.length + 1)) (ends_nil true)
    (by simp only [Call.height, List.append_nil]; omega)
  rw [List.append_nil] at ran
  exact ⟨tree', by rw [parseAll, ran]⟩

end LessonCalc.Formula
