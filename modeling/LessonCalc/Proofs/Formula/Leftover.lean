import LessonCalc.Proofs.Formula.Cursor
import LessonCalc.Proofs.Formula.Refusal

/-!
# What is left behind a formula

The descent may come to an end before the tokens do.  The tokens behind it are dropped without a word, so
it matters where that happens: never before an operator or a question mark, and the tokens that were used
up have the same value without those behind them.

* `Reads.stops`: what a call leaves does not start with an operator that it would go on with.
* `Reads.cut`: a call reads its tokens in the same way without the last of those that it leaves.
* `hasWalked`: a walk of the cursor that comes to an end goes by the rules of the descent.
* `walk_leftover`: so where the cursor stops no operator and no question mark is dropped, and the tokens
  before it are evaluated in the same way on their own.
-/

namespace LessonCalc.Formula

/-! ## Where calls stop -/

/-- The tokens that a call leaves do not start with one that it would go on with.  For the operators behind
a value this holds if no tighter one stood there. -/
def Call.Stops : Call → List Token → List Token → Prop
  | .ternary, _, left => NoOperator left ∧ left.head? ≠ some .question
  | .level l, _, left => Looser l left
  | .operand l, _, left => NoTighter l left
  | .more l _, tokens, left => NoTighter l tokens → Looser l left
  | .unary, _, _ => True
  | .primary, _, _ => True

section Calls

variable {call : Call} {tokens left : List Token} {r : Reading}

/-- A call stops before no operator that it would go on with. -/
theorem Reads.stops (reads : Reads call tokens r left) : call.Stops tokens left := by
  induction reads with
  | condition _ stops looser =>
      exact ⟨fun op next => absurd (looser op next) (Nat.not_lt_zero _), stops⟩
  | ifThen _ _ _ _ consequent => exact consequent
  | ifThenElse _ _ _ _ _ alternative => exact alternative
  | level _ _ noTighter looser => exact looser noTighter
  | comparison _ looser => exact fun op next => Nat.le_of_lt_succ (looser op next)
  | additive _ looser => exact fun op next => Nat.le_of_lt_succ (looser op next)
  | multiplicative _ _ =>
      intro op _
      cases op <;> decide
  | done stops =>
      intro noTighter op next
      refine Nat.lt_of_le_of_ne (noTighter op next) fun same => stops op next ?_
      exact Level.rank_inj same
  | more _ _ _ noTighter looser => exact fun _ => looser noTighter
  | negate _ _ => trivial
  | primary _ _ _ => trivial
  | missing => trivial
  | number => trivial
  | name => trivial
  | closed _ _ => trivial
  | unclosed _ _ _ => trivial
  | stray _ => trivial

/-- What stands at the front of tokens stands there with others behind them. -/
theorem head?_append_of_head? {front : List Token} (back : List Token) {token : Token}
    (first : front.head? = some token) : (front ++ back).head? = some token := by
  cases front with
  | nil => cases first
  | cons _ _ => exact first

/-- Without the last of the tokens that it leaves, a call reads the others in the same way. -/
theorem Reads.cut (reads : Reads call tokens r left) {kept dropped : List Token}
    (split : left = kept ++ dropped) : ∃ used, tokens = used ++ dropped ∧ Reads call used r kept := by
  induction reads generalizing kept with
  | condition _ stops ih =>
      obtain ⟨used, rfl, reads⟩ := ih split
      subst split
      exact ⟨used, rfl, .condition reads fun next => stops (head?_append_of_head? dropped next)⟩
  | ifThen _ _ stops first second =>
      obtain ⟨rest, rfl, consequent⟩ := second split
      obtain ⟨used, rfl, condition⟩ := @first (.question :: rest) rfl
      subst split
      exact ⟨used, rfl,
        .ifThen condition consequent fun next => stops (head?_append_of_head? dropped next)⟩
  | ifThenElse _ _ _ first second third =>
      obtain ⟨more, rfl, alternative⟩ := third split
      obtain ⟨rest, rfl, consequent⟩ := @second (.colon :: more) rfl
      obtain ⟨used, rfl, condition⟩ := @first (.question :: rest) rfl
      exact ⟨used, rfl, .ifThenElse condition consequent alternative⟩
  | level _ _ first second =>
      obtain ⟨rest, rfl, operators⟩ := second split
      obtain ⟨used, rfl, operand⟩ := first rfl
      exact ⟨used, rfl, .level operand operators⟩
  | comparison _ ih =>
      obtain ⟨used, rfl, reads⟩ := ih split
      exact ⟨used, rfl, .comparison reads⟩
  | additive _ ih =>
      obtain ⟨used, rfl, reads⟩ := ih split
      exact ⟨used, rfl, .additive reads⟩
  | multiplicative _ ih =>
      obtain ⟨used, rfl, reads⟩ := ih split
      exact ⟨used, rfl, .multiplicative reads⟩
  | done stops =>
      subst split
      exact ⟨kept, rfl, .done fun op next => stops op (head?_append_of_head? dropped next)⟩
  | @more _ _ op _ _ _ _ _ level _ _ second last =>
      obtain ⟨middle, rfl, operators⟩ := last split
      obtain ⟨used, rfl, operand⟩ := second rfl
      exact ⟨.operator op :: used, rfl, .more level operand operators⟩
  | negate _ ih =>
      obtain ⟨used, rfl, reads⟩ := ih split
      exact ⟨.operator .sub :: used, rfl, .negate reads⟩
  | primary plain _ ih =>
      obtain ⟨used, rfl, reads⟩ := ih split
      exact ⟨used, rfl, .primary (fun next => plain (head?_append_of_head? dropped next)) reads⟩
  | missing =>
      obtain ⟨rfl, rfl⟩ := List.nil_eq_append_iff.mp split
      exact ⟨[], rfl, .missing⟩
  | number =>
      subst split
      exact ⟨_ :: kept, rfl, .number⟩
  | name =>
      subst split
      exact ⟨_ :: kept, rfl, .name⟩
  | closed _ ih =>
      subst split
      obtain ⟨used, rfl, reads⟩ := @ih (.closeParen :: kept) rfl
      exact ⟨.openParen :: used, rfl, .closed reads⟩
  | unclosed _ stops ih =>
      obtain ⟨used, rfl, reads⟩ := ih split
      subst split
      exact ⟨.openParen :: used, rfl,
        .unclosed reads fun next => stops (head?_append_of_head? dropped next)⟩
  | stray starts =>
      subst split
      exact ⟨_ :: kept, rfl, .stray starts⟩

end Calls

/-! ## Where walks end -/

/-- A computation that came to an end came to an end in its first part. -/
theorem Walk.exists_of_bind_eq_ok {α β : Type} {first : Walk α} {more : α → Walk β} {b : β}
    {position p : Nat} (ran : (first >>= more) position = .ok (b, p)) :
    ∃ a q, first position = .ok (a, q) ∧ more a q = .ok (b, p) := by
  have opened : (first >>= more) position = (first position).bind fun r => more r.1 r.2 := rfl
  rw [opened] at ran
  cases stopped : first position with
  | error fault =>
      rw [stopped] at ran
      cases ran
  | ok out =>
      rw [stopped] at ran
      exact ⟨out.1, out.2, rfl, ran⟩

/-- An operation that did not fail leaves the cursor where it is. -/
theorem Walk.lift_eq_ok {α : Type} {x : Except Fault α} {a : α} {position p : Nat}
    (ran : (liftM x : Walk α) position = .ok (a, p)) : x = .ok a ∧ p = position := by
  cases x with
  | error fault => cases ran
  | ok a =>
      cases ran
      exact ⟨rfl, rfl⟩

/-- A name that can be looked up stands for no integer out of range. -/
theorem lookUp_eq_ok {vars : Variables} {name : String} {x : Float} (found : lookUp vars name = .ok x) :
    vars.isOutOfRange name = false ∧ x = vars.value name := by
  cases inRange : vars.isOutOfRange name with
  | false =>
      rw [lookUp_of_inRange inRange] at found
      cases found
      exact ⟨rfl, rfl⟩
  | true =>
      unfold lookUp at found
      unfold Variables.isOutOfRange at inRange
      cases value : vars.get? name with
      | none =>
          rw [value] at inRange
          cases inRange
      | some v =>
          rw [value] at inRange found
          cases number : toNumber v <;> simp_all

/-- From tokens to a position, the cursor has gone by the rules, to the value of what was read, and has met
no name that stands for an integer out of range. -/
def HasWalked (tokens : List Token) (vars : Variables) (call : Call) (rest : List Token) (x : Float)
    (p : Nat) : Prop :=
  ∃ r left, Reads call rest r left ∧ StandsBefore tokens p left ∧ x = r.value vars.value ∧
    ((∀ name ∈ call.names, vars.isOutOfRange name = false) →
      ∀ name ∈ r.names, vars.isOutOfRange name = false)

/-- Every call that comes to an end within the given steps has gone by the rules. -/
def HasWalkedWithin (tokens : List Token) (vars : Variables) (steps : Nat) : Prop :=
  ∀ (call : Call) {position : Nat} {rest : List Token} {x : Float} {p : Nat},
    StandsBefore tokens position rest → call.walk tokens vars steps position = .ok (x, p) →
    HasWalked tokens vars call rest x p

section Steps

variable {tokens rest : List Token} {vars : Variables} {steps position p : Nat} {x : Float}
  (within : HasWalkedWithin tokens vars steps) (stands : StandsBefore tokens position rest)

include within stands

theorem hasWalked_ternary (ran : walkTernary tokens vars (steps + 1) position = .ok (x, p)) :
    HasWalked tokens vars .ternary rest x p := by
  rw [walkTernary] at ran
  obtain ⟨_, q, condition, ran⟩ := Walk.exists_of_bind_eq_ok ran
  obtain ⟨c, middle, reads, stands, rfl, inRange⟩ := within (.level .comparison) stands condition
  rw [Walk.bind_of_ok stands.peek_eq] at ran
  by_cases question : middle.head? = some .question
  · obtain ⟨middle, rfl⟩ := List.head?_eq_some_iff.mp question
    rw [if_pos question, Walk.bind_of_ok stands.advance_eq] at ran
    obtain ⟨_, q, consequent, ran⟩ := Walk.exists_of_bind_eq_ok ran
    obtain ⟨t, left, reads', stands, rfl, inRange'⟩ := within .ternary stands.next consequent
    rw [Walk.bind_of_ok stands.peek_eq] at ran
    by_cases colon : left.head? = some .colon
    · obtain ⟨after, rfl⟩ := List.head?_eq_some_iff.mp colon
      rw [if_pos colon, Walk.bind_of_ok stands.advance_eq] at ran
      obtain ⟨_, q, alternative, ran⟩ := Walk.exists_of_bind_eq_ok ran
      obtain ⟨e, left, reads'', stands, rfl, inRange''⟩ := within .ternary stands.next alternative
      cases ran
      exact ⟨.ifThenElse c t e, left, .ifThenElse reads reads' reads'', stands, rfl, fun none =>
        List.forall_mem_append.mpr ⟨inRange none,
          List.forall_mem_append.mpr ⟨inRange' none, inRange'' none⟩⟩⟩
    · rw [if_neg colon] at ran
      cases ran
      exact ⟨.ifThen c t, left, .ifThen reads reads' colon, stands, rfl, fun none =>
        List.forall_mem_append.mpr ⟨inRange none, inRange' none⟩⟩
  · rw [if_neg question] at ran
    cases ran
    exact ⟨c, middle, .condition reads question, stands, rfl, inRange⟩

theorem hasWalked_level {l : Level} (ran : walkLevel tokens vars (steps + 1) l position = .ok (x, p)) :
    HasWalked tokens vars (.level l) rest x p := by
  rw [walkLevel] at ran
  obtain ⟨_, q, operand, ran⟩ := Walk.exists_of_bind_eq_ok ran
  obtain ⟨first, middle, reads, stands, rfl, inRange⟩ := within (.operand l) stands operand
  obtain ⟨r, left, reads', stands, rfl, inRange'⟩ := within (.more l first) stands ran
  exact ⟨r, left, .level reads reads', stands, rfl, fun none => inRange' (inRange none)⟩

theorem hasWalked_operand {l : Level}
    (ran : walkOperand tokens vars (steps + 1) l position = .ok (x, p)) :
    HasWalked tokens vars (.operand l) rest x p := by
  cases l with
  | comparison =>
      rw [walkOperand] at ran
      obtain ⟨r, left, reads, walked⟩ := within (.level .additive) stands ran
      exact ⟨r, left, .comparison reads, walked⟩
  | additive =>
      rw [walkOperand] at ran
      obtain ⟨r, left, reads, walked⟩ := within (.level .multiplicative) stands ran
      exact ⟨r, left, .additive reads, walked⟩
  | multiplicative =>
      rw [walkOperand] at ran
      obtain ⟨r, left, reads, walked⟩ := within .unary stands ran
      exact ⟨r, left, .multiplicative reads, walked⟩

theorem hasWalked_more {l : Level} {first : Reading}
    (ran : walkMore tokens vars (steps + 1) l (first.value vars.value) position = .ok (x, p)) :
    HasWalked tokens vars (.more l first) rest x p := by
  rw [walkMore, Walk.bind_of_ok stands.peek_eq] at ran
  cases rest with
  | nil =>
      cases ran
      refine ⟨first, [], .done fun _ next => ?_, stands, rfl, id⟩
      cases next
  | cons token rest =>
      cases token with
      | operator op =>
          dsimp only [List.head?_cons] at ran
          by_cases level : op.level = l
          · obtain ⟨apply, function, applied⟩ := Level.exists_function level
            rw [if_pos level, Walk.bind_of_ok stands.advance_eq, Walk.bind_lift_of_ok function] at ran
            obtain ⟨_, q, operand, ran⟩ := Walk.exists_of_bind_eq_ok ran
            obtain ⟨second, middle, reads, stands, rfl, inRange⟩ := within (.operand l) stands.next operand
            rw [Walk.bind_lift_of_ok (applied _ _)] at ran
            obtain ⟨r, left, reads', stands, rfl, inRange'⟩ :=
              within (.more l (.binary op first second)) stands ran
            exact ⟨r, left, .more level reads reads', stands, rfl, fun before =>
              inRange' (List.forall_mem_append.mpr ⟨before, inRange (List.forall_mem_nil _)⟩)⟩
          · rw [if_neg level] at ran
            cases ran
            refine ⟨first, _, .done fun _ next => ?_, stands, rfl, id⟩
            cases next
            exact level
      | _ =>
          cases ran
          refine ⟨first, _, .done fun _ next => ?_, stands, rfl, id⟩
          cases next

theorem hasWalked_unary (ran : walkUnary tokens vars (steps + 1) position = .ok (x, p)) :
    HasWalked tokens vars .unary rest x p := by
  rw [walkUnary, Walk.bind_of_ok stands.peek_eq] at ran
  by_cases minus : rest.head? = some (.operator .sub)
  · obtain ⟨rest, rfl⟩ := List.head?_eq_some_iff.mp minus
    rw [if_pos minus, Walk.bind_of_ok stands.advance_eq] at ran
    obtain ⟨_, q, operand, ran⟩ := Walk.exists_of_bind_eq_ok ran
    obtain ⟨r, left, reads, stands, rfl, inRange⟩ := within .primary stands.next operand
    cases ran
    exact ⟨.negate r, left, .negate reads, stands, rfl, inRange⟩
  · rw [if_neg minus] at ran
    obtain ⟨r, left, reads, walked⟩ := within .primary stands ran
    exact ⟨r, left, .primary minus reads, walked⟩

theorem hasWalked_primary (ran : walkPrimary tokens vars (steps + 1) position = .ok (x, p)) :
    HasWalked tokens vars .primary rest x p := by
  rw [walkPrimary] at ran
  cases rest with
  | nil =>
      rw [Walk.bind_of_ok stands.peek_eq] at ran
      cases ran
      exact ⟨.missing, [], .missing, stands, rfl, id⟩
  | cons token rest =>
      rw [Walk.bind_of_ok stands.peek_cons] at ran
      dsimp only at ran
      rw [Walk.bind_of_ok stands.advance_eq] at ran
      cases token with
      | number run =>
          cases ran
          exact ⟨.number run, rest, .number, stands.next, rfl, id⟩
      | name text =>
          obtain ⟨found, rfl⟩ := Walk.lift_eq_ok ran
          obtain ⟨inRange, rfl⟩ := lookUp_eq_ok found
          refine ⟨.name text, rest, .name, stands.next, rfl, fun _ => ?_⟩
          exact List.forall_mem_singleton.mpr inRange
      | openParen =>
          obtain ⟨_, q, inner, ran⟩ := Walk.exists_of_bind_eq_ok ran
          obtain ⟨r, left, reads, stands, rfl, inRange⟩ := within .ternary stands.next inner
          rw [Walk.bind_of_ok stands.peek_eq] at ran
          by_cases closes : left.head? = some .closeParen
          · obtain ⟨left, rfl⟩ := List.head?_eq_some_iff.mp closes
            rw [if_pos closes, Walk.bind_of_ok stands.advance_eq] at ran
            cases ran
            exact ⟨.group r true, left, .closed reads, stands.next, rfl, inRange⟩
          · rw [if_neg closes] at ran
            cases ran
            exact ⟨.group r false, left, .unclosed reads closes, stands, rfl, inRange⟩
      | _ =>
          cases ran
          exact ⟨.stray _, rest, .stray rfl, stands.next, rfl, id⟩

end Steps

/-- Along the cursor, a call that comes to an end has gone by the rules, in however many steps. -/
theorem hasWalked (tokens : List Token) (vars : Variables) (steps : Nat) :
    HasWalkedWithin tokens vars steps := by
  induction steps with
  | zero =>
      intro call position rest x p stands ran
      cases call <;> cases ran
  | succ steps within =>
      intro call position rest x p stands ran
      cases call with
      | ternary => exact hasWalked_ternary within stands ran
      | level l => exact hasWalked_level within stands ran
      | operand l => exact hasWalked_operand within stands ran
      | more l first => exact hasWalked_more within stands ran
      | unary => exact hasWalked_unary within stands ran
      | primary => exact hasWalked_primary within stands ran

/-! ## Formulas -/

/-- Where a walk has come to an end before its tokens do, the next token is a number, a name, a parenthesis
or a colon.  The tokens before it are walked to their end with the same value, read in the same way and
shown as the same number. -/
theorem walk_leftover (limit : Nat) {tokens : List Token} {vars : Variables} {steps p : Nat} {x : Float}
    (ran : Rule.ternary.walk tokens vars steps 0 = .ok (x, p)) (more : p < tokens.length) :
    (∃ token, tokens[p]? = some token ∧
      ((∃ run, token = .number run) ∨ (∃ text, token = .name text) ∨ token = .openParen ∨
        token = .closeParen ∨ token = .colon)) ∧
    (tokens.take p).length = p ∧
    (∀ steps', stepsFor (tokens.take p) ≤ steps' →
      Rule.ternary.walk (tokens.take p) vars steps' 0 = .ok (x, p)) ∧
    read (tokens.take p) = ((read tokens).1, []) ∧
    evaluateTokens limit (tokens.take p) vars = evaluateTokens limit tokens vars := by
  have start : StandsBefore tokens 0 tokens := .of_le (Nat.zero_le _)
  obtain ⟨r, left, reads, stands, rfl, inRange⟩ := hasWalked tokens vars steps .ternary start ran
  have place := stands.place
  obtain ⟨noOperator, noQuestion⟩ := reads.stops
  obtain ⟨used, split, alone⟩ := reads.cut (List.nil_append left).symm
  have length : used.length = p := by
    rw [split, List.length_append] at place
    omega
  have front : tokens.take p = used := by rw [split, ← length, List.take_left]
  rw [front, read_eq_iff.mpr reads, read_eq_iff.mpr alone]
  refine ⟨?_, length, fun steps' enough => ?_, rfl, ?_⟩
  · have next : left.head? = tokens[p]? := by rw [← stands.drop, List.head?_drop]
    obtain ⟨token, here⟩ : ∃ token, tokens[p]? = some token := ⟨_, List.getElem?_eq_getElem more⟩
    rw [here] at next
    refine ⟨token, here, ?_⟩
    cases token with
    | number run => exact .inl ⟨run, rfl⟩
    | name text => exact .inr (.inl ⟨text, rfl⟩)
    | operator op => exact absurd next (noOperator op)
    | openParen => exact .inr (.inr (.inl rfl))
    | closeParen => exact .inr (.inr (.inr (.inl rfl)))
    | question => exact absurd next noQuestion
    | colon => exact .inr (.inr (.inr (.inr rfl)))
  · have walks : Walks used vars _ used r [] :=
      alone.walks_of_names (inRange (List.forall_mem_nil _))
    obtain ⟨p', stands', ran'⟩ := walks steps' 0
      (by simp only [stepsFor, Call.height] at enough ⊢; omega) (.of_le (Nat.zero_le _))
    have place' := stands'.place
    rw [List.length_nil, Nat.add_zero, length] at place'
    rw [← place']
    exact ran'
  · simp only [evaluateTokens, read_eq_iff.mpr reads, read_eq_iff.mpr alone]

/-- A product stops before a name in parentheses that stay open.  The name behind it is not looked up, so it
makes no difference that no number stands for it. -/
theorem walk_leftover_product :
    let tokens := tokenize "2 * (a b) - 1"
    let vars : Variables := [("a", .float 3.0), ("b", .string "none")]
    Rule.ternary.walk tokens vars 90 0 = .ok (6.0, 4) ∧ 4 < tokens.length ∧
      tokens[4]? = some (.name "b") ∧
      Rule.ternary.walk (tokens.take 4) vars 60 0 = .ok (6.0, 4) ∧
      evaluateTokens 960 (tokens.take 4) vars = evaluateTokens 960 tokens vars := by
  intro tokens vars
  have spelled : tokens = [.number "2", .operator .mul, .openParen, .name "a", .name "b", .closeParen,
      .operator .sub, .number "1"] := by
    change tokenize "2 * (a b) - 1" = _
    cbv
  have ran : Rule.ternary.walk tokens vars 90 0 = .ok (6.0, 4) := by
    rw [spelled]
    rfl
  have more : 4 < tokens.length := by
    rw [spelled]
    decide
  have next : tokens[4]? = some (.name "b") := by
    rw [spelled]
    rfl
  obtain ⟨-, length, alone, -, same⟩ := walk_leftover 960 ran more
  have enough : stepsFor (tokens.take 4) ≤ 60 := by
    rw [stepsFor, length]
    decide
  exact ⟨ran, more, next, alone 60 enough, same⟩

end LessonCalc.Formula
