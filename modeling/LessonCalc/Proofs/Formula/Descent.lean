import LessonCalc.Formula.Reading

/-!
# The descent without a count

`readTernary` and its companions count down a number of steps, so a statement about them has to carry
that number.  `Reads` relates a call of the descent to its outcome with one rule for each way a call
can go, and no number.

* `runsWithin`: a call with a number of steps in proportion to its tokens goes by these rules.
* `Reads.mem_tokens`: what is read names nothing that is not among the tokens.
* `Reads.unique`: the rules leave no choice.
* `read_eq_iff`: so `read` gives exactly the outcome that the rules allow.
-/

namespace LessonCalc.Formula

/-- A call of the descent: what it is about to read. -/
inductive Call where
  | ternary
  | level (l : Level)
  | operand (l : Level)
  | more (l : Level) (first : Reading)
  | unary
  | primary

/-- A token that can start a value. -/
def Token.startsValue : Token → Bool
  | .number _ | .name _ | .openParen => true
  | _ => false

/-- `Reads call tokens reading left`: on `tokens`, `call` makes `reading` and leaves `left`. -/
inductive Reads : Call → List Token → Reading → List Token → Prop
  | condition {tokens c left} :
      Reads (.level .comparison) tokens c left →
      left.head? ≠ some .question →
      Reads .ternary tokens c left
  | ifThen {tokens c rest t left} :
      Reads (.level .comparison) tokens c (.question :: rest) →
      Reads .ternary rest t left →
      left.head? ≠ some .colon →
      Reads .ternary tokens (.ifThen c t) left
  | ifThenElse {tokens c rest t more e left} :
      Reads (.level .comparison) tokens c (.question :: rest) →
      Reads .ternary rest t (.colon :: more) →
      Reads .ternary more e left →
      Reads .ternary tokens (.ifThenElse c t e) left
  | level {l tokens first rest r left} :
      Reads (.operand l) tokens first rest →
      Reads (.more l first) rest r left →
      Reads (.level l) tokens r left
  | comparison {tokens r left} :
      Reads (.level .additive) tokens r left →
      Reads (.operand .comparison) tokens r left
  | additive {tokens r left} :
      Reads (.level .multiplicative) tokens r left →
      Reads (.operand .additive) tokens r left
  | multiplicative {tokens r left} :
      Reads .unary tokens r left →
      Reads (.operand .multiplicative) tokens r left
  | done {l first tokens} :
      (∀ op, tokens.head? = some (.operator op) → op.level ≠ l) →
      Reads (.more l first) tokens first tokens
  | more {l first op rest second middle r left} :
      op.level = l →
      Reads (.operand l) rest second middle →
      Reads (.more l (.binary op first second)) middle r left →
      Reads (.more l first) (.operator op :: rest) r left
  | negate {rest r left} :
      Reads .primary rest r left →
      Reads .unary (.operator .sub :: rest) (.negate r) left
  | primary {tokens r left} :
      tokens.head? ≠ some (.operator .sub) →
      Reads .primary tokens r left →
      Reads .unary tokens r left
  | missing : Reads .primary [] .missing []
  | number {run rest} : Reads .primary (.number run :: rest) (.number run) rest
  | name {text rest} : Reads .primary (.name text :: rest) (.name text) rest
  | closed {rest r left} :
      Reads .ternary rest r (.closeParen :: left) →
      Reads .primary (.openParen :: rest) (.group r true) left
  | unclosed {rest r left} :
      Reads .ternary rest r left →
      left.head? ≠ some .closeParen →
      Reads .primary (.openParen :: rest) (.group r false) left
  | stray {token rest} :
      token.startsValue = false →
      Reads .primary (token :: rest) (.stray token) rest

/-! ## What a call uses -/

/-- What a call leaves are the last of its tokens. -/
theorem Reads.isSuffix {call : Call} {tokens left : List Token} {r : Reading}
    (reads : Reads call tokens r left) : left <:+ tokens := by
  induction reads with
  | condition _ _ ih => exact ih
  | ifThen _ _ _ first second => exact second.trans ((List.suffix_cons _ _).trans first)
  | ifThenElse _ _ _ first second third =>
      exact third.trans ((List.suffix_cons _ _).trans
        (second.trans ((List.suffix_cons _ _).trans first)))
  | level _ _ first second => exact second.trans first
  | comparison _ ih => exact ih
  | additive _ ih => exact ih
  | multiplicative _ ih => exact ih
  | done _ => exact List.suffix_rfl
  | more _ _ _ second more => exact more.trans (second.trans (List.suffix_cons _ _))
  | negate _ ih => exact ih.trans (List.suffix_cons _ _)
  | primary _ _ ih => exact ih
  | missing => exact List.suffix_rfl
  | number => exact List.suffix_cons _ _
  | name => exact List.suffix_cons _ _
  | closed _ ih => exact (List.suffix_cons _ _).trans (ih.trans (List.suffix_cons _ _))
  | unclosed _ _ ih => exact ih.trans (List.suffix_cons _ _)
  | stray _ => exact List.suffix_cons _ _

/-- No call leaves more tokens than it was given. -/
theorem Reads.length_le {call : Call} {tokens left : List Token} {r : Reading}
    (reads : Reads call tokens r left) : left.length ≤ tokens.length :=
  reads.isSuffix.length_le

/-- The names that a call has read before it starts. -/
def Call.names : Call → List String
  | .more _ first => first.names
  | _ => []

/-- The names of a reading stand among the tokens, or were read before. -/
theorem Reads.mem_tokens {call : Call} {tokens left : List Token} {r : Reading}
    (reads : Reads call tokens r left) {name : String} (used : name ∈ r.names) :
    Token.name name ∈ tokens ∨ name ∈ call.names := by
  induction reads with
  | condition _ _ ih => exact ih used
  | ifThen first _ _ c t =>
      rcases List.mem_append.mp used with used | used
      · exact c used
      · have inside := (t used).resolve_right List.not_mem_nil
        exact .inl (first.isSuffix.subset (List.mem_cons_of_mem _ inside))
  | ifThenElse first second _ c t e =>
      rcases List.mem_append.mp used with used | used
      · exact c used
      · rcases List.mem_append.mp used with used | used
        · have inside := (t used).resolve_right List.not_mem_nil
          exact .inl (first.isSuffix.subset (List.mem_cons_of_mem _ inside))
        · have inside := (e used).resolve_right List.not_mem_nil
          have inside' := second.isSuffix.subset (List.mem_cons_of_mem _ inside)
          exact .inl (first.isSuffix.subset (List.mem_cons_of_mem _ inside'))
  | level first _ ih more =>
      rcases more used with inside | before
      · exact .inl (first.isSuffix.subset inside)
      · exact ih before
  | comparison _ ih => exact ih used
  | additive _ ih => exact ih used
  | multiplicative _ ih => exact ih used
  | done _ => exact .inr used
  | more _ second _ ih more =>
      rcases more used with inside | before
      · exact .inl (List.mem_cons_of_mem _ (second.isSuffix.subset inside))
      · rcases List.mem_append.mp before with before | used
        · exact .inr before
        · exact .inl (List.mem_cons_of_mem _ ((ih used).resolve_right List.not_mem_nil))
  | negate _ ih => exact .inl (List.mem_cons_of_mem _ ((ih used).resolve_right List.not_mem_nil))
  | primary _ _ ih => exact ih used
  | name => exact .inl (List.mem_singleton.mp used ▸ List.mem_cons_self)
  | closed _ ih => exact .inl (List.mem_cons_of_mem _ ((ih used).resolve_right List.not_mem_nil))
  | unclosed _ _ ih => exact .inl (List.mem_cons_of_mem _ ((ih used).resolve_right List.not_mem_nil))
  | missing => cases used
  | number => cases used
  | stray _ => cases used

/-! ## The outcome is unique -/

/-- Two outcomes of one call are the same. -/
theorem Reads.unique {call : Call} {tokens left left' : List Token} {r r' : Reading}
    (one : Reads call tokens r left) (other : Reads call tokens r' left') :
    r = r' ∧ left = left' := by
  induction one generalizing r' left' with
  | condition _ stops ih =>
      cases other with
      | condition again _ => exact ih again
      | ifThen again _ _ => exact absurd (congrArg List.head? (ih again).2) stops
      | ifThenElse again _ _ => exact absurd (congrArg List.head? (ih again).2) stops
  | ifThen _ _ stops first second =>
      cases other with
      | condition again stops' =>
          exact absurd (congrArg List.head? (first again).2.symm) stops'
      | ifThen again more _ =>
          obtain ⟨rfl, same⟩ := first again
          cases same
          obtain ⟨rfl, rfl⟩ := second more
          exact ⟨rfl, rfl⟩
      | ifThenElse again more _ =>
          obtain ⟨rfl, same⟩ := first again
          cases same
          exact absurd (congrArg List.head? (second more).2) stops
  | ifThenElse _ _ _ first second third =>
      cases other with
      | condition again stops =>
          exact absurd (congrArg List.head? (first again).2.symm) stops
      | ifThen again more stops =>
          obtain ⟨rfl, same⟩ := first again
          cases same
          exact absurd (congrArg List.head? (second more).2.symm) stops
      | ifThenElse again more last =>
          obtain ⟨rfl, same⟩ := first again
          cases same
          obtain ⟨rfl, same⟩ := second more
          cases same
          obtain ⟨rfl, rfl⟩ := third last
          exact ⟨rfl, rfl⟩
  | level _ _ first second =>
      cases other with
      | level again more =>
          obtain ⟨rfl, rfl⟩ := first again
          exact second more
  | comparison _ ih =>
      cases other with
      | comparison again => exact ih again
  | additive _ ih =>
      cases other with
      | additive again => exact ih again
  | multiplicative _ ih =>
      cases other with
      | multiplicative again => exact ih again
  | done stops =>
      cases other with
      | done _ => exact ⟨rfl, rfl⟩
      | more level _ _ => exact absurd level (stops _ rfl)
  | more level _ _ second more =>
      cases other with
      | done stops => exact absurd level (stops _ rfl)
      | more _ again last =>
          obtain ⟨rfl, rfl⟩ := second again
          exact more last
  | negate _ ih =>
      cases other with
      | negate again =>
          obtain ⟨rfl, rfl⟩ := ih again
          exact ⟨rfl, rfl⟩
      | primary plain _ => exact absurd rfl plain
  | primary plain _ ih =>
      cases other with
      | negate _ => exact absurd rfl plain
      | primary _ again => exact ih again
  | missing =>
      cases other with
      | missing => exact ⟨rfl, rfl⟩
  | number =>
      cases other with
      | number => exact ⟨rfl, rfl⟩
      | stray starts => cases starts
  | name =>
      cases other with
      | name => exact ⟨rfl, rfl⟩
      | stray starts => cases starts
  | closed _ ih =>
      cases other with
      | closed again =>
          obtain ⟨rfl, same⟩ := ih again
          cases same
          exact ⟨rfl, rfl⟩
      | unclosed again stops => exact absurd (congrArg List.head? (ih again).2.symm) stops
      | stray starts => cases starts
  | unclosed _ stops ih =>
      cases other with
      | closed again => exact absurd (congrArg List.head? (ih again).2) stops
      | unclosed again _ =>
          obtain ⟨rfl, rfl⟩ := ih again
          exact ⟨rfl, rfl⟩
      | stray starts => cases starts
  | stray starts =>
      cases other with
      | number => cases starts
      | name => cases starts
      | closed _ => cases starts
      | unclosed _ _ => cases starts
      | stray _ => exact ⟨rfl, rfl⟩

/-! ## Enough steps -/

/-- The outcome of a call that may take a number of steps. -/
def Call.run (fuel : Nat) : Call → List Token → Reading × List Token
  | .ternary, tokens => readTernary fuel tokens
  | .level l, tokens => readLevel fuel l tokens
  | .operand l, tokens => readOperand fuel l tokens
  | .more l first, tokens => readMore fuel l first tokens
  | .unary, tokens => readUnary fuel tokens
  | .primary, tokens => readPrimary fuel tokens

/-- How many calls follow one another, this one included, before a token is used up. -/
def Call.height : Call → Nat
  | .ternary => 9
  | .level .comparison => 8
  | .operand .comparison => 7
  | .level .additive => 6
  | .operand .additive => 5
  | .level .multiplicative => 4
  | .operand .multiplicative => 3
  | .unary => 2
  | .more _ _ | .primary => 1

/-- Every call takes a step. -/
theorem Call.height_pos (call : Call) : 0 < call.height := by
  cases call with
  | level l => cases l <;> decide
  | operand l => cases l <;> decide
  | _ => exact Nat.zero_lt_succ _

theorem Call.height_level (l : Level) : (Call.level l).height = (Call.operand l).height + 1 := by
  cases l <;> rfl

theorem Call.height_operand_le (l : Level) : (Call.operand l).height ≤ 7 := by
  cases l <;> decide

/-- Every call whose tokens need no more than the given steps goes by the rules. -/
def RunsWithin (fuel : Nat) : Prop :=
  ∀ (call : Call) (tokens : List Token),
    10 * tokens.length + call.height ≤ fuel →
    Reads call tokens (call.run fuel tokens).1 (call.run fuel tokens).2

theorem head?_ne_some {α : Type} {l : List α} {a : α} (other : ∀ rest, l = a :: rest → False) :
    l.head? ≠ some a := by
  cases l with
  | nil => simp
  | cons b rest =>
      intro same
      simp only [List.head?_cons, Option.some.injEq] at same
      exact other rest (by rw [same])

section Steps

variable {fuel : Nat} {tokens : List Token} (within : RunsWithin fuel)

include within

theorem reads_ternary_of_within (enough : 10 * tokens.length + Call.ternary.height ≤ fuel + 1) :
    Reads .ternary tokens (readTernary (fuel + 1) tokens).1
      (readTernary (fuel + 1) tokens).2 := by
  simp only [Call.height] at enough
  have first := within (.level .comparison) tokens (by simp only [Call.height]; omega)
  simp only [Call.run] at first
  have shorter := first.length_le
  simp only [readTernary]
  split
  · rename_i c rest ran
    rw [ran] at first shorter
    simp only [List.length_cons] at shorter
    have second := within .ternary rest (by simp only [Call.height]; omega)
    simp only [Call.run] at second
    have shorter' := second.length_le
    split
    · rename_i t more ran'
      rw [ran'] at second shorter'
      simp only [List.length_cons] at shorter'
      have third := within .ternary more (by simp only [Call.height]; omega)
      exact .ifThenElse first second third
    · rename_i t left other ran'
      rw [ran'] at second
      exact .ifThen first second (head?_ne_some other)
  · rename_i c left other ran
    rw [ran] at first
    exact .condition first (head?_ne_some other)

theorem reads_level_of_within {l : Level}
    (enough : 10 * tokens.length + (Call.level l).height ≤ fuel + 1) :
    Reads (.level l) tokens (readLevel (fuel + 1) l tokens).1
      (readLevel (fuel + 1) l tokens).2 := by
  rw [Call.height_level] at enough
  have first := within (.operand l) tokens (by omega)
  simp only [Call.run] at first
  have shorter := first.length_le
  have positive := (Call.operand l).height_pos
  have second := within (.more l (readOperand fuel l tokens).1) (readOperand fuel l tokens).2
    (by simp only [Call.height]; omega)
  exact .level first second

theorem reads_operand_of_within {l : Level}
    (enough : 10 * tokens.length + (Call.operand l).height ≤ fuel + 1) :
    Reads (.operand l) tokens (readOperand (fuel + 1) l tokens).1
      (readOperand (fuel + 1) l tokens).2 := by
  cases l with
  | comparison =>
      exact .comparison (within (.level .additive) tokens
        (by simp only [Call.height] at enough ⊢; omega))
  | additive =>
      exact .additive (within (.level .multiplicative) tokens
        (by simp only [Call.height] at enough ⊢; omega))
  | multiplicative =>
      exact .multiplicative (within .unary tokens
        (by simp only [Call.height] at enough ⊢; omega))

theorem reads_more_of_within {l : Level} {first : Reading}
    (enough : 10 * tokens.length + (Call.more l first).height ≤ fuel + 1) :
    Reads (.more l first) tokens (readMore (fuel + 1) l first tokens).1
      (readMore (fuel + 1) l first tokens).2 := by
  simp only [Call.height] at enough
  simp only [readMore]
  split
  · rename_i op rest
    simp only [List.length_cons] at enough
    split
    · rename_i level
      have low := Call.height_operand_le l
      have second := within (.operand l) rest (by omega)
      simp only [Call.run] at second
      have shorter := second.length_le
      have last := within (.more l (.binary op first (readOperand fuel l rest).1))
        (readOperand fuel l rest).2 (by simp only [Call.height]; omega)
      exact .more level second last
    · rename_i level
      refine .done fun op' same => ?_
      simp only [List.head?_cons, Option.some.injEq, Token.operator.injEq] at same
      exact same ▸ level
  · rename_i other
    exact .done fun op same => absurd same (head?_ne_some (other op))

theorem reads_unary_of_within (enough : 10 * tokens.length + Call.unary.height ≤ fuel + 1) :
    Reads .unary tokens (readUnary (fuel + 1) tokens).1 (readUnary (fuel + 1) tokens).2 := by
  simp only [Call.height] at enough
  simp only [readUnary]
  split
  · rename_i rest
    simp only [List.length_cons] at enough
    exact .negate (within .primary rest (by simp only [Call.height]; omega))
  · rename_i other
    exact .primary (head?_ne_some other) (within .primary tokens (by simp only [Call.height]; omega))

theorem reads_primary_of_within (enough : 10 * tokens.length + Call.primary.height ≤ fuel + 1) :
    Reads .primary tokens (readPrimary (fuel + 1) tokens).1
      (readPrimary (fuel + 1) tokens).2 := by
  simp only [Call.height] at enough
  cases tokens with
  | nil => exact .missing
  | cons token rest =>
      simp only [List.length_cons] at enough
      cases token with
      | number run => exact .number
      | name text => exact .name
      | openParen =>
          have inner := within .ternary rest (by simp only [Call.height]; omega)
          simp only [Call.run] at inner
          simp only [readPrimary]
          split
          · rename_i r left ran
            rw [ran] at inner
            exact .closed inner
          · rename_i r left other ran
            rw [ran] at inner
            exact .unclosed inner (head?_ne_some other)
      | operator op => exact .stray rfl
      | closeParen => exact .stray rfl
      | question => exact .stray rfl
      | colon => exact .stray rfl

end Steps

/-- A number of steps in proportion to the tokens is enough for every call. -/
theorem runsWithin (fuel : Nat) : RunsWithin fuel := by
  induction fuel with
  | zero =>
      intro call tokens enough
      have positive := call.height_pos
      omega
  | succ fuel within =>
      intro call tokens enough
      cases call with
      | ternary => exact reads_ternary_of_within within enough
      | level l => exact reads_level_of_within within enough
      | operand l => exact reads_operand_of_within within enough
      | more l first => exact reads_more_of_within within enough
      | unary => exact reads_unary_of_within within enough
      | primary => exact reads_primary_of_within within enough

/-- `read` goes by the rules. -/
theorem reads_read (tokens : List Token) :
    Reads .ternary tokens (read tokens).1 (read tokens).2 :=
  runsWithin _ .ternary tokens (by simp only [Call.height, stepsFor]; omega)

/-- `read` gives exactly the outcome that the rules allow. -/
theorem read_eq_iff {tokens left : List Token} {r : Reading} :
    read tokens = (r, left) ↔ Reads .ternary tokens r left := by
  constructor
  · intro ran
    have reads := reads_read tokens
    rw [ran] at reads
    exact reads
  · intro reads
    obtain ⟨same, same'⟩ := (reads_read tokens).unique reads
    rw [← same, ← same']

end LessonCalc.Formula
