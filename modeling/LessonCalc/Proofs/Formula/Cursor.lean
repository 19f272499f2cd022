import LessonCalc.Proofs.Formula.Value

/-!
# Evaluation along a cursor

The value of a formula is defined from its reading, where nothing can go wrong.  Here the value is
computed in one pass, by a cursor that moves over the tokens, and with operations that fail where they
are not defined: a token is taken where none is left, an operator has no comparison, a number is divided
by zero, a remainder is taken of numbers that have none, a name stands for an integer out of range.

* `guardedQuotient_eq`, `guardedRemainder_eq`, `Level.exists_function`: the checks before them keep the
  operations where they are defined.
* `Reads.length_lt`: every rule of the grammar uses up a token if there is one.
* `Reads.walks`: along the cursor a rule gives the value of what it reads, and never fails.
* `evaluate_walks`: so the evaluation of a formula meets no fault, ends within a number of steps in
  proportion to the tokens, and gives the settled value.
-/

namespace LessonCalc.Formula

open LessonCalc.Number

/-! ## Operations that can fail -/

/-- What cannot be done in a step of an evaluation. -/
inductive Fault where
  /-- A token is taken behind the last one. -/
  | noToken
  /-- An operator is taken as a comparison and is none. -/
  | noComparison (op : Operator)
  /-- A number is divided by zero. -/
  | divisionByZero
  /-- A remainder is taken by zero, or of numbers that are not finite. -/
  | noRemainder
  /-- A name stands for an integer beyond the range of floating-point numbers. -/
  | outOfRange (name : String)
  /-- There is no step left. -/
  | noStep
  deriving Repr, DecidableEq

/-- The quotient of two numbers, the second not zero. -/
def divide (x y : Float) : Except Fault Float :=
  if y == 0.0 then .error .divisionByZero else .ok (x / y)

/-- The remainder of two finite numbers, the second not zero. -/
def divideRest (x y : Float) : Except Fault Float :=
  if x.isFinite && y.isFinite && !(y == 0.0) then
    let r := ofDyadic (remainderOfMagnitudes (magnitude x) (magnitude y))
    .ok (if isSigned x then -r else r)
  else .error .noRemainder

/-- Divides unless the divisor is zero. -/
def guardedQuotient (x y : Float) : Except Fault Float :=
  if y == 0.0 then .ok 0.0 else divide x y

/-- Takes the remainder unless one of the numbers is special. -/
def guardedRemainder (x y : Float) : Except Fault Float :=
  if y == 0.0 then .ok 0.0
  else if y.isNaN || !x.isFinite then .ok (0.0 / 0.0)
  else if y.isInf then .ok x
  else divideRest x y

/-- The operators that compare. -/
def comparisons : List (Operator × (Float → Float → Bool)) :=
  [(.gt, fun x y => decide (y < x)), (.lt, fun x y => decide (x < y)),
   (.ge, fun x y => decide (y ≤ x)), (.le, fun x y => decide (x ≤ y)),
   (.eq, fun x y => x == y), (.ne, fun x y => !(x == y))]

/-- What an operator that was met at a level does to two numbers.  A comparison is looked up before its
right operand is read. -/
def Level.function (l : Level) (op : Operator) : Except Fault (Float → Float → Except Fault Float) :=
  match l with
  | .comparison =>
    match comparisons.lookup op with
    | some compare => .ok fun x y => .ok (truth (compare x y))
    | none => .error (.noComparison op)
  | .additive => .ok fun x y => .ok (if op = .add then x + y else x - y)
  | .multiplicative => .ok fun x y =>
    if op = .mul then .ok (x * y)
    else if op = .div then guardedQuotient x y
    else guardedRemainder x y

/-- The number that a name stands for, zero if it stands for none. -/
def lookUp (vars : Variables) (name : String) : Except Fault Float :=
  match vars.get? name with
  | none => .ok 0.0
  | some v =>
    match toNumber v with
    | .number x => .ok x
    | .notANumber => .ok 0.0
    | .outOfRange => .error (.outOfRange name)

/-! ## The cursor -/

/-- A computation that moves a cursor, the number of tokens before it. -/
abbrev Walk (α : Type) := StateT Nat (Except Fault) α

section Walk

variable (tokens : List Token)

/-- The token at the cursor. -/
def peek : Walk (Option Token) := do
  return tokens[← get]?

/-- Takes the token at the cursor. -/
def advance : Walk Token := do
  let position ← get
  match tokens[position]? with
  | some token =>
    set (position + 1)
    return token
  | none => throw .noToken

variable (vars : Variables)

mutual

/-- Evaluates a condition and, after a question mark, its consequent and optional alternative. -/
def walkTernary : Nat → Walk Float
  | 0 => throw .noStep
  | steps + 1 => do
    let condition ← walkLevel steps .comparison
    if (← peek tokens) = some .question then
      let _ ← advance tokens
      let consequent ← walkTernary steps
      if (← peek tokens) = some .colon then
        let _ ← advance tokens
        let alternative ← walkTernary steps
        return if isTrue condition then consequent else alternative
      else return if isTrue condition then consequent else 0.0
    else return condition

/-- Evaluates operands joined by the operators of a level. -/
def walkLevel : Nat → Level → Walk Float
  | 0, _ => throw .noStep
  | steps + 1, l => do
    let first ← walkOperand steps l
    walkMore steps l first

/-- Evaluates an operand of the operators of a level. -/
def walkOperand : Nat → Level → Walk Float
  | 0, _ => throw .noStep
  | steps + 1, .comparison => walkLevel steps .additive
  | steps + 1, .additive => walkLevel steps .multiplicative
  | steps + 1, .multiplicative => walkUnary steps

/-- Applies the operators of a level that follow a value, each to its right operand. -/
def walkMore : Nat → Level → Float → Walk Float
  | 0, _, _ => throw .noStep
  | steps + 1, l, first => do
    match ← peek tokens with
    | some (.operator op) =>
      if op.level = l then
        let _ ← advance tokens
        let apply ← l.function op
        let second ← walkOperand steps l
        let value ← apply first second
        walkMore steps l value
      else return first
    | _ => return first

/-- Evaluates a value with at most one minus sign before it. -/
def walkUnary : Nat → Walk Float
  | 0 => throw .noStep
  | steps + 1 => do
    if (← peek tokens) = some (.operator .sub) then
      let _ ← advance tokens
      let operand ← walkPrimary steps
      return -operand
    else walkPrimary steps

/-- Evaluates a number, a name or a parenthesis, or passes over a token that is none of these. -/
def walkPrimary : Nat → Walk Float
  | 0 => throw .noStep
  | steps + 1 => do
    match ← peek tokens with
    | none => return 0.0
    | some _ =>
      match ← advance tokens with
      | .number run => return runValue run
      | .name text => lookUp vars text
      | .openParen =>
        let inner ← walkTernary steps
        if (← peek tokens) = some .closeParen then
          let _ ← advance tokens
          return inner
        else return inner
      | _ => return 0.0

end

end Walk

/-- A rule of the grammar. -/
inductive Rule where
  | ternary
  | level (l : Level)
  | unary
  | primary

/-- Evaluates what a rule reads, in at most the given steps. -/
def Rule.walk (tokens : List Token) (vars : Variables) (steps : Nat) : Rule → Walk Float
  | ternary => walkTernary tokens vars steps
  | level l => walkLevel tokens vars steps l
  | unary => walkUnary tokens vars steps
  | primary => walkPrimary tokens vars steps

/-! ## Operations that do not fail -/

/-- A number is finite if it is neither infinite nor not a number. -/
theorem isFinite_of_not_special {x : Float} (number : x.isNaN = false) (bounded : x.isInf = false) :
    x.isFinite = true := by
  have finite : x.isFinite = x.toModel.unpack.isFinite := rfl
  have number' : x.toModel.unpack.isNaN = false := number
  have bounded' : x.toModel.unpack.isInf = false := bounded
  rw [finite]
  cases parts : x.toModel.unpack with
  | infinity _ => rw [parts] at bounded'; cases bounded'
  | notANumber => rw [parts] at number'; cases number'
  | zero _ => rfl
  | finite _ _ _ _ => rfl

theorem guardedQuotient_eq (x y : Float) : guardedQuotient x y = .ok (quotient x y) := by
  unfold guardedQuotient divide quotient
  split
  · rfl
  · rfl

theorem guardedRemainder_eq (x y : Float) : guardedRemainder x y = .ok (remainder x y) := by
  unfold guardedRemainder remainder
  split
  next => rfl
  next nonzero =>
    split
    next => rfl
    next usual =>
      split
      next => rfl
      next bounded =>
        simp only [Bool.or_eq_true, Bool.not_eq_true', not_or, Bool.not_eq_true,
          Bool.not_eq_false] at usual
        have finite := isFinite_of_not_special usual.1 (Bool.eq_false_iff.mpr bounded)
        rw [divideRest, usual.2, finite, Bool.eq_false_iff.mpr nonzero]
        rfl

/-- Every operator of a level has a function there, and that does not fail. -/
theorem Level.exists_function {l : Level} {op : Operator} (level : op.level = l) :
    ∃ apply, l.function op = .ok apply ∧ ∀ x y, apply x y = .ok (op.apply x y) := by
  subst level
  cases op with
  | mul => exact ⟨_, rfl, fun _ _ => rfl⟩
  | div => exact ⟨_, rfl, guardedQuotient_eq⟩
  | mod => exact ⟨_, rfl, guardedRemainder_eq⟩
  | _ => exact ⟨_, rfl, fun _ _ => rfl⟩

theorem lookUp_of_inRange {vars : Variables} {name : String} (inRange : vars.isOutOfRange name = false) :
    lookUp vars name = .ok (vars.value name) := by
  unfold Variables.isOutOfRange at inRange
  unfold lookUp Variables.value
  cases found : vars.get? name with
  | none => rfl
  | some v => cases number : toNumber v <;> simp_all

/-! ## The tokens before a cursor -/

/-- The cursor stands before these tokens, which are the last ones. -/
structure StandsBefore (tokens : List Token) (position : Nat) (rest : List Token) : Prop where
  place : position + rest.length = tokens.length
  drop : tokens.drop position = rest

namespace StandsBefore

variable {tokens rest : List Token} {token : Token} {position : Nat}

theorem of_le (inside : position ≤ tokens.length) :
    StandsBefore tokens position (tokens.drop position) :=
  ⟨by rw [List.length_drop]; omega, rfl⟩

theorem peek_eq (stands : StandsBefore tokens position rest) :
    peek tokens position = .ok (rest.head?, position) := by
  have same : tokens[position]? = rest.head? := by
    rw [← stands.drop, List.head?_drop]
  exact congrArg (fun token => Except.ok (token, position)) same

theorem peek_cons (stands : StandsBefore tokens position (token :: rest)) :
    peek tokens position = .ok (some token, position) :=
  stands.peek_eq

theorem advance_eq (stands : StandsBefore tokens position (token :: rest)) :
    advance tokens position = .ok (token, position + 1) := by
  have same : tokens[position]? = some token := by
    rw [← List.head?_drop, stands.drop, List.head?_cons]
  simp only [advance, StateT.bind, bind, get, getThe, MonadStateOf.get, StateT.get, Except.bind, pure,
    Except.pure, same]
  rfl

theorem next (stands : StandsBefore tokens position (token :: rest)) :
    StandsBefore tokens (position + 1) rest := by
  refine ⟨?_, ?_⟩
  · have place := stands.place
    rw [List.length_cons] at place
    omega
  · rw [← List.drop_drop, stands.drop]
    rfl

end StandsBefore

/-! ## Walking by the rules -/

/-- A call that is a rule of the grammar, or an operand of one. -/
def Call.IsRule : Call → Prop
  | .more _ _ => False
  | _ => True

/-- A rule uses up a token if there is one. -/
theorem Reads.length_lt {call : Call} {tokens left : List Token} {r : Reading}
    (reads : Reads call tokens r left) (rule : call.IsRule) (nonempty : tokens ≠ []) :
    left.length < tokens.length := by
  induction reads with
  | condition _ _ ih => exact ih trivial nonempty
  | ifThen first second _ _ _ => exact Nat.lt_of_le_of_lt second.length_le first.length_le
  | ifThenElse first second third _ _ _ =>
      have shorter := first.length_le
      have shorter' := second.length_le
      have shorter'' := third.length_le
      simp only [List.length_cons] at shorter shorter'
      omega
  | level _ second first _ => exact Nat.lt_of_le_of_lt second.length_le (first trivial nonempty)
  | comparison _ ih => exact ih trivial nonempty
  | additive _ ih => exact ih trivial nonempty
  | multiplicative _ ih => exact ih trivial nonempty
  | done _ => exact rule.elim
  | more _ _ _ _ _ => exact rule.elim
  | negate operand _ => exact Nat.lt_succ_of_le operand.length_le
  | primary _ _ ih => exact ih trivial nonempty
  | missing => exact absurd rfl nonempty
  | number => exact Nat.lt_succ_self _
  | name => exact Nat.lt_succ_self _
  | closed inner _ =>
      have shorter := inner.length_le
      simp only [List.length_cons] at shorter ⊢
      omega
  | unclosed inner _ _ => exact Nat.lt_succ_of_le inner.length_le
  | stray _ => exact Nat.lt_succ_self _

/-- Goes on from where a walk has come to. -/
theorem Walk.bind_of_ok {α β : Type} {first : Walk α} {more : α → Walk β} {a : α}
    {position position' : Nat} (ran : first position = .ok (a, position')) :
    (first >>= more) position = more a position' := by
  have opened : (first >>= more) position = (first position).bind fun r => more r.1 r.2 := rfl
  rw [opened, ran]
  rfl

/-- Goes on with the result of an operation that did not fail. -/
theorem Walk.bind_lift_of_ok {α β : Type} {x : Except Fault α} {more : α → Walk β} {a : α}
    {position : Nat} (ran : x = .ok a) :
    ((liftM x : Walk α) >>= more) position = more a position := by
  subst ran
  rfl

/-- Evaluates what a call reads.  For the operators that follow a value it starts from that value. -/
def Call.walk (tokens : List Token) (vars : Variables) (steps : Nat) : Call → Walk Float
  | .ternary => walkTernary tokens vars steps
  | .level l => walkLevel tokens vars steps l
  | .operand l => walkOperand tokens vars steps l
  | .more l first => walkMore tokens vars steps l (first.value vars.value)
  | .unary => walkUnary tokens vars steps
  | .primary => walkPrimary tokens vars steps

theorem Call.exists_steps {call : Call} {n steps : Nat} (enough : n + call.height ≤ steps) :
    ∃ fewer, steps = fewer + 1 := by
  have positive := call.height_pos
  exact ⟨steps - 1, by omega⟩

/-- Along the cursor, a call on the last tokens gives the value of a reading without a fault, and the
cursor comes to stand before the tokens that it leaves. -/
def Walks (tokens : List Token) (vars : Variables) (call : Call) (rest : List Token) (r : Reading)
    (left : List Token) : Prop :=
  ∀ steps position, 10 * rest.length + call.height ≤ steps → StandsBefore tokens position rest →
    ∃ position', StandsBefore tokens position' left ∧
      call.walk tokens vars steps position = .ok (r.value vars.value, position')

namespace Walks

variable {tokens : List Token} {vars : Variables} {l : Level} {rest middle after left : List Token}
  {c t e r first second : Reading}

theorem condition (walks : Walks tokens vars (.level .comparison) rest c left)
    (stops : left.head? ≠ some .question) : Walks tokens vars .ternary rest c left := by
  intro steps position enough stands
  obtain ⟨steps, rfl⟩ := Call.exists_steps enough
  obtain ⟨p, stands', ran⟩ := walks steps position (Nat.le_of_succ_le_succ enough) stands
  refine ⟨p, stands', ?_⟩
  simp only [Call.walk, walkTernary] at ran ⊢
  rw [Walk.bind_of_ok ran, Walk.bind_of_ok stands'.peek_eq, if_neg stops]
  rfl

theorem ifThen (condition : Walks tokens vars (.level .comparison) rest c (.question :: middle))
    (consequent : Walks tokens vars .ternary middle t left)
    (shorter : middle.length < rest.length) (stops : left.head? ≠ some .colon) :
    Walks tokens vars .ternary rest (.ifThen c t) left := by
  intro steps position enough stands
  obtain ⟨steps, rfl⟩ := Call.exists_steps enough
  obtain ⟨p, atQuestion, ran⟩ := condition steps position (Nat.le_of_succ_le_succ enough) stands
  obtain ⟨p', stands', ran'⟩ := consequent steps (p + 1) (by simp only [Call.height] at enough ⊢; omega)
    atQuestion.next
  refine ⟨p', stands', ?_⟩
  simp only [Call.walk, walkTernary] at ran ran' ⊢
  rw [Walk.bind_of_ok ran, Walk.bind_of_ok atQuestion.peek_cons, if_pos rfl,
    Walk.bind_of_ok atQuestion.advance_eq, Walk.bind_of_ok ran', Walk.bind_of_ok stands'.peek_eq,
    if_neg stops]
  rfl

theorem ifThenElse (condition : Walks tokens vars (.level .comparison) rest c (.question :: middle))
    (consequent : Walks tokens vars .ternary middle t (.colon :: after))
    (alternative : Walks tokens vars .ternary after e left)
    (shorter : middle.length < rest.length) (shorter' : after.length < middle.length) :
    Walks tokens vars .ternary rest (.ifThenElse c t e) left := by
  intro steps position enough stands
  obtain ⟨steps, rfl⟩ := Call.exists_steps enough
  obtain ⟨p, atQuestion, ran⟩ := condition steps position (Nat.le_of_succ_le_succ enough) stands
  obtain ⟨p', atColon, ran'⟩ := consequent steps (p + 1) (by simp only [Call.height] at enough ⊢; omega)
    atQuestion.next
  obtain ⟨p'', stands', ran''⟩ := alternative steps (p' + 1)
    (by simp only [Call.height] at enough ⊢; omega) atColon.next
  refine ⟨p'', stands', ?_⟩
  simp only [Call.walk, walkTernary] at ran ran' ran'' ⊢
  rw [Walk.bind_of_ok ran, Walk.bind_of_ok atQuestion.peek_cons, if_pos rfl,
    Walk.bind_of_ok atQuestion.advance_eq, Walk.bind_of_ok ran', Walk.bind_of_ok atColon.peek_cons,
    if_pos rfl, Walk.bind_of_ok atColon.advance_eq, Walk.bind_of_ok ran'']
  rfl

theorem level (operand : Walks tokens vars (.operand l) rest first middle)
    (operators : Walks tokens vars (.more l first) middle r left)
    (shorter : middle.length ≤ rest.length) : Walks tokens vars (.level l) rest r left := by
  intro steps position enough stands
  obtain ⟨steps, rfl⟩ := Call.exists_steps enough
  rw [Call.height_level] at enough
  have positive := (Call.operand l).height_pos
  obtain ⟨p, stands', ran⟩ := operand steps position (by omega) stands
  obtain ⟨p', stands'', ran'⟩ := operators steps p (by simp only [Call.height]; omega) stands'
  refine ⟨p', stands'', ?_⟩
  simp only [Call.walk, walkLevel] at ran ran' ⊢
  rw [Walk.bind_of_ok ran, ran']

/-- The operands of a level are what the next tighter rule reads. -/
theorem operand {inner : Call}
    (same : ∀ steps, (Call.operand l).walk tokens vars (steps + 1) = inner.walk tokens vars steps)
    (lower : inner.height < (Call.operand l).height) (walks : Walks tokens vars inner rest r left) :
    Walks tokens vars (.operand l) rest r left := by
  intro steps position enough stands
  obtain ⟨steps, rfl⟩ := Call.exists_steps enough
  rw [same]
  exact walks steps position (by omega) stands

theorem done (stops : ∀ op, rest.head? = some (.operator op) → op.level ≠ l) :
    Walks tokens vars (.more l first) rest first rest := by
  intro steps position enough stands
  obtain ⟨steps, rfl⟩ := Call.exists_steps enough
  refine ⟨position, stands, ?_⟩
  simp only [Call.walk, walkMore]
  rw [Walk.bind_of_ok stands.peek_eq]
  cases rest with
  | nil => rfl
  | cons token rest =>
      cases token with
      | operator op =>
          simp only [List.head?_cons]
          rw [if_neg (stops op rfl)]
          rfl
      | _ => rfl

theorem more {op : Operator} (level : op.level = l)
    (operand : Walks tokens vars (.operand l) rest second middle)
    (operators : Walks tokens vars (.more l (.binary op first second)) middle r left)
    (shorter : middle.length ≤ rest.length) :
    Walks tokens vars (.more l first) (.operator op :: rest) r left := by
  intro steps position enough stands
  obtain ⟨steps, rfl⟩ := Call.exists_steps enough
  obtain ⟨apply, function, applied⟩ := Level.exists_function level
  have low := Call.height_operand_le l
  simp only [Call.height, List.length_cons] at enough
  obtain ⟨p, stands', ran⟩ := operand steps (position + 1) (by omega) stands.next
  obtain ⟨p', stands'', ran'⟩ := operators steps p (by simp only [Call.height]; omega) stands'
  refine ⟨p', stands'', ?_⟩
  simp only [Call.walk, walkMore] at ran ran' ⊢
  rw [Walk.bind_of_ok stands.peek_cons]
  simp only [level, ↓reduceIte]
  rw [Walk.bind_of_ok stands.advance_eq, Walk.bind_lift_of_ok function, Walk.bind_of_ok ran,
    Walk.bind_lift_of_ok (applied _ _)]
  exact ran'

theorem negate (walks : Walks tokens vars .primary rest r left) :
    Walks tokens vars .unary (.operator .sub :: rest) (.negate r) left := by
  intro steps position enough stands
  obtain ⟨steps, rfl⟩ := Call.exists_steps enough
  simp only [Call.height, List.length_cons] at enough
  obtain ⟨p, stands', ran⟩ := walks steps (position + 1) (by simp only [Call.height]; omega) stands.next
  refine ⟨p, stands', ?_⟩
  simp only [Call.walk, walkUnary] at ran ⊢
  rw [Walk.bind_of_ok stands.peek_cons, if_pos rfl, Walk.bind_of_ok stands.advance_eq,
    Walk.bind_of_ok ran]
  rfl

theorem primary (plain : rest.head? ≠ some (.operator .sub))
    (walks : Walks tokens vars .primary rest r left) : Walks tokens vars .unary rest r left := by
  intro steps position enough stands
  obtain ⟨steps, rfl⟩ := Call.exists_steps enough
  obtain ⟨p, stands', ran⟩ := walks steps position (Nat.le_of_succ_le_succ enough) stands
  refine ⟨p, stands', ?_⟩
  simp only [Call.walk, walkUnary] at ran ⊢
  rw [Walk.bind_of_ok stands.peek_eq, if_neg plain, ran]

theorem missing : Walks tokens vars .primary [] .missing [] := by
  intro steps position enough stands
  obtain ⟨steps, rfl⟩ := Call.exists_steps enough
  refine ⟨position, stands, ?_⟩
  simp only [Call.walk, walkPrimary]
  rw [Walk.bind_of_ok stands.peek_eq]
  rfl

/-- Where there is a token, the cursor takes it before it is told which one it is. -/
theorem ofToken {token : Token}
    (walks : ∀ steps position, 10 * rest.length + 10 ≤ steps → StandsBefore tokens position rest →
      ∃ position', StandsBefore tokens position' left ∧
        (match token with
          | .number run => pure (runValue run)
          | .name text => liftM (lookUp vars text)
          | .openParen => do
            let inner ← walkTernary tokens vars steps
            if (← peek tokens) = some .closeParen then
              let _ ← advance tokens
              return inner
            else return inner
          | _ => pure 0.0 : Walk Float) position = .ok (r.value vars.value, position')) :
    Walks tokens vars .primary (token :: rest) r left := by
  intro steps position enough stands
  obtain ⟨steps, rfl⟩ := Call.exists_steps enough
  simp only [Call.height, List.length_cons] at enough
  obtain ⟨p, stands', ran⟩ := walks steps (position + 1) (by omega) stands.next
  refine ⟨p, stands', ?_⟩
  simp only [Call.walk, walkPrimary]
  rw [Walk.bind_of_ok stands.peek_cons]
  dsimp only
  rw [Walk.bind_of_ok stands.advance_eq]
  exact ran

theorem number {run : String} :
    Walks tokens vars .primary (.number run :: rest) (.number run) rest :=
  ofToken fun _ position _ stands => ⟨position, stands, rfl⟩

theorem name {text : String} (inRange : vars.isOutOfRange text = false) :
    Walks tokens vars .primary (.name text :: rest) (.name text) rest := by
  refine ofToken fun _ position _ stands => ⟨position, stands, ?_⟩
  simp only [lookUp_of_inRange inRange]
  rfl

theorem closed (walks : Walks tokens vars .ternary rest r (.closeParen :: left)) :
    Walks tokens vars .primary (.openParen :: rest) (.group r true) left := by
  refine ofToken fun steps position enough stands => ?_
  obtain ⟨p, stands', ran⟩ := walks steps position (by simp only [Call.height]; omega) stands
  refine ⟨p + 1, stands'.next, ?_⟩
  simp only [Call.walk] at ran
  dsimp only
  rw [Walk.bind_of_ok ran, Walk.bind_of_ok stands'.peek_cons, if_pos rfl,
    Walk.bind_of_ok stands'.advance_eq]
  rfl

theorem unclosed (walks : Walks tokens vars .ternary rest r left)
    (stops : left.head? ≠ some .closeParen) :
    Walks tokens vars .primary (.openParen :: rest) (.group r false) left := by
  refine ofToken fun steps position enough stands => ?_
  obtain ⟨p, stands', ran⟩ := walks steps position (by simp only [Call.height]; omega) stands
  refine ⟨p, stands', ?_⟩
  simp only [Call.walk] at ran
  dsimp only
  rw [Walk.bind_of_ok ran, Walk.bind_of_ok stands'.peek_eq, if_neg stops]
  rfl

theorem stray {token : Token} (starts : token.startsValue = false) :
    Walks tokens vars .primary (token :: rest) (.stray token) rest := by
  refine ofToken fun _ position _ stands => ⟨position, stands, ?_⟩
  cases token with
  | number _ => cases starts
  | name _ => cases starts
  | openParen => cases starts
  | _ => rfl

end Walks

/-- What was read before a call is part of what it reads. -/
theorem Reads.names_subset {call : Call} {tokens left : List Token} {r : Reading}
    (reads : Reads call tokens r left) : call.names ⊆ r.names := by
  induction reads with
  | done _ => exact List.Subset.refl _
  | more _ _ _ _ ih => exact List.Subset.trans (List.subset_append_left _ _) ih
  | _ => exact List.nil_subset _

/-- Where no name of a reading stands for an integer out of range, the cursor walks as the descent reads. -/
theorem Reads.walks_of_names {tokens : List Token} {vars : Variables} {call : Call}
    {rest left : List Token} {r : Reading} (reads : Reads call rest r left)
    (inRange : ∀ name ∈ r.names, vars.isOutOfRange name = false) : Walks tokens vars call rest r left := by
  induction reads with
  | condition _ stops ih => exact (ih inRange).condition stops
  | ifThen first _ stops c t =>
      have condition := c fun name used => inRange name (List.mem_append_left _ used)
      have consequent := t fun name used => inRange name (List.mem_append_right _ used)
      exact condition.ifThen consequent first.length_le stops
  | ifThenElse first second _ c t e =>
      have condition := c fun name used => inRange name (List.mem_append_left _ used)
      have consequent := t fun name used =>
        inRange name (List.mem_append_right _ (List.mem_append_left _ used))
      have alternative := e fun name used =>
        inRange name (List.mem_append_right _ (List.mem_append_right _ used))
      exact condition.ifThenElse consequent alternative first.length_le second.length_le
  | level first second operand operators =>
      have operand := operand fun name used => inRange name (second.names_subset used)
      exact operand.level (operators inRange) first.length_le
  | comparison _ ih => exact (ih inRange).operand (fun _ => rfl) (by decide)
  | additive _ ih => exact (ih inRange).operand (fun _ => rfl) (by decide)
  | multiplicative _ ih => exact (ih inRange).operand (fun _ => rfl) (by decide)
  | done stops => exact .done stops
  | more level second last operand operators =>
      have operand := operand fun name used =>
        inRange name (last.names_subset (List.mem_append_right _ used))
      exact .more level operand (operators inRange) second.length_le
  | negate _ ih => exact (ih inRange).negate
  | primary plain _ ih => exact (ih inRange).primary plain
  | missing => exact .missing
  | number => exact .number
  | name => exact .name (inRange _ List.mem_cons_self)
  | closed _ ih => exact (ih inRange).closed
  | unclosed _ stops ih => exact (ih inRange).unclosed stops
  | stray starts => exact .stray starts

/-- Where no name stands for an integer out of range, the cursor walks as the descent reads. -/
theorem Reads.walks {tokens : List Token} {vars : Variables}
    (inRange : ∀ name, vars.isOutOfRange name = false) {call : Call} {rest left : List Token}
    {r : Reading} (reads : Reads call rest r left) : Walks tokens vars call rest r left :=
  reads.walks_of_names fun name _ => inRange name

/-! ## Evaluations -/

/-- The call of a rule. -/
def Rule.call : Rule → Call
  | ternary => .ternary
  | level l => .level l
  | unary => .unary
  | primary => .primary

theorem Rule.walk_eq (rule : Rule) (tokens : List Token) (vars : Variables) (steps : Nat) :
    rule.walk tokens vars steps = rule.call.walk tokens vars steps := by
  cases rule <;> rfl

theorem Rule.isRule_call (rule : Rule) : rule.call.IsRule := by
  cases rule <;> trivial

theorem Rule.height_call_le (rule : Rule) : rule.call.height ≤ 9 := by
  cases rule with
  | level l => cases l <;> decide
  | _ => decide

/-- From any place, a rule is evaluated without a fault in a number of steps in proportion to the tokens,
and the cursor moves on, but not past the end. -/
theorem Rule.exists_walk (rule : Rule) {tokens : List Token} {vars : Variables}
    (inRange : ∀ name, vars.isOutOfRange name = false) {position : Nat}
    (inside : position ≤ tokens.length) :
    ∃ x position', (∀ steps, stepsFor tokens ≤ steps →
        rule.walk tokens vars steps position = .ok (x, position')) ∧
      position ≤ position' ∧ position' ≤ tokens.length ∧
      (position < tokens.length → position < position') := by
  have stands := StandsBefore.of_le inside
  have place := stands.place
  obtain ⟨r, left, reads⟩ : ∃ r left, Reads rule.call (tokens.drop position) r left :=
    ⟨_, _, runsWithin _ rule.call (tokens.drop position) (Nat.le_refl _)⟩
  have low := rule.height_call_le
  have shorter := reads.length_le
  obtain ⟨position', stands', _⟩ := reads.walks inRange _ position (Nat.le_refl _) stands
  have place' := stands'.place
  refine ⟨r.value vars.value, position', fun steps enough => ?_, by omega, by omega, fun more => ?_⟩
  · obtain ⟨p, stands'', ran⟩ := reads.walks inRange steps position
      (by simp only [stepsFor] at enough; omega) stands
    have same : p = position' := by
      have place'' := stands''.place
      omega
    rw [rule.walk_eq, ran, same]
  · have nonempty : tokens.drop position ≠ [] := by
      rw [Ne, List.drop_eq_nil_iff]
      omega
    have taken := reads.length_lt rule.isRule_call nonempty
    omega

/-- Among numbers, no rule meets a fault wherever it starts: it takes a number of steps in proportion to
the tokens, and the cursor goes on by a token at least if there is one, and never back or past the end.
From the start it gives the number that is shown as the value of the formula unless that is nested too
deeply; and the value is finite and not negative zero. -/
theorem evaluate_walks (limit : Nat) (formula : String) (env : Entries String Float) :
    (∀ (rule : Rule) (position : Nat), position ≤ (tokenize formula).length →
      ∃ x position', (∀ steps, stepsFor (tokenize formula) ≤ steps →
          rule.walk (tokenize formula) (Tool.toVariables env) steps position = .ok (x, position')) ∧
        position ≤ position' ∧ position' ≤ (tokenize formula).length ∧
        (position < (tokenize formula).length → position < position')) ∧
    (∃ x position', (∀ steps, stepsFor (tokenize formula) ≤ steps →
        Rule.ternary.walk (tokenize formula) (Tool.toVariables env) steps 0 = .ok (x, position')) ∧
      evaluate limit formula (Tool.toVariables env) =
        if limit < (read (tokenize formula)).1.depth then 0.0 else settle x) ∧
    (evaluate limit formula (Tool.toVariables env)).isFinite = true ∧
    evaluate limit formula (Tool.toVariables env) ≠ -0.0 := by
  have inRange := isOutOfRange_toVariables env
  refine ⟨fun rule position inside => rule.exists_walk inRange inside, ?_, isFinite_evaluate _ _ _,
    evaluate_ne_negZero _ _ _⟩
  obtain ⟨x, position', walk, _⟩ := Rule.ternary.exists_walk inRange
    (Nat.zero_le (tokenize formula).length)
  refine ⟨x, position', walk, ?_⟩
  have stands : StandsBefore (tokenize formula) 0 (tokenize formula) :=
    StandsBefore.of_le (Nat.zero_le _)
  obtain ⟨_, _, ran⟩ := (reads_read (tokenize formula)).walks inRange (stepsFor (tokenize formula)) 0
    (by simp only [Call.height, stepsFor]; omega) stands
  have same := ran.symm.trans (walk _ (Nat.le_refl _))
  rw [evaluate_numbers, ← value_toVariables]
  cases same
  rfl

/-- A formula that is negative zero, with a rest that is passed over.  A rule that starts in the rest meets
a stray parenthesis, and one that is open behind a division. -/
theorem evaluate_walks_stray :
    2 ≤ (tokenize "-b) / (").length ∧
      (∀ steps, 60 ≤ steps →
        Rule.ternary.walk (tokenize "-b) / (") (Tool.toVariables [("b", 0.0)]) steps 2 = .ok (0.0, 5)) ∧
      (∀ steps, 60 ≤ steps →
        Rule.ternary.walk (tokenize "-b) / (") (Tool.toVariables [("b", 0.0)]) steps 0 = .ok (-0.0, 2)) ∧
      evaluate 960 "-b) / (" (Tool.toVariables [("b", 0.0)]) = 0.0 := by
  have spelled : tokenize "-b) / (" =
      [.operator .sub, .name "b", .closeParen, .operator .div, .openParen] := by
    cbv
  have start : 2 ≤ (tokenize "-b) / (").length := by
    rw [spelled]
    decide
  obtain ⟨anywhere, ⟨x, p, whole, value⟩, _⟩ := evaluate_walks 960 "-b) / (" [("b", 0.0)]
  obtain ⟨y, p', behind, _⟩ := anywhere .ternary 2 start
  rw [spelled] at start whole behind value ⊢
  have first : Except.ok (x, p) = Except.ok (-0.0, 2) := (whole 60 (by decide)).symm.trans rfl
  have second : Except.ok (y, p') = Except.ok (0.0, 5) := (behind 60 (by decide)).symm.trans rfl
  cases first
  cases second
  exact ⟨start, behind, whole, value⟩

end LessonCalc.Formula
