import LessonCalc.Proofs.Formula.Value

/-!
# A formula in the place of a name

A name in a formula stands for a value.  It makes no difference whether that value is bound to the name
or the formula that has it is written in the place of the name, in parentheses, however malformed the
text around it is.

* `inlineTokens`, `Reading.inline`: a formula in the place of a name, among tokens and in a reading.
* `Reads.inline`: the descent reads the tokens with the formula in the place of the name just as it
  reads those with the name.
* `Reading.value_inline`: the reading with the formula has the value of that with the name bound.
* `evaluateTokens_inlineTokens`: so the two token lists have the same value.
-/

namespace LessonCalc.Formula

/-- Tokens with others, in parentheses, in the place of every occurrence of a name. -/
def inlineTokens (name : String) (inner tokens : List Token) : List Token :=
  tokens.flatMap fun token =>
    if token = .name name then .openParen :: (inner ++ [.closeParen]) else [token]

/-- A reading with another, in parentheses, in the place of every occurrence of a name. -/
def Reading.inline (r : Reading) (name : String) (inner : Reading) : Reading :=
  match r with
  | .missing => .missing
  | .stray token => .stray token
  | .number run => .number run
  | .name text => if text = name then .group inner true else .name text
  | .group operand closed => .group (operand.inline name inner) closed
  | .negate operand => .negate (operand.inline name inner)
  | .binary op left right => .binary op (left.inline name inner) (right.inline name inner)
  | .ifThen condition consequent =>
    .ifThen (condition.inline name inner) (consequent.inline name inner)
  | .ifThenElse condition consequent alternative =>
    .ifThenElse (condition.inline name inner) (consequent.inline name inner)
      (alternative.inline name inner)

/-- A call with a reading in the place of a name in what was read before it starts. -/
def Call.inline (name : String) (inner : Reading) : Call → Call
  | .more l first => .more l (first.inline name inner)
  | call => call

/-! ## Tokens -/

section Tokens

variable {name : String} {inner tokens : List Token} {token : Token}

theorem inlineTokens_name :
    inlineTokens name inner (.name name :: tokens) =
      .openParen :: (inner ++ .closeParen :: inlineTokens name inner tokens) := by
  simp [inlineTokens]

theorem inlineTokens_of_ne (other : token ≠ .name name) :
    inlineTokens name inner (token :: tokens) = token :: inlineTokens name inner tokens := by
  simp [inlineTokens, other]

/-- A token that starts no value stands at the front exactly if it did before. -/
theorem head?_inlineTokens (plain : token.startsValue = false) :
    (inlineTokens name inner tokens).head? = some token ↔ tokens.head? = some token := by
  cases tokens with
  | nil => rfl
  | cons first rest =>
      by_cases named : first = .name name
      · subst named
        rw [inlineTokens_name, List.head?_cons, List.head?_cons, Option.some.injEq, Option.some.injEq]
        constructor
        · rintro rfl
          cases plain
        · rintro rfl
          cases plain
      · rw [inlineTokens_of_ne named, List.head?_cons, List.head?_cons]

end Tokens

/-! ## The descent -/

section Descent

variable {name : String} {inner : List Token} {r : Reading}

/-- Where tokens are read up to a closing parenthesis, the descent reads them in the place of a name as
a value of its own, and all other tokens as before. -/
theorem Reads.inline
    (whole : ∀ rest, Reads .ternary (inner ++ .closeParen :: rest) r (.closeParen :: rest))
    {call : Call} {tokens left : List Token} {reading : Reading}
    (reads : Reads call tokens reading left) :
    Reads (call.inline name r) (inlineTokens name inner tokens) (reading.inline name r)
      (inlineTokens name inner left) := by
  induction reads with
  | condition _ stops ih => exact .condition ih fun next => stops ((head?_inlineTokens rfl).mp next)
  | ifThen _ _ stops first second =>
      rw [inlineTokens_of_ne (by simp)] at first
      exact .ifThen first second fun next => stops ((head?_inlineTokens rfl).mp next)
  | ifThenElse _ _ _ first second third =>
      rw [inlineTokens_of_ne (by simp)] at first second
      exact .ifThenElse first second third
  | level _ _ first second => exact .level first second
  | comparison _ ih => exact .comparison ih
  | additive _ ih => exact .additive ih
  | multiplicative _ ih => exact .multiplicative ih
  | done stops => exact .done fun op next => stops op ((head?_inlineTokens rfl).mp next)
  | more level _ _ second more =>
      rw [inlineTokens_of_ne (by simp)]
      exact .more level second more
  | negate _ ih =>
      rw [inlineTokens_of_ne (by simp)]
      exact .negate ih
  | primary plain _ ih => exact .primary (fun next => plain ((head?_inlineTokens rfl).mp next)) ih
  | missing => exact .missing
  | number =>
      rw [inlineTokens_of_ne (by simp)]
      exact .number
  | @name text rest =>
      by_cases same : text = name
      · subst same
        rw [inlineTokens_name, Reading.inline, if_pos rfl]
        exact .closed (whole _)
      · rw [inlineTokens_of_ne (by simpa using same), Reading.inline, if_neg same]
        exact .name
  | closed _ ih =>
      rw [inlineTokens_of_ne (by simp)] at ih ⊢
      exact .closed ih
  | unclosed _ stops ih =>
      rw [inlineTokens_of_ne (by simp)]
      exact .unclosed ih fun next => stops ((head?_inlineTokens rfl).mp next)
  | @stray token _ starts =>
      have other : token ≠ .name name := by
        rintro rfl
        cases starts
      rw [inlineTokens_of_ne other]
      exact .stray starts

end Descent

/-- An accepted formula is read up to a closing parenthesis behind it, whatever follows that. -/
theorem reads_of_parse {formula : String} {tree : Tree} (accepted : parse formula = .ok tree)
    (rest : List Token) :
    Reads .ternary (tokenize formula ++ .closeParen :: rest) (read (tokenize formula)).1
      (.closeParen :: rest) := by
  obtain ⟨_, spelled⟩ := parse_eq_ok accepted
  obtain ⟨_, dangles, derives⟩ := spelled.exists_innermost
  obtain ⟨r, _, _, reads⟩ := derives.isRead
  have alone := reads [] (ends_nil dangles)
  rw [List.append_nil] at alone
  rw [read_eq_iff.mpr alone]
  exact reads _ (ends_closeParen dangles rest)

/-- An accepted formula in the place of a name is read in its place, and the tokens after the formula
that are left over are those that were left over before. -/
theorem read_inlineTokens {formula : String} {tree : Tree} (accepted : parse formula = .ok tree)
    (name : String) (tokens : List Token) :
    read (inlineTokens name (tokenize formula) tokens) =
      ((read tokens).1.inline name (read (tokenize formula)).1,
        inlineTokens name (tokenize formula) (read tokens).2) :=
  read_eq_iff.mpr ((reads_read tokens).inline (reads_of_parse accepted))

/-! ## Values -/

/-- A reading in the place of a name has the value that is bound to the name. -/
theorem Reading.value_inline (name : String) (inner : Reading) (env : String → Float) (r : Reading) :
    (r.inline name inner).value env = r.value (Function.update env name (inner.value env)) := by
  induction r with
  | name text =>
      by_cases same : text = name
      · subst same
        rw [inline, if_pos rfl, value, value, Function.update_self]
      · rw [inline, if_neg same, value, value, Function.update_of_ne same]
  | group _ _ ih => exact ih
  | negate _ ih => rw [inline, value, value, ih]
  | binary _ _ _ left right => rw [inline, value, value, left, right]
  | ifThen _ _ c t => rw [inline, value, value, c, t]
  | ifThenElse _ _ _ c t e => rw [inline, value, value, c, t, e]
  | _ => rfl

/-- A reading in the place of a name takes no level of descent away. -/
theorem Reading.depth_le_inline (name : String) (inner r : Reading) :
    r.depth ≤ (r.inline name inner).depth := by
  induction r with
  | group _ _ ih => exact Nat.add_le_add_right ih 6
  | negate _ ih => exact ih
  | binary _ _ _ left right => exact max_le_max left right
  | ifThen _ _ c t => exact max_le_max c (Nat.succ_le_succ t)
  | ifThenElse _ _ _ c t e =>
      exact max_le_max c (max_le_max (Nat.succ_le_succ t) (Nat.succ_le_succ e))
  | _ => exact Nat.zero_le _

/-- Binding a name changes its number and no other. -/
theorem numberOf_insert (env : Entries String Float) (name : String) (x : Float) :
    numberOf (env.insert name x) = Function.update (numberOf env) name x := by
  funext other
  rw [numberOf, Entries.get?_insert]
  by_cases same : other = name
  · subst same
    rw [if_pos rfl, Function.update_self]
    rfl
  · rw [if_neg same, Function.update_of_ne same]
    rfl

/-- An accepted formula in parentheses, in the place of a name among any tokens, makes the value that
these have where the name is bound to the value of the formula. -/
theorem evaluateTokens_inlineTokens {limit : Nat} {formula : String} {tree : Tree}
    (accepted : parse formula = .ok tree) (name : String) (tokens : List Token)
    (env : Entries String Float)
    (shallow : (read (inlineTokens name (tokenize formula) tokens)).1.depth ≤ limit) :
    evaluateTokens limit (inlineTokens name (tokenize formula) tokens) (Tool.toVariables env) =
      evaluateTokens limit tokens (Tool.toVariables
        (env.insert name ((read (tokenize formula)).1.value (numberOf env)))) := by
  have reading := read_inlineTokens accepted name tokens
  have shallow' : (read tokens).1.depth ≤ limit := by
    rw [reading] at shallow
    exact (Reading.depth_le_inline name _ _).trans shallow
  rw [evaluateTokens_toVariables env shallow, evaluateTokens_toVariables _ shallow', reading,
    Reading.value_inline, numberOf_insert]

/-- A difference in the place of a name that stands behind a minus sign, and again where the formula
breaks off. -/
theorem evaluateTokens_inlineTokens_unclosed :
    parse "b - 5" = .ok (.binary .sub (.name "b") (.number "5")) ∧
      (read (inlineTokens "x" (tokenize "b - 5") (tokenize "-x * (a ? x"))).1.depth ≤ 960 ∧
      evaluateTokens 960 (inlineTokens "x" (tokenize "b - 5") (tokenize "-x * (a ? x"))
        (Tool.toVariables [("a", 1.0), ("b", 3.0)]) = -4.0 := by
  have accepted : parse "b - 5" = .ok (.binary .sub (.name "b") (.number "5")) := by
    cbv
  have shallow : (read (inlineTokens "x" (tokenize "b - 5") (tokenize "-x * (a ? x"))).1.depth ≤ 960 := by
    cbv
  have inner : (read (tokenize "b - 5")).1 = .binary .sub (.name "b") (.number "5") := by
    cbv
  have outer : (read (tokenize "-x * (a ? x")).1 =
      .binary .mul (.negate (.name "x")) (.group (.ifThen (.name "a") (.name "x")) false) := by
    cbv
  have shallow' : (read (tokenize "-x * (a ? x")).1.depth ≤ 960 := by
    rw [outer]
    decide
  refine ⟨accepted, shallow, ?_⟩
  rw [evaluateTokens_inlineTokens accepted "x" _ [("a", 1.0), ("b", 3.0)] shallow,
    evaluateTokens_toVariables _ shallow', outer, inner]
  rfl

end LessonCalc.Formula
