import LessonCalc.Proofs.Formula.Separators

/-!
# Closing parentheses at the end

A formula may leave parentheses open, and it may close some that it never opened.  Behind a formula a
closing parenthesis is one of three things: it closes a parenthesis that was left open, it stands where a
value is missing, or nothing reads it.  None of these makes a difference to the value.

* `Reading.outline`: a reading without the things that such a parenthesis can change.
* `Reads.append_closing`: with closing parentheses behind them, tokens are read with the same outline.
* `Reading.value_outline`, `Reading.names_outline`, `Reading.depth_outline`: all that is used of a reading
  is in its outline.
* `evaluate_append_closing`: so a formula has the same value with closing parentheses at its end.
-/

namespace LessonCalc.Formula

/-! ## Outlines -/

/-- A reading where every stray token is missing and every parenthesis left open. -/
def Reading.outline : Reading → Reading
  | .missing => .missing
  | .stray _ => .missing
  | .number run => .number run
  | .name text => .name text
  | .group inner _ => .group inner.outline false
  | .negate operand => .negate operand.outline
  | .binary op left right => .binary op left.outline right.outline
  | .ifThen condition consequent => .ifThen condition.outline consequent.outline
  | .ifThenElse condition consequent alternative =>
    .ifThenElse condition.outline consequent.outline alternative.outline

namespace Reading

/-- A stray token counts as zero, like a missing one. -/
theorem value_outline (env : String → Float) (r : Reading) : r.outline.value env = r.value env := by
  induction r with
  | group _ _ ih => exact ih
  | negate _ ih => rw [outline, value, value, ih]
  | binary _ _ _ left right => rw [outline, value, value, left, right]
  | ifThen _ _ c t => rw [outline, value, value, c, t]
  | ifThenElse _ _ _ c t e => rw [outline, value, value, c, t, e]
  | _ => rfl

theorem names_outline (r : Reading) : r.outline.names = r.names := by
  induction r with
  | group _ _ ih => exact ih
  | negate _ ih => exact ih
  | binary _ _ _ left right => rw [outline, names, names, left, right]
  | ifThen _ _ c t => rw [outline, names, names, c, t]
  | ifThenElse _ _ _ c t e => rw [outline, names, names, c, t, e]
  | _ => rfl

theorem depth_outline (r : Reading) : r.outline.depth = r.depth := by
  induction r with
  | group _ _ ih => rw [outline, depth, depth, ih]
  | negate _ ih => exact ih
  | binary _ _ _ left right => rw [outline, depth, depth, left, right]
  | ifThen _ _ c t => rw [outline, depth, depth, c, t]
  | ifThenElse _ _ _ c t e => rw [outline, depth, depth, c, t, e]
  | _ => rfl

/-- Operands with the same outlines make values with the same outline. -/
theorem outline_binary_congr {op : Operator} {left left' right right' : Reading}
    (same : left'.outline = left.outline) (same' : right'.outline = right.outline) :
    (binary op left' right').outline = (binary op left right).outline := by
  rw [outline, outline, same, same']

end Reading

/-- Tokens that are read with the same outline have the same value. -/
theorem evaluateTokens_congr {limit : Nat} {tokens tokens' : List Token}
    (same : (read tokens).1.outline = (read tokens').1.outline) (vars : Variables) :
    evaluateTokens limit tokens vars = evaluateTokens limit tokens' vars := by
  have values : (read tokens).1.value vars.value = (read tokens').1.value vars.value := by
    rw [← Reading.value_outline, same, Reading.value_outline]
  have names : (read tokens).1.names = (read tokens').1.names := by
    rw [← Reading.names_outline, same, Reading.names_outline]
  have depths : (read tokens).1.depth = (read tokens').1.depth := by
    rw [← Reading.depth_outline, same, Reading.depth_outline]
  simp only [evaluateTokens, values, names, depths]

/-! ## The descent -/

/-- A number of closing parentheses. -/
def closings (k : Nat) : List Token :=
  List.replicate k .closeParen

section Descent

variable {call : Call} {l : Level} {tokens left : List Token} {r first first' : Reading}

/-- The operators behind a value are read in the same way whatever the value was read from. -/
theorem Reads.exists_more (reads : Reads (.more l first) tokens r left)
    (same : first'.outline = first.outline) :
    ∃ r', Reads (.more l first') tokens r' left ∧ r'.outline = r.outline := by
  generalize start : Call.more l first = call at reads
  induction reads generalizing first first' with
  | done stops =>
      cases start
      exact ⟨first', .done stops, same⟩
  | more level operand _ _ ih =>
      cases start
      obtain ⟨r', operators, same'⟩ := ih (Reading.outline_binary_congr same rfl) rfl
      exact ⟨r', .more level operand operators, same'⟩
  | _ => cases start

/-- A token that is no closing parenthesis stands in front of the others, or it stood there before. -/
theorem head?_append_closings {token : Token} {k : Nat} (other : token ≠ .closeParen)
    (next : (tokens ++ closings k).head? = some token) : tokens.head? = some token := by
  cases tokens with
  | cons first rest => exact next
  | nil =>
      cases k with
      | zero => cases next
      | succ k =>
          cases next
          exact absurd rfl other

/-- With closing parentheses behind its tokens, a call reads them with the same outline, and leaves some of
the parentheses. -/
theorem Reads.append_closing (reads : Reads call tokens r left) (k : Nat) :
    ∃ r' k', Reads call (tokens ++ closings k) r' (left ++ closings k') ∧ r'.outline = r.outline := by
  induction reads generalizing k with
  | condition _ stops ih =>
      obtain ⟨c, k, reads, same⟩ := ih k
      exact ⟨c, k, .condition reads fun next => stops (head?_append_closings (by simp) next), same⟩
  | ifThen _ _ stops first second =>
      obtain ⟨c, k, reads, same⟩ := first k
      obtain ⟨t, k, reads', same'⟩ := second k
      refine ⟨.ifThen c t, k,
        .ifThen reads reads' fun next => stops (head?_append_closings (by simp) next), ?_⟩
      rw [Reading.outline, Reading.outline, same, same']
  | ifThenElse _ _ _ first second third =>
      obtain ⟨c, k, reads, same⟩ := first k
      obtain ⟨t, k, reads', same'⟩ := second k
      obtain ⟨e, k, reads'', same''⟩ := third k
      refine ⟨.ifThenElse c t e, k, .ifThenElse reads reads' reads'', ?_⟩
      rw [Reading.outline, Reading.outline, same, same', same'']
  | level _ _ first second =>
      obtain ⟨first', k, operand, same⟩ := first k
      obtain ⟨r', k', operators, same'⟩ := second k
      obtain ⟨r'', operators', same''⟩ := operators.exists_more same
      exact ⟨r'', k', .level operand operators', same''.trans same'⟩
  | comparison _ ih =>
      obtain ⟨r', k, reads, same⟩ := ih k
      exact ⟨r', k, .comparison reads, same⟩
  | additive _ ih =>
      obtain ⟨r', k, reads, same⟩ := ih k
      exact ⟨r', k, .additive reads, same⟩
  | multiplicative _ ih =>
      obtain ⟨r', k, reads, same⟩ := ih k
      exact ⟨r', k, .multiplicative reads, same⟩
  | done stops =>
      exact ⟨_, k, .done fun op next => stops op (head?_append_closings (by simp) next), rfl⟩
  | more level _ _ operand operators =>
      obtain ⟨second', k, reads, same⟩ := operand k
      obtain ⟨r', k', reads', same'⟩ := operators k
      obtain ⟨r'', reads'', same''⟩ := reads'.exists_more (Reading.outline_binary_congr rfl same)
      exact ⟨r'', k', .more level reads reads'', same''.trans same'⟩
  | negate _ ih =>
      obtain ⟨r', k, reads, same⟩ := ih k
      refine ⟨.negate r', k, .negate reads, ?_⟩
      rw [Reading.outline, Reading.outline, same]
  | primary plain _ ih =>
      obtain ⟨r', k', reads, same⟩ := ih k
      exact ⟨r', k', .primary (fun next => plain (head?_append_closings (by simp) next)) reads, same⟩
  | missing =>
      -- where a value was missing, the first closing parenthesis is passed over
      cases k with
      | zero => exact ⟨.missing, 0, .missing, rfl⟩
      | succ k => exact ⟨.stray .closeParen, k, .stray rfl, rfl⟩
  | number => exact ⟨_, k, .number, rfl⟩
  | name => exact ⟨_, k, .name, rfl⟩
  | closed _ ih =>
      obtain ⟨r', k, reads, same⟩ := ih k
      refine ⟨.group r' true, k, .closed reads, ?_⟩
      rw [Reading.outline, Reading.outline, same]
  | @unclosed _ r left _ stops ih =>
      obtain ⟨r', k, reads, same⟩ := ih k
      have outline : ∀ closed, (Reading.group r' closed).outline = (Reading.group r false).outline :=
        fun _ => by rw [Reading.outline, Reading.outline, same]
      cases left with
      | cons token rest => exact ⟨.group r' false, k, .unclosed reads stops, outline false⟩
      | nil =>
          -- what was left open at the end is closed by the first parenthesis behind it
          cases k with
          | zero => exact ⟨.group r' false, 0, .unclosed reads stops, outline false⟩
          | succ k => exact ⟨.group r' true, k, .closed reads, outline true⟩
  | stray starts => exact ⟨_, k, .stray starts, rfl⟩

end Descent

/-- Tokens have the same value with closing parentheses behind them. -/
theorem evaluateTokens_append_closings (limit : Nat) (tokens : List Token) (k : Nat) (vars : Variables) :
    evaluateTokens limit (tokens ++ closings k) vars = evaluateTokens limit tokens vars := by
  obtain ⟨r, k', reads, same⟩ := (reads_read tokens).append_closing k
  refine evaluateTokens_congr ?_ vars
  rw [read_eq_iff.mpr reads, same]

/-! ## Formulas -/

/-- A closing parenthesis goes on with no token, and is one of its own. -/
theorem tokensOf_closing (rest : List Char) : tokensOf (')' :: rest) = .closeParen :: tokensOf rest := by
  have alone : takeDouble? ')' rest = none := by
    cases rest <;> rfl
  have single : singleToken? ')' = some .closeParen := rfl
  rw [tokensOf_cons, takePiece_of_singleToken? single alone]
  rfl

/-- Closing parentheses at the end of a text are the last of its tokens. -/
theorem tokensOf_append_closing (cs : List Char) (k : Nat) :
    tokensOf (cs ++ List.replicate k ')') = tokensOf cs ++ closings k := by
  have alone : tokensOf (List.replicate k ')') = closings k := by
    induction k with
    | zero => simp [tokensOf, pieces, closings]
    | succ k ih =>
        rw [List.replicate_succ, tokensOf_closing, ih]
        rfl
  cases k with
  | zero => simp [closings]
  | succ k =>
      have boundary : IsBoundary ')' := ⟨by decide, by decide, by decide⟩
      rw [← alone, List.replicate_succ, tokensOf_append_cons _ _ boundary]

/-- A formula has the same value with closing parentheses at its end, however many and wherever it breaks
off. -/
theorem evaluate_append_closing (limit : Nat) (formula : String) (k : Nat) (vars : Variables) :
    evaluate limit (formula ++ String.ofList (List.replicate k ')')) vars = evaluate limit formula vars := by
  have text : (formula ++ String.ofList (List.replicate k ')')).toList =
      formula.toList ++ List.replicate k ')' := by
    simp
  rw [evaluate, tokenize, text, tokensOf_append_closing, evaluateTokens_append_closings]
  rfl

end LessonCalc.Formula
