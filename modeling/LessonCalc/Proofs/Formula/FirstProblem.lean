import LessonCalc.Proofs.Formula.Refusal
import LessonCalc.Proofs.Formula.Spelling

/-!
# The first problem of a refused text

A text that is refused is refused at the first point where it could not go on to an accepted one.

* `exists_spell_of_lexWithin`: the text before a token, or before the point where the scan stops, spells the
  tokens before it.
* `Standing.Follows.completable`: a text of tokens that can be followed goes on to an accepted text.
* `isColumn_columnAfter`: a column counts from the last line feed.
* `exists_completable_of_parse_error`: the error of a refused text tells of such a point, and of its column.
-/

namespace LessonCalc.Formula

open LessonCalc.Number LessonCalc.Text

/-! ## Tokens and their texts -/

theorem text_of_singleToken? {c : Char} {token : Token} (single : singleToken? c = some token) :
    token.text.toList = [c] ∧ token.IsSpelled := by
  unfold singleToken? at single
  split at single <;> cases single <;> exact ⟨rfl, trivial⟩

theorem text_of_doubleOperator? {c d : Char} {op : Operator} (double : doubleOperator? c d = some op) :
    op.text.toList = [c, d] := by
  unfold doubleOperator? at double
  split at double <;> cases double <;> rfl

/-- A token that is taken is well spelled, and it is the text up to what is left. -/
theorem text_of_strictToken? {c : Char} {rest left : List Char} {token : Token}
    (taken : strictToken? c rest = some (token, left)) :
    c :: rest = token.text.toList ++ left ∧ token.IsSpelled := by
  unfold strictToken? at taken
  split at taken
  · rename_i start
    cases taken
    refine ⟨?_, c, rest.takeWhile isNameChar, String.toList_ofList, start, takeWhile_inside rest⟩
    rw [Token.text, String.toList_ofList, List.cons_append, List.takeWhile_append_dropWhile]
  · split at taken
    · rename_i l left' found
      cases taken
      obtain ⟨used, split, text, _⟩ := plain?_eq_some_iff.mp found
      have length := congrArg List.length split
      rw [List.length_cons, List.length_append] at length
      rw [Token.text, Token.IsSpelled, IsNumberText, String.toList_ofList, split,
        show rest.length + 1 - left.length = used.length by omega, List.take_left]
      exact ⟨rfl, l, text⟩
    · split at taken
      · rename_i op d left' double
        cases taken
        cases rest with
        | nil => cases double
        | cons e rest =>
            obtain ⟨op', found, same⟩ := Option.map_eq_some_iff.mp double
            cases same
            exact ⟨by rw [Token.text, text_of_doubleOperator? found]; rfl, trivial⟩
      · obtain ⟨token', single, same⟩ := Option.map_eq_some_iff.mp taken
        cases same
        obtain ⟨text, spelled⟩ := text_of_singleToken? single
        exact ⟨by rw [text]; rfl, spelled⟩

/-! ## The text before a point -/

section Before

variable {gap : Nat → List Char} {tokens front : List Token}

/-- Layout before the first token. -/
theorem spell_cons {c : Char} (gap : Nat → List Char) (tokens : List Token) :
    spell (fun i => if i = 0 then c :: gap 0 else gap i) tokens = c :: spell gap tokens := by
  cases tokens <;> rfl

/-- A text of tokens goes on with the text of more tokens. -/
theorem exists_spell_append (gap : Nat → List Char) (front more : List Token) :
    ∃ tail, spell gap (front ++ more) = spell gap front ++ tail := by
  induction front generalizing gap with
  | nil =>
      cases more with
      | nil => exact ⟨[], (List.append_nil _).symm⟩
      | cons token more => exact ⟨_, rfl⟩
  | cons token front ih =>
      obtain ⟨tail, same⟩ := ih fun i => gap (i + 1)
      refine ⟨tail, ?_⟩
      rw [List.cons_append, spell, spell, same]
      simp only [List.append_assoc]

/-- What is left of a text before these lexemes: the text from the first one on, or from where the scan
stops. -/
def leftBefore (lexemes : List Lexeme) (stop : List Char) : List Char :=
  match lexemes with
  | [] => stop
  | lexeme :: _ => lexeme.source

/-- The text before a lexeme, or before the point where the scan stops, spells the tokens before it. -/
theorem exists_spell_of_lexWithin {bound : Nat} {cs stop : List Char} {front back : List Lexeme}
    (scan : lexWithin bound cs = (front ++ back, stop)) (enough : cs.length < bound) :
    ∃ gap, (∀ i, ∀ c ∈ gap i, isLayout c = true) ∧ (∀ token ∈ tokensIn front, token.IsSpelled) ∧
      cs = spell gap (tokensIn front) ++ leftBefore back stop := by
  have none : ∀ i : Nat, ∀ c ∈ (fun _ => [] : Nat → List Char) i, isLayout c = true := by simp
  induction bound generalizing cs front with
  | zero => exact absurd enough (Nat.not_lt_zero _)
  | succ bound ih =>
      cases cs with
      | nil =>
          simp only [lexWithin, Prod.mk.injEq] at scan
          obtain ⟨rfl, rfl⟩ := List.append_eq_nil_iff.mp scan.1.symm
          exact ⟨_, none, List.forall_mem_nil _, scan.2⟩
      | cons c rest =>
          rw [List.length_cons, Nat.add_lt_add_iff_right] at enough
          cases layout : isLayout c with
          | true =>
              rw [lexWithin_skip layout] at scan
              obtain ⟨gap, blank, spelled, split⟩ := ih scan enough
              refine ⟨fun i => if i = 0 then c :: gap 0 else gap i, fun i => ?_, spelled, ?_⟩
              · cases i with
                | zero => exact List.forall_mem_cons.mpr ⟨layout, blank 0⟩
                | succ i => exact blank (i + 1)
              · rw [spell_cons, List.cons_append, ← split]
          | false =>
              cases taken : strictToken? c rest with
              | none =>
                  simp only [lexWithin, layout, taken, Bool.false_eq_true, ↓reduceIte,
                    Prod.mk.injEq] at scan
                  obtain ⟨rfl, rfl⟩ := List.append_eq_nil_iff.mp scan.1.symm
                  exact ⟨_, none, List.forall_mem_nil _, scan.2⟩
              | some read =>
                  obtain ⟨token, left⟩ := read
                  rw [lexWithin_take layout taken, Prod.mk.injEq] at scan
                  obtain ⟨text, spelled⟩ := text_of_strictToken? taken
                  cases front with
                  | nil =>
                      obtain ⟨rfl, rfl⟩ := scan
                      exact ⟨_, none, List.forall_mem_nil _, rfl⟩
                  | cons lexeme front =>
                      obtain ⟨rfl, more⟩ := List.cons.inj scan.1
                      have shorter : left.length < bound := by
                        have length := congrArg List.length text
                        rw [List.length_cons, List.length_append] at length
                        obtain ⟨d, _, first, _⟩ := spelled.exists_first
                        rw [first, List.length_cons] at length
                        omega
                      obtain ⟨gap, blank, others, split⟩ := ih (Prod.ext more scan.2) shorter
                      refine ⟨fun i => if i = 0 then [] else gap (i - 1), fun i => ?_,
                        List.forall_mem_cons.mpr ⟨spelled, others⟩, ?_⟩
                      · cases i with
                        | zero => exact List.forall_mem_nil _
                        | succ i => exact blank i
                      · rw [text, split]
                        simp [spell]

end Before

/-! ## Points of a text -/

/-- Some accepted text starts with these characters. -/
def Completable (before : List Char) : Prop :=
  ∃ more tree, parse (String.ofList (before ++ more)) = .ok tree

/-- Some accepted text starts with these tokens and one of the same kind as another. -/
def CanFollow (tokens : List Token) (token : Token) : Prop :=
  ∃ formula tree other, parse formula = .ok tree ∧ other.kind = token.kind ∧
    tokens ++ [other] <+: tokensIn (lex formula.toList).1

/-- The column of a character behind these: one more than there are since the last line feed. -/
def IsColumn (before : List Char) (column : Nat) : Prop :=
  ∃ lines line, before = lines ++ line ∧ (lines = [] ∨ lines.getLast? = some '\n') ∧ '\n' ∉ line ∧
    column = line.length + 1

/-- What an error tells of a text is found at the front of `after`: the end of the text, a character that
starts no token, or a token that cannot come next. -/
def ParseError.TellsOf (text after : List Char) : ParseError → Prop
  | .empty => False
  | .ended => (lex text).2 = [] ∧ after = []
  | .character c _ => (lex text).2 = after ∧ after.head? = some c
  | .token spelling _ => ∃ front token back, (lex text).1 = front ++ ⟨token, after⟩ :: back ∧
    token.text = spelling ∧ ¬CanFollow (tokensIn front) token

/-- A text of tokens that can be followed goes on to an accepted text. -/
theorem Standing.Follows.completable {tokens : List Token} {s : Standing}
    (follows : Standing.start.Follows tokens s) (spelled : ∀ token ∈ tokens, token.IsSpelled)
    {gap : Nat → List Char} (layout : ∀ i, ∀ c ∈ gap i, isLayout c = true) :
    Completable (spell gap tokens) := by
  obtain ⟨more, tree, known, formula⟩ := follows.exists_completion
  have spelled' : ∀ token ∈ tokens ++ more, token.IsSpelled := by
    intro token member
    rcases List.mem_append.mp member with member | member
    · exact spelled token member
    · rcases known token member with rfl | rfl
      · exact ⟨'x', [], rfl, rfl, List.forall_mem_nil _⟩
      · trivial
  obtain ⟨tree', accepted, _⟩ := exists_parse_spell formula spelled' layout
  obtain ⟨tail, same⟩ := exists_spell_append gap tokens more
  exact ⟨tail, tree', same ▸ accepted⟩

/-- A token that cannot come next stands behind these tokens in no accepted text. -/
theorem Standing.Follows.not_canFollow {tokens : List Token} {s : Standing}
    (follows : Standing.start.Follows tokens s) {token : Token} (refuses : s.step? token = none) :
    ¬CanFollow tokens token := by
  rintro ⟨formula, tree, other, accepted, kind, more, whole⟩
  obtain ⟨_, lexemes, scan, parsed⟩ := parseChars_eq_ok_iff.mp accepted
  have spelled := isFormula_of_parseAll parsed
  rw [scan] at whole
  rw [← whole, List.append_assoc] at spelled
  exact follows.not_isFormula refuses kind more tree spelled

theorem isColumn_columnAfter (before : List Char) : IsColumn before (columnAfter before) := by
  have parts := List.takeWhile_append_dropWhile (p := (· != '\n')) (l := before.reverse)
  refine ⟨(before.reverse.dropWhile (· != '\n')).reverse,
    (before.reverse.takeWhile (· != '\n')).reverse, ?_, ?_, ?_, ?_⟩
  · rw [← List.reverse_append, parts, List.reverse_reverse]
  · rw [List.reverse_eq_nil_iff, List.getLast?_reverse]
    cases rest : before.reverse.dropWhile (· != '\n') with
    | nil => exact .inl rfl
    | cons c others =>
        have stops := dropWhile_stops (p := (· != '\n')) before.reverse c (by rw [rest]; rfl)
        exact .inr (congrArg some (by simpa using stops))
  · intro member
    have inside := takeWhile_inside _ _ (List.mem_reverse.mp member)
    simp at inside
  · rw [columnAfter, List.length_reverse]

theorem isColumn_columnOf {text before after : List Char} (split : text = before ++ after) :
    IsColumn before (columnOf text after) := by
  rw [columnOf, split, List.length_append, Nat.add_sub_cancel, List.take_left]
  exact isColumn_columnAfter before

/-- The error for the end of the tokens tells of the end of the text or of the character that stops the
scan. -/
theorem endError_tellsOf {text before stop : List Char} {lexemes : List Lexeme}
    (scan : lex text = (lexemes, stop)) (split : text = before ++ stop) :
    (endError text stop).TellsOf text stop ∧
      (endError text stop).position.elim (stop = []) (IsColumn before) := by
  have stops : (lex text).2 = stop := by rw [scan]
  cases stop with
  | nil => exact ⟨⟨stops, rfl⟩, rfl⟩
  | cons c rest => exact ⟨⟨stops, rfl⟩, isColumn_columnOf split⟩

/-- A text that is refused is refused where it could not go on: the text before that point goes on to an
accepted one, and behind the tokens before a token that is refused none of its kind can stand.  The
position of the error is the column of the point, and it has none at the end of the text. -/
theorem exists_completable_of_parse_error {formula : String} {e : ParseError}
    (refused : parse formula = .error e)
    (inked : dropBlanks formula.toList ≠ []) :
    ∃ before after, formula.toList = before ++ after ∧ Completable before ∧
      e.TellsOf formula.toList after ∧ e.position.elim (after = []) (IsColumn before) := by
  rw [parse, parseChars, if_neg inked] at refused
  rcases scan : lex formula.toList with ⟨lexemes, stop⟩
  rw [scan] at refused
  dsimp only at refused
  -- The tokens up to a point can be followed, and the text up to there goes on to an accepted one.
  have reached : ∀ {front back s}, lexemes = front ++ back → Standing.start.Follows (tokensIn front) s →
      ∃ before, formula.toList = before ++ leftBefore back stop ∧ Completable before := by
    intro front back s parts follows
    obtain ⟨gap, layout, spelled, split⟩ :=
      exists_spell_of_lexWithin (parts ▸ scan) (Nat.lt_succ_self _)
    exact ⟨_, split, follows.completable spelled layout⟩
  cases parsed : parseAll lexemes with
  | error refusal =>
      obtain ⟨front, back, s, parts, follows, refuses, told⟩ := stops_of_parseAll parsed
      obtain ⟨before, split, completable⟩ := reached parts follows
      rw [parsed, told] at refused
      cases back with
      | nil =>
          cases refused
          obtain ⟨tells, column⟩ := endError_tellsOf scan split
          exact ⟨before, stop, split, completable, tells, column⟩
      | cons lexeme back =>
          obtain ⟨token, source⟩ := lexeme
          cases refused
          have found : (lex formula.toList).1 = front ++ ⟨token, source⟩ :: back := by rw [scan, parts]
          exact ⟨before, source, split, completable,
            ⟨front, token, back, found, rfl, follows.not_canFollow refuses⟩, isColumn_columnOf split⟩
  | ok tree =>
      obtain ⟨s, follows, _⟩ := (isFormula_of_parseAll parsed).exists_follows
      obtain ⟨before, split, completable⟩ := reached (List.append_nil lexemes).symm follows
      rw [parsed] at refused
      dsimp only at refused
      split at refused
      · cases refused
      · cases refused
        obtain ⟨tells, column⟩ := endError_tellsOf scan split
        exact ⟨before, stop, split, completable, tells, column⟩

/-- In the second line a colon has no question mark: the text up to there goes on, and behind its tokens
no colon can stand. -/
theorem exists_completable_of_parse_error_colon :
    parse "(a ? b\n : c : d" = .error (.token ":" 6) ∧
    dropBlanks "(a ? b\n : c : d".toList ≠ [] ∧
    ∃ before after, "(a ? b\n : c : d".toList = before ++ after ∧ Completable before ∧
      (ParseError.token ":" 6).TellsOf "(a ? b\n : c : d".toList after ∧
      (ParseError.token ":" 6).position.elim (after = []) (IsColumn before) := by
  have refused : parse "(a ? b\n : c : d" = .error (.token ":" 6) := by cbv
  have inked : dropBlanks "(a ? b\n : c : d".toList ≠ [] := by decide
  exact ⟨refused, inked, exists_completable_of_parse_error refused inked⟩

end LessonCalc.Formula
