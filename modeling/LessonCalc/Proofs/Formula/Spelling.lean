import LessonCalc.Proofs.Formula.Acceptance
import LessonCalc.Proofs.Formula.Neighbours

/-!
# Texts that spell given tokens

`spell` writes tokens one after the other with any layout between them, none included.  A text written
in this way is cut into the tokens it was written from if no token could go on with what follows it.

* `Token.EndsBefore`: what follows a token does not go on with it.
* `Token.Splits.endsBefore`: neighbours in a formula are of this kind without any layout between them.
* `exists_parse_spell`: so a formula is accepted however it is laid out, with one of its trees.
-/

namespace LessonCalc.Formula

open LessonCalc.Number LessonCalc.Text

/-! ## Well-spelled tokens -/

/-- The text is a number: digits, or digits with a point between, before or after them. -/
def IsNumberText (text : String) : Prop :=
  ∃ l, PlainText l text.toList

/-- The text is a name: a letter or an underscore, then letters, digits and underscores. -/
def IsNameText (text : String) : Prop :=
  ∃ c rest, text.toList = c :: rest ∧ isNameStart c = true ∧ ∀ d ∈ rest, isNameChar d = true

/-- A number or a name is spelled as one. -/
def Token.IsSpelled : Token → Prop
  | .number run => IsNumberText run
  | .name text => IsNameText text
  | _ => True

/-- What follows a token does not go on with it. -/
def Token.EndsBefore : Token → List Char → Prop
  | .number run, left => CannotGrow run.toList left
  | .name _, left => ∀ c, left.head? = some c → isNameChar c = false
  | .operator _, left => left.head? ≠ some '='
  | _, _ => True

/-- The text of the tokens in order, with `gap 0` before the first one, `gap 1` before the next one and
so on, up to the gap behind the last one. -/
def spell (gap : Nat → List Char) : List Token → List Char
  | [] => gap 0
  | token :: rest => gap 0 ++ (token.text.toList ++ spell (fun i => gap (i + 1)) rest)

/-- A text is a number if it is read whole as one. -/
theorem isNumberText_iff {text : String} : IsNumberText text ↔ IsLiteral text := by
  constructor
  · rintro ⟨l, plain⟩
    have found : plain? (text.toList ++ []) = some (l, []) :=
      plain.plain? fun c next => by cases next
    rw [List.append_nil] at found
    exact ⟨l, found⟩
  · rintro ⟨l, found⟩
    obtain ⟨used, whole, plain, _⟩ := plain?_eq_some_iff.mp found
    rw [List.append_nil] at whole
    exact ⟨l, whole ▸ plain⟩

/-! ## One token -/

section Token

variable {left : List Char}

theorem strictToken?_of_isNameText {text : String} (name : IsNameText text)
    (stops : ∀ c, left.head? = some c → isNameChar c = false) :
    ∃ c rest, text.toList ++ left = c :: rest ∧ isBlank c = false ∧
      strictToken? c rest = some (.name text, left) := by
  obtain ⟨c, rest, split, start, inside⟩ := name
  refine ⟨c, rest ++ left, by rw [split, List.cons_append], isBlank_of_isNameStart start, ?_⟩
  have spelled : String.ofList (c :: rest) = text := by rw [← split, String.ofList_toList]
  simp only [strictToken?, start, ↓reduceIte, takeWhile_run inside stops, dropWhile_run inside stops,
    spelled]

theorem strictToken?_of_isNumberText {text : String} (number : IsNumberText text)
    (stops : CannotGrow text.toList left) :
    ∃ c rest, text.toList ++ left = c :: rest ∧ isBlank c = false ∧
      strictToken? c rest = some (.number text, left) := by
  obtain ⟨l, plain⟩ := number
  obtain ⟨c, rest, split⟩ := List.exists_cons_of_ne_nil plain.ne_nil
  have whole : c :: (rest ++ left) = text.toList ++ left := by rw [split, List.cons_append]
  have found := strictToken?_of_plainText whole plain stops
  rw [String.ofList_toList] at found
  have first := plain.inside c (split ▸ List.mem_cons_self)
  have digit : isNumberChar c = true := by simpa [isNumberChar] using first
  exact ⟨c, rest ++ left, whole.symm, isBlank_of_isNumberChar digit, found⟩

/-- Two characters of which the second is no equals sign are no operator. -/
theorem takeDouble?_eq_none (c : Char) (stops : left.head? ≠ some '=') :
    takeDouble? c left = none := by
  cases left with
  | nil => rfl
  | cons d rest =>
      have other : d ≠ '=' := fun same => stops (congrArg some same)
      simp only [takeDouble?, Option.map_eq_none_iff]
      unfold doubleOperator?
      split <;> first | rfl | exact absurd rfl other

/-- A mark that is a token on its own is taken before what is no equals sign. -/
theorem strictToken?_of_singleToken? {c : Char} {token : Token} (single : singleToken? c = some token)
    (stops : takeDouble? c left = none) : strictToken? c left = some (token, left) := by
  obtain ⟨blank, number, start⟩ := isMark_of_singleToken? single
  rw [strictToken?_eq_takePiece number]
  simp [takePiece, blank, number, start, stops, single]

/-- An operator of two characters is taken whatever follows. -/
theorem strictToken?_of_doubleOperator? {c d : Char} {op : Operator}
    (double : doubleOperator? c d = some op) :
    strictToken? c (d :: left) = some (.operator op, left) := by
  have found : takeDouble? c (d :: left) = some (op, d, left) := by simp [takeDouble?, double]
  obtain ⟨blank, number, start⟩ := isMark_of_takeDouble? found
  rw [strictToken?_eq_takePiece number]
  simp [takePiece, blank, number, start, found]

/-- An operator is a mark on its own or two characters. -/
theorem Operator.text_cases (op : Operator) :
    (∃ c, op.text.toList = [c] ∧ singleToken? c = some (.operator op)) ∨
      ∃ c d, op.text.toList = [c, d] ∧ doubleOperator? c d = some op := by
  cases op with
  | gt => exact .inl ⟨'>', rfl, rfl⟩
  | lt => exact .inl ⟨'<', rfl, rfl⟩
  | ge => exact .inr ⟨'>', '=', rfl, rfl⟩
  | le => exact .inr ⟨'<', '=', rfl, rfl⟩
  | eq => exact .inr ⟨'=', '=', rfl, rfl⟩
  | ne => exact .inr ⟨'!', '=', rfl, rfl⟩
  | add => exact .inl ⟨'+', rfl, rfl⟩
  | sub => exact .inl ⟨'-', rfl, rfl⟩
  | mul => exact .inl ⟨'*', rfl, rfl⟩
  | div => exact .inl ⟨'/', rfl, rfl⟩
  | mod => exact .inl ⟨'%', rfl, rfl⟩

/-- A well-spelled token is taken before what cannot go on with it. -/
theorem strictToken?_text {token : Token} (spelled : token.IsSpelled)
    (stops : token.EndsBefore left) :
    ∃ c rest, token.text.toList ++ left = c :: rest ∧ isBlank c = false ∧
      strictToken? c rest = some (token, left) := by
  have mark : ∀ c, token.text.toList = [c] → singleToken? c = some token →
      takeDouble? c left = none → ∃ c rest, token.text.toList ++ left = c :: rest ∧
        isBlank c = false ∧ strictToken? c rest = some (token, left) :=
    fun c text single alone => ⟨c, left, by rw [text, List.singleton_append],
      (isMark_of_singleToken? single).1, strictToken?_of_singleToken? single alone⟩
  cases token with
  | number run => exact strictToken?_of_isNumberText spelled stops
  | name text => exact strictToken?_of_isNameText spelled stops
  | operator op =>
      rcases op.text_cases with ⟨c, text, single⟩ | ⟨c, d, text, double⟩
      · exact mark c text single (takeDouble?_eq_none c stops)
      · have taken : strictToken? c (d :: left) = some (.operator op, left) :=
          strictToken?_of_doubleOperator? double
        have found : takeDouble? c (d :: left) = some (op, d, left) := by simp [takeDouble?, double]
        exact ⟨c, d :: left, by simp [Token.text, text], (isMark_of_takeDouble? found).1, taken⟩
  | openParen => exact mark '(' rfl rfl (by cases left <;> rfl)
  | closeParen => exact mark ')' rfl rfl (by cases left <;> rfl)
  | question => exact mark '?' rfl rfl (by cases left <;> rfl)
  | colon => exact mark ':' rfl rfl (by cases left <;> rfl)

end Token

/-! ## Neighbours -/

section Neighbours

variable {first second : Token} {left : List Char}

theorem isLayout_cases {c : Char} (layout : isLayout c = true) :
    isDigit c = false ∧ c ≠ '.' ∧ isNameChar c = false ∧ c ≠ '=' := by
  simp only [isLayout, Bool.or_eq_true, beq_iff_eq] at layout
  rcases layout with (((rfl | rfl) | rfl) | rfl) | rfl <;> decide

/-- A token does not go on with layout. -/
theorem Token.endsBefore_layout (token : Token) {c : Char} (layout : isLayout c = true) :
    token.EndsBefore (c :: left) := by
  obtain ⟨digit, point, name, equals⟩ := isLayout_cases layout
  cases token with
  | number run =>
      intro d same
      cases same
      exact ⟨digit, fun _ => point⟩
  | name text =>
      intro d same
      cases same
      exact name
  | operator op => exact fun same => equals (Option.some.inj same)
  | _ => trivial

theorem Token.endsBefore_nil (token : Token) : token.EndsBefore [] := by
  cases token with
  | number run => exact fun c same => by cases same
  | name text => exact fun c same => by cases same
  | operator op => exact fun same => by cases same
  | _ => trivial

/-- Only the operator for equality starts with an equals sign, and only a word with a character of a
word. -/
theorem Token.IsSpelled.exists_first (spelled : second.IsSpelled) :
    ∃ c rest, second.text.toList = c :: rest ∧ (c = '=' → second = .operator .eq) ∧
      (second.isWord = false → isDigit c = false ∧ c ≠ '.' ∧ isNameChar c = false) := by
  cases second with
  | number run =>
      obtain ⟨l, plain⟩ := spelled
      obtain ⟨c, rest, split⟩ := List.exists_cons_of_ne_nil plain.ne_nil
      refine ⟨c, rest, split, fun equals => ?_, fun noWord => by cases noWord⟩
      rcases plain.inside c (split ▸ List.mem_cons_self) with digit | point
      · exact absurd (equals ▸ digit) (by decide)
      · exact absurd (equals ▸ point) (by decide)
  | name text =>
      obtain ⟨c, rest, split, start, _⟩ := spelled
      exact ⟨c, rest, split, fun equals => absurd (equals ▸ start) (by decide),
        fun noWord => by cases noWord⟩
  | operator op => cases op <;> exact ⟨_, _, rfl, by decide, by decide⟩
  | _ => exact ⟨_, _, rfl, by decide, by decide⟩

/-- A token does not go on with a neighbour that needs no layout before it. -/
theorem Token.Splits.endsBefore (splits : first.Splits second) (spelled : second.IsSpelled) :
    first.EndsBefore (second.text.toList ++ left) := by
  obtain ⟨c, rest, text, equals, mark⟩ := spelled.exists_first
  rw [text, List.cons_append]
  cases first with
  | number run =>
      intro d next
      cases next
      obtain ⟨digit, point, _⟩ := mark (splits.word rfl)
      exact ⟨digit, fun _ => point⟩
  | name _ =>
      intro d next
      cases next
      exact (mark (splits.word rfl)).2.2
  | operator op => exact fun next => splits.operator rfl (equals (Option.some.inj next))
  | _ => trivial

end Neighbours

/-! ## Cutting a text that was spelled -/

section Spelled

variable {tokens : List Token} {gap : Nat → List Char}

/-- Layout is passed over. -/
theorem exists_lexWithin_append {layout : List Char} (blank : ∀ c ∈ layout, isLayout c = true)
    (left : List Char) {bound : Nat} (enough : (layout ++ left).length < bound) :
    ∃ bound', left.length < bound' ∧ lexWithin bound (layout ++ left) = lexWithin bound' left := by
  induction layout generalizing bound with
  | nil => exact ⟨bound, enough, rfl⟩
  | cons c rest ih =>
      obtain ⟨first, blank⟩ := List.forall_mem_cons.mp blank
      obtain ⟨bound, rfl⟩ := Nat.exists_eq_add_one.mpr (Nat.zero_lt_of_lt enough)
      simp only [List.cons_append, List.length_cons, Nat.add_lt_add_iff_right] at enough ⊢
      obtain ⟨bound', enough', same⟩ := ih blank enough
      exact ⟨bound', enough', (lexWithin_skip first).trans same⟩

/-- The first token of a text ends before the rest of the text. -/
theorem endsBefore_spell {token : Token} (layout : ∀ i, ∀ c ∈ gap i, isLayout c = true)
    (splits : (token :: tokens).IsChain Token.Splits)
    (spelled : ∀ second ∈ tokens, second.IsSpelled) : token.EndsBefore (spell gap tokens) := by
  cases first : gap 0 with
  | nil =>
      cases tokens with
      | nil => simpa [spell, first] using token.endsBefore_nil
      | cons second rest =>
          have neighbours := (List.isChain_cons_cons.mp splits).1
          simpa [spell, first] using neighbours.endsBefore (spelled second List.mem_cons_self)
  | cons c more =>
      have blank := layout 0 c (first ▸ List.mem_cons_self)
      cases tokens <;> simpa [spell, first] using token.endsBefore_layout blank

/-- A text is cut into the tokens that it was spelled from. -/
theorem exists_lexWithin_spell (layout : ∀ i, ∀ c ∈ gap i, isLayout c = true)
    (splits : tokens.IsChain Token.Splits) (spelled : ∀ token ∈ tokens, token.IsSpelled)
    {bound : Nat} (enough : (spell gap tokens).length < bound) :
    ∃ lexemes, lexWithin bound (spell gap tokens) = (lexemes, []) ∧ tokensIn lexemes = tokens := by
  induction tokens generalizing gap bound with
  | nil =>
      have whole : spell gap [] = gap 0 ++ [] := by simp [spell]
      rw [whole] at enough ⊢
      obtain ⟨bound', enough', same⟩ := exists_lexWithin_append (layout 0) [] enough
      obtain ⟨bound', rfl⟩ := Nat.exists_eq_add_one.mpr enough'
      exact ⟨[], same, rfl⟩
  | cons token tokens ih =>
      obtain ⟨first, others⟩ := List.forall_mem_cons.mp spelled
      have layout' : ∀ i, ∀ c ∈ gap (i + 1), isLayout c = true := fun i => layout (i + 1)
      have stops := endsBefore_spell layout' splits others
      obtain ⟨c, rest, text, inside, taken⟩ := strictToken?_text first stops
      simp only [spell] at enough ⊢
      obtain ⟨bound', enough', same⟩ := exists_lexWithin_append (layout 0) _ enough
      obtain ⟨bound', rfl⟩ := Nat.exists_eq_add_one.mpr (Nat.zero_lt_of_lt enough')
      rw [same, text, lexWithin_take (isLayout_eq_false inside) taken]
      have positive : 0 < token.text.toList.length := by
        obtain ⟨d, _, start, _⟩ := first.exists_first
        simp [start]
      rw [List.length_append] at enough'
      have fewer : (spell (fun i => gap (i + 1)) tokens).length < bound' := by omega
      obtain ⟨lexemes, whole, tokensIn_eq⟩ := ih layout' splits.of_cons others fewer
      rw [whole]
      exact ⟨_, rfl, by simp [tokensIn_eq]⟩

end Spelled

/-! ## Formulas -/

/-- A formula is accepted however it is laid out, with one of its trees. -/
theorem exists_parse_spell {tokens : List Token} {tree : Tree} (formula : IsFormula tokens tree)
    (spelled : ∀ token ∈ tokens, token.IsSpelled) {gap : Nat → List Char}
    (layout : ∀ i, ∀ c ∈ gap i, isLayout c = true) :
    ∃ tree', parse (String.ofList (spell gap tokens)) = .ok tree' ∧ IsFormula tokens tree' := by
  obtain ⟨dangles, derives⟩ := formula
  obtain ⟨lexemes, whole, same⟩ :=
    exists_lexWithin_spell layout derives.separated.splits spelled (Nat.lt_succ_self _)
  have formula : IsFormula (tokensIn lexemes) tree := ⟨dangles, same ▸ derives⟩
  obtain ⟨_, cut⟩ := cutsCleanly_of_lex whole formula
  have accepted : ∃ tree', parse (String.ofList (spell gap tokens)) = .ok tree' :=
    exists_parse_iff_isFormula.mpr ⟨lexemes, tree, by rw [String.toList_ofList]; exact whole, formula⟩
  obtain ⟨tree', accepted⟩ := accepted
  obtain ⟨_, formula'⟩ := parse_eq_ok accepted
  rw [tokenize, String.toList_ofList, cut, same] at formula'
  exact ⟨tree', accepted, formula'⟩

end LessonCalc.Formula
