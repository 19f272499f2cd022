import LessonCalc.Proofs.Formula.Neighbours
import LessonCalc.Proofs.Formula.Strict
import LessonCalc.Proofs.Number.Literal

/-!
# Two ways to cut a formula into tokens

The tolerant scan never fails, and so it hides three things: characters that belong to no token, white
space of any kind, and runs of digits and points that are no number.  The strict scan stops at all of
them, except that it cuts `1.2.3` into two numbers.

`CutsCleanly` says that the tolerant scan hid nothing.

* `CutsCleanly.lex`: then the strict scan reads the whole text, into the same tokens.
* `cutsCleanly_of_lex`: if the strict scan reads the whole text and no two numbers are neighbours, then
  the tolerant scan hid nothing.  In a formula no two numbers are neighbours.
-/

namespace LessonCalc.Formula

open LessonCalc.Number LessonCalc.Text

/-- The run is a plain literal from its first character to its last. -/
def IsLiteral (run : String) : Prop :=
  ∃ l, plain? run.toList = some (l, [])

/-- What belongs to no token is layout, and every number is a literal. -/
structure CutsCleanly (cs : List Char) : Prop where
  layout : ∀ piece ∈ pieces cs, piece.token = none → ∀ c ∈ piece.text, isLayout c = true
  literals : ∀ run, Token.number run ∈ tokensOf cs → IsLiteral run

/-- The token is a number. -/
def Token.isNumber : Token → Bool
  | .number _ => true
  | _ => false

/-! ## Classes of characters -/

section Classes

variable {c : Char}

theorem isBlank_of_isLayout (layout : isLayout c = true) : isBlank c = true := by
  simp only [isLayout, Bool.or_eq_true, beq_iff_eq] at layout
  rcases layout with (((rfl | rfl) | rfl) | rfl) | rfl <;> decide

theorem isLayout_eq_false (inside : isBlank c = false) : isLayout c = false := by
  cases layout : isLayout c with
  | false => rfl
  | true => exact absurd (isBlank_of_isLayout layout) (by simp [inside])

theorem isDigit_iff : isDigit c = true ↔ 48 ≤ c.toNat ∧ c.toNat ≤ 57 := by
  simp [isDigit, Char.le_def, UInt32.le_iff_toNat_le]

theorem isNumberChar_iff :
    isNumberChar c = true ↔ (48 ≤ c.toNat ∧ c.toNat ≤ 57) ∨ c.toNat = 46 := by
  simp only [isNumberChar, Bool.or_eq_true, isDigit_iff, beq_iff_eq, ← Char.toNat_inj]
  rfl

theorem isNameStart_iff :
    isNameStart c = true ↔
      ((97 ≤ c.toNat ∧ c.toNat ≤ 122) ∨ (65 ≤ c.toNat ∧ c.toNat ≤ 90)) ∨ c.toNat = 95 := by
  simp [isNameStart, Char.le_def, UInt32.le_iff_toNat_le, ← Char.toNat_inj]

theorem isBlank_eq_false (above : 33 ≤ c.toNat) (below : c.toNat ≤ 126) : isBlank c = false := by
  simp only [isBlank, isSpace, Bool.or_eq_false_iff, Bool.and_eq_false_imp, decide_eq_true_eq,
    decide_eq_false_iff_not, beq_eq_false_iff_ne]
  omega

theorem isBlank_of_isNumberChar (number : isNumberChar c = true) : isBlank c = false := by
  have code := isNumberChar_iff.mp number
  exact isBlank_eq_false (by omega) (by omega)

theorem isBlank_of_isNameStart (start : isNameStart c = true) : isBlank c = false := by
  have code := isNameStart_iff.mp start
  exact isBlank_eq_false (by omega) (by omega)

theorem isNameStart_of_isNumberChar (number : isNumberChar c = true) : isNameStart c = false := by
  have code := isNumberChar_iff.mp number
  refine Bool.eq_false_iff.mpr fun start => ?_
  have code' := isNameStart_iff.mp start
  omega

/-- An operator or a bracket starts with a character of no other class. -/
def IsMark (c : Char) : Prop :=
  isBlank c = false ∧ isNumberChar c = false ∧ isNameStart c = false

theorem isMark_of_singleToken? {token : Token} (found : singleToken? c = some token) :
    IsMark c := by
  unfold singleToken? at found
  split at found <;> first | exact ⟨by decide, by decide, by decide⟩ | cases found

theorem isNumber_of_singleToken? {token : Token} (found : singleToken? c = some token) :
    token.isNumber = false := by
  unfold singleToken? at found
  split at found <;> cases found <;> rfl

theorem isMark_of_takeDouble? {rest left : List Char} {op : Operator} {d : Char}
    (found : takeDouble? c rest = some (op, d, left)) : IsMark c := by
  cases rest with
  | nil => cases found
  | cons e rest =>
      simp only [takeDouble?, Option.map_eq_some_iff] at found
      obtain ⟨op, found, _⟩ := found
      unfold doubleOperator? at found
      split at found <;> first | exact ⟨by decide, by decide, by decide⟩ | cases found

end Classes

/-! ## One token in two ways -/

section Step

variable {c : Char} {rest left : List Char}

theorem isNumberChar_of_plain? {l : Literal} (found : plain? (c :: rest) = some (l, left)) :
    isNumberChar c = true := by
  obtain ⟨used, split, text, _⟩ := plain?_eq_some_iff.mp found
  cases used with
  | nil => exact absurd rfl text.ne_nil
  | cons d used =>
      cases split
      simpa [isNumberChar] using text.inside c (List.mem_cons_self ..)

/-- Away from numbers the scans take the same token, or none. -/
theorem strictToken?_eq_takePiece (number : isNumberChar c = false) :
    strictToken? c rest =
      (takePiece c rest).1.token.map fun token => (token, (takePiece c rest).2) := by
  have noLiteral : plain? (c :: rest) = none := by
    cases found : plain? (c :: rest) with
    | none => rfl
    | some front => exact absurd (isNumberChar_of_plain? found) (by simp [number])
  unfold strictToken? takePiece
  cases start : isNameStart c with
  | true => simp [isBlank_of_isNameStart start, number]
  | false =>
      simp only [noLiteral, Bool.false_eq_true, ↓reduceIte, number]
      cases double : takeDouble? c rest with
      | some found =>
          obtain ⟨op, d, left⟩ := found
          simp [(isMark_of_takeDouble? double).1]
      | none =>
          cases single : singleToken? c with
          | some token => simp [(isMark_of_singleToken? single).1]
          | none => cases isBlank c <;> simp

theorem takePiece_of_isBlank (blank : isBlank c = true) : takePiece c rest = (⟨none, [c]⟩, rest) := by
  simp [takePiece, blank]

theorem takePiece_of_isNumberChar (number : isNumberChar c = true) :
    takePiece c rest =
      (⟨some (.number (String.ofList (c :: rest.takeWhile isNumberChar))),
        c :: rest.takeWhile isNumberChar⟩, rest.dropWhile isNumberChar) := by
  simp [takePiece, isBlank_of_isNumberChar number, number]

/-- At a number the strict scan takes the longest literal. -/
theorem strictToken?_of_plainText {used : List Char} {l : Literal} (split : c :: rest = used ++ left)
    (text : PlainText l used) (stops : CannotGrow used left) :
    strictToken? c rest = some (.number (String.ofList used), left) := by
  have found := text.plain? stops
  have number : isNumberChar c = true := isNumberChar_of_plain? (split ▸ found)
  have length := congrArg List.length split
  simp only [List.length_cons, List.length_append] at length
  simp only [strictToken?, isNameStart_of_isNumberChar number, split, found, Bool.false_eq_true,
    ↓reduceIte]
  rw [show rest.length + 1 - left.length = used.length by omega, List.take_left]

/-- A run that is a literal is the token that the strict scan takes. -/
theorem strictToken?_of_isLiteral
    (literal : IsLiteral (String.ofList (c :: rest.takeWhile isNumberChar))) :
    strictToken? c rest =
      some (.number (String.ofList (c :: rest.takeWhile isNumberChar)),
        rest.dropWhile isNumberChar) := by
  obtain ⟨l, found⟩ := literal
  rw [String.toList_ofList] at found
  obtain ⟨used, split, text, _⟩ := plain?_eq_some_iff.mp found
  rw [List.append_nil] at split
  rw [split]
  refine strictToken?_of_plainText (l := l) ?_ text fun d next => ?_
  · rw [← split, List.cons_append, List.takeWhile_append_dropWhile]
  · have outside := dropWhile_stops rest d next
    simp only [isNumberChar, Bool.or_eq_false_iff, beq_eq_false_iff_ne] at outside
    exact ⟨outside.1, fun _ => outside.2⟩

/-- At a number the strict scan takes the longest literal or nothing. -/
theorem plainText_of_strictToken? {token : Token} (number : isNumberChar c = true)
    (found : strictToken? c rest = some (token, left)) :
    ∃ used l, c :: rest = used ++ left ∧ PlainText l used ∧ token = .number (String.ofList used) := by
  cases plain : plain? (c :: rest) with
  | some front =>
      obtain ⟨l, left'⟩ := front
      obtain ⟨used, split, text, stops⟩ := plain?_eq_some_iff.mp plain
      rw [strictToken?_of_plainText split text stops] at found
      cases found
      exact ⟨used, l, split, text, rfl⟩
  | none =>
      have noDouble : takeDouble? c rest = none := by
        cases double : takeDouble? c rest with
        | none => rfl
        | some front => exact absurd (isMark_of_takeDouble? double).2.1 (by simp [number])
      have noSingle : singleToken? c = none := by
        cases single : singleToken? c with
        | none => rfl
        | some token => exact absurd (isMark_of_singleToken? single).2.1 (by simp [number])
      simp [strictToken?, isNameStart_of_isNumberChar number, plain, noDouble, noSingle] at found

/-- The literal that the strict scan takes is the whole run if no character of a number follows it. -/
theorem takePiece_of_plainText {used : List Char} {l : Literal} (split : c :: rest = used ++ left)
    (text : PlainText l used) (stops : ∀ d, left.head? = some d → isNumberChar d = false) :
    (takePiece c rest).1.token = some (.number (String.ofList used)) ∧
      (takePiece c rest).2 = left ∧ IsLiteral (String.ofList used) := by
  have inside : ∀ d ∈ used, isNumberChar d = true := fun d member => by
    simpa [isNumberChar] using text.inside d member
  have run := takeWhile_run inside stops
  have after := dropWhile_run inside stops
  have number : isNumberChar c = true := by
    cases used with
    | nil => exact absurd rfl text.ne_nil
    | cons d used =>
        cases split
        exact inside c (List.mem_cons_self ..)
  rw [← split, List.takeWhile_cons_of_pos number] at run
  rw [← split, List.dropWhile_cons_of_pos number] at after
  rw [takePiece_of_isNumberChar number, run, after]
  refine ⟨rfl, rfl, l, ?_⟩
  have alone : plain? (used ++ []) = some (l, []) := text.plain? fun d next => by cases next
  rwa [List.append_nil, ← String.toList_ofList (l := used)] at alone

/-- A piece is a single character without a token, or a token, which is a number exactly if its first
character is one of a number. -/
theorem takePiece_cases (c : Char) (rest : List Char) :
    takePiece c rest = (⟨none, [c]⟩, rest) ∨
      isBlank c = false ∧
        ∃ token, (takePiece c rest).1.token = some token ∧ token.isNumber = isNumberChar c := by
  unfold takePiece
  cases blank : isBlank c with
  | true => exact .inl rfl
  | false =>
      cases number : isNumberChar c with
      | true => exact .inr ⟨rfl, _, rfl, rfl⟩
      | false =>
          cases start : isNameStart c with
          | true => exact .inr ⟨rfl, _, rfl, rfl⟩
          | false =>
              cases double : takeDouble? c rest with
              | some found => exact .inr ⟨rfl, _, rfl, rfl⟩
              | none =>
                  cases single : singleToken? c with
                  | none => exact .inl rfl
                  | some token => exact .inr ⟨rfl, _, rfl, isNumber_of_singleToken? single⟩

/-- A token that is no number, or a literal, is the token that the strict scan takes. -/
theorem strictToken?_of_takePiece {token : Token}
    (same : (takePiece c rest).1.token = some token)
    (literal : ∀ run, token = .number run → IsLiteral run) :
    isLayout c = false ∧ strictToken? c rest = some (token, (takePiece c rest).2) := by
  rcases takePiece_cases c rest with alone | ⟨inside, _⟩
  · rw [alone] at same
    cases same
  · refine ⟨isLayout_eq_false inside, ?_⟩
    cases number : isNumberChar c with
    | true =>
        rw [takePiece_of_isNumberChar number] at same ⊢
        cases same
        exact strictToken?_of_isLiteral (literal _ rfl)
    | false => rw [strictToken?_eq_takePiece number, same, Option.map_some]

/-- The token that the strict scan takes is that of the piece, unless it is a number that another
character of a number follows. -/
theorem takePiece_of_strictToken? {token : Token} (found : strictToken? c rest = some (token, left))
    (stops : isNumberChar c = true → ∀ d, left.head? = some d → isNumberChar d = false) :
    (takePiece c rest).1.token = some token ∧ (takePiece c rest).2 = left ∧
      ∀ run, token = .number run → IsLiteral run := by
  cases number : isNumberChar c with
  | true =>
      obtain ⟨used, l, split, text, rfl⟩ := plainText_of_strictToken? number found
      obtain ⟨same, rest', literal⟩ := takePiece_of_plainText split text (stops number)
      exact ⟨same, rest', fun run isNumber => by cases isNumber; exact literal⟩
  | false =>
      rw [strictToken?_eq_takePiece number] at found
      obtain ⟨token', same, equal⟩ := Option.map_eq_some_iff.mp found
      cases equal
      refine ⟨same, rfl, fun run isNumber => ?_⟩
      rcases takePiece_cases c rest with alone | ⟨_, _, same', kind⟩
      · rw [alone] at same
        cases same
      · cases same.symm.trans same'
        rw [number, isNumber] at kind
        cases kind

end Step

/-! ## The whole text -/

section Whole

variable {bound : Nat} {cs : List Char}

theorem lexWithin_skip {c : Char} {rest : List Char} (layout : isLayout c = true) :
    lexWithin (bound + 1) (c :: rest) = lexWithin bound rest := by
  simp [lexWithin, layout]

theorem lexWithin_take {c : Char} {rest left : List Char} {token : Token}
    (layout : isLayout c = false) (found : strictToken? c rest = some (token, left)) :
    lexWithin (bound + 1) (c :: rest) =
      (⟨token, c :: rest⟩ :: (lexWithin bound left).1, (lexWithin bound left).2) := by
  simp [lexWithin, layout, found]

/-- A strict scan that reads a text to its end takes a token wherever there is no layout. -/
theorem exists_token_of_lexWithin {c : Char} {rest : List Char} {lexemes : List Lexeme}
    (inside : isLayout c = false) (whole : lexWithin (bound + 1) (c :: rest) = (lexemes, [])) :
    ∃ token left more, strictToken? c rest = some (token, left) ∧
      lexWithin bound left = (more, []) ∧ lexemes = ⟨token, c :: rest⟩ :: more := by
  cases found : strictToken? c rest with
  | none => simp [lexWithin, inside, found] at whole
  | some front =>
      obtain ⟨token, left⟩ := front
      rw [lexWithin_take inside found] at whole
      simp only [Prod.mk.injEq] at whole
      exact ⟨token, left, _, rfl, Prod.ext rfl whole.2, whole.1.symm⟩

theorem mem_tokensOf {token : Token} :
    token ∈ tokensOf cs ↔ ∃ piece ∈ pieces cs, piece.token = some token :=
  List.mem_filterMap

theorem cutsCleanly_nil : CutsCleanly [] where
  layout _ member := by simp [pieces] at member
  literals _ member := by simp [tokensOf, pieces] at member

theorem cutsCleanly_cons_iff {c : Char} {rest : List Char} :
    CutsCleanly (c :: rest) ↔
      ((takePiece c rest).1.token = none →
        ∀ d ∈ (takePiece c rest).1.text, isLayout d = true) ∧
      (∀ run, (takePiece c rest).1.token = some (.number run) → IsLiteral run) ∧
      CutsCleanly (takePiece c rest).2 := by
  have split : pieces (c :: rest) = (takePiece c rest).1 :: pieces (takePiece c rest).2 := by
    rw [pieces]
  constructor
  · rintro ⟨layout, literals⟩
    simp only [mem_tokensOf, split] at layout literals
    refine ⟨layout _ (List.mem_cons_self ..), fun run same => ?_, fun piece member => ?_,
      fun run member => ?_⟩
    · exact literals run ⟨_, List.mem_cons_self .., same⟩
    · exact layout piece (List.mem_cons_of_mem _ member)
    · obtain ⟨piece, member, same⟩ := mem_tokensOf.mp member
      exact literals run ⟨piece, List.mem_cons_of_mem _ member, same⟩
  · rintro ⟨front, number, layout, literals⟩
    refine ⟨fun piece member => ?_, fun run member => ?_⟩
    · rw [split] at member
      rcases List.mem_cons.mp member with rfl | member
      · exact front
      · exact layout piece member
    · obtain ⟨piece, member, same⟩ := mem_tokensOf.mp member
      rw [split] at member
      rcases List.mem_cons.mp member with rfl | member
      · exact number run same
      · exact literals run (mem_tokensOf.mpr ⟨piece, member, same⟩)

theorem tokensOf_cons {c : Char} {rest : List Char} :
    tokensOf (c :: rest) =
      (takePiece c rest).1.token.toList ++ tokensOf (takePiece c rest).2 := by
  rw [tokensOf, pieces, List.filterMap_cons]
  cases (takePiece c rest).1.token <;> rfl

/-- A text that is cut cleanly is read to its end by the strict scan, into the same tokens. -/
theorem CutsCleanly.lexWithin (clean : CutsCleanly cs) (enough : cs.length < bound) :
    ∃ lexemes, lexWithin bound cs = (lexemes, []) ∧ tokensIn lexemes = tokensOf cs := by
  induction bound generalizing cs with
  | zero => exact absurd enough (Nat.not_lt_zero _)
  | succ bound ih =>
      cases cs with
      | nil => exact ⟨[], rfl, by simp [tokensOf, pieces]⟩
      | cons c rest =>
          obtain ⟨layout, literal, clean⟩ := cutsCleanly_cons_iff.mp clean
          have shorter := takePiece_length c rest
          simp only [List.length_cons, Nat.add_lt_add_iff_right] at enough
          obtain ⟨lexemes, whole, same⟩ := ih clean (by omega)
          rw [tokensOf_cons]
          cases token : (takePiece c rest).1.token with
          | none =>
              rcases takePiece_cases c rest with alone | ⟨_, token', found, _⟩
              · have blank := layout token c (by rw [alone]; exact List.mem_cons_self ..)
                rw [alone] at whole
                rw [lexWithin_skip blank, whole]
                exact ⟨lexemes, rfl, same⟩
              · cases token.symm.trans found
          | some token' =>
              obtain ⟨inside, found⟩ :=
                strictToken?_of_takePiece token fun run number => literal run (number ▸ token)
              rw [lexWithin_take inside found, whole]
              exact ⟨_, rfl, by simp [tokensIn, ← same]⟩

/-- Two tokens in a row are not both numbers. -/
def Token.Apart (first second : Token) : Prop :=
  first.isNumber = true → second.isNumber = false

/-- A strict scan that reads a text to its end finds a number where a number can start. -/
theorem isNumber_of_lexWithin {c : Char} {rest : List Char} {lexemes : List Lexeme}
    (whole : lexWithin (bound + 1) (c :: rest) = (lexemes, [])) (number : isNumberChar c = true) :
    ∃ token more, tokensIn lexemes = token :: more ∧ token.isNumber = true := by
  have inside := isLayout_eq_false (isBlank_of_isNumberChar number)
  obtain ⟨token, left, more, found, _, rfl⟩ := exists_token_of_lexWithin inside whole
  obtain ⟨used, l, _, _, rfl⟩ := plainText_of_strictToken? number found
  exact ⟨_, _, rfl, rfl⟩

/-- If the strict scan reads a text to its end and finds no two numbers in a row, the text is cut
cleanly, into the same tokens. -/
theorem cutsCleanly_of_lexWithin {lexemes : List Lexeme}
    (whole : lexWithin bound cs = (lexemes, [])) (enough : cs.length < bound)
    (apart : (tokensIn lexemes).IsChain Token.Apart) :
    CutsCleanly cs ∧ tokensOf cs = tokensIn lexemes := by
  induction bound generalizing cs lexemes with
  | zero => exact absurd enough (Nat.not_lt_zero _)
  | succ bound ih =>
      cases cs with
      | nil =>
          cases whole
          exact ⟨cutsCleanly_nil, by simp [tokensOf, pieces]⟩
      | cons c rest =>
          have shorter := takePiece_length c rest
          simp only [List.length_cons, Nat.add_lt_add_iff_right] at enough
          rw [tokensOf_cons, cutsCleanly_cons_iff]
          cases inside : isLayout c with
          | true =>
              rw [lexWithin_skip inside] at whole
              rw [takePiece_of_isBlank (isBlank_of_isLayout inside)]
              obtain ⟨clean, same⟩ := ih whole enough apart
              exact ⟨⟨by simp [inside], by simp, clean⟩, same⟩
          | false =>
              obtain ⟨token, left, more, found, whole, rfl⟩ := exists_token_of_lexWithin inside whole
              obtain ⟨apart, apart'⟩ := List.isChain_cons.mp apart
              have stops : isNumberChar c = true →
                  ∀ d, left.head? = some d → isNumberChar d = false := by
                intro number d next
                obtain ⟨_, _, _, _, rfl⟩ := plainText_of_strictToken? number found
                cases left with
                | nil => cases next
                | cons e after =>
                    cases next
                    refine Bool.eq_false_iff.mpr fun again => ?_
                    obtain ⟨bound, rfl⟩ := Nat.exists_eq_succ_of_ne_zero (by omega : bound ≠ 0)
                    obtain ⟨second, _, same, isNumber⟩ := isNumber_of_lexWithin whole again
                    have other := apart second (congrArg List.head? same) rfl
                    simp [isNumber] at other
              obtain ⟨same, rfl, literal⟩ := takePiece_of_strictToken? found stops
              obtain ⟨clean, same'⟩ := ih whole (by omega) apart'
              rw [same, same']
              exact ⟨⟨by simp, fun run number => literal run (Option.some.inj number), clean⟩, rfl⟩

end Whole

/-- A text that is cut cleanly is read to its end by the strict scan, into the same tokens. -/
theorem CutsCleanly.lex {cs : List Char} (clean : CutsCleanly cs) :
    ∃ lexemes, lex cs = (lexemes, []) ∧ tokensIn lexemes = tokensOf cs :=
  clean.lexWithin (Nat.lt_succ_self _)

/-! ## Numbers in formulas -/

/-- A number is a word. -/
theorem Token.Splits.apart {first second : Token} (splits : first.Splits second) :
    first.Apart second := by
  have word : ∀ token : Token, token.isNumber = true → token.isWord = true := by
    intro token number
    cases token <;> first | rfl | cases number
  intro number
  refine Bool.eq_false_iff.mpr fun again => ?_
  exact absurd (word second again) (Bool.eq_false_iff.mp (splits.word (word first number)))

/-- If the strict scan reads a formula to its end, the text is cut cleanly, into the same tokens. -/
theorem cutsCleanly_of_lex {cs : List Char} {lexemes : List Lexeme} {tree : Tree}
    (whole : lex cs = (lexemes, [])) (formula : IsFormula (tokensIn lexemes) tree) :
    CutsCleanly cs ∧ tokensOf cs = tokensIn lexemes := by
  obtain ⟨_, derives⟩ := formula
  have apart : (tokensIn lexemes).IsChain Token.Apart :=
    derives.separated.splits.imp fun _ _ splits => splits.apart
  exact cutsCleanly_of_lexWithin whole (Nat.lt_succ_self _) apart

end LessonCalc.Formula
