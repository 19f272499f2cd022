import LessonCalc.Proofs.Formula.FirstProblem
import Mathlib.Data.List.TakeWhile

/-!
# Separators

A separator is a character that no token holds, blank or not.  It ends the token before it whatever that
is, so that a text is cut into tokens on either side of a separator alone.

* `isSeparator`: which characters are separators.
* `IsBoundary`: which characters go on with no token; separators are among them.
* `takePiece_append`: a piece is the same in front of such a character as at the end of a text.
* `tokensOf_append_cons`, `tokensOf_append`: so tokens of a text are those before it and those from it on,
  or behind a separator.
* `exists_takePiece_text`, `flatMap_tokenTexts`: the text of a token is cut into that token.
* `tokenize_separated`: a formula is cut into the same tokens again if those are written with spaces between.
-/

namespace LessonCalc.Formula

open LessonCalc.Number LessonCalc.Text

/-! ## Separators -/

/-- A character of operators, brackets and the marks of a condition. -/
def isMarkChar (c : Char) : Bool :=
  "+-*/%><=!()?:".toList.contains c

/-- A blank, or a character that stands in no number, no name and no mark. -/
def isSeparator (c : Char) : Bool :=
  isBlank c || !(isNumberChar c || isNameChar c || isMarkChar c)

variable {c : Char}

theorem isNumberChar_of_isSeparator (separates : isSeparator c = true) : isNumberChar c = false := by
  cases number : isNumberChar c with
  | false => rfl
  | true => simp [isSeparator, isBlank_of_isNumberChar number, number] at separates

theorem isNameChar_of_isSeparator (separates : isSeparator c = true) : isNameChar c = false := by
  cases name : isNameChar c with
  | false => rfl
  | true =>
      have inside : isBlank c = false := by
        rcases Bool.or_eq_true_iff.mp name with start | digit
        · exact isBlank_of_isNameStart start
        · exact isBlank_of_isNumberChar (by rw [isNumberChar, digit, Bool.true_or])
      simp [isSeparator, inside, name] at separates

theorem isMarkChar_of_isSeparator (separates : isSeparator c = true) : isMarkChar c = false := by
  cases mark : isMarkChar c with
  | false => rfl
  | true =>
      have visible : "+-*/%><=!()?:".toList.all (fun d => !isBlank d) = true := by decide
      have inside := List.all_eq_true.mp visible c (List.contains_iff_mem.mp mark)
      rw [Bool.not_eq_true'] at inside
      simp [isSeparator, inside, mark] at separates

/-- A separator is no token on its own. -/
theorem singleToken?_of_isSeparator (separates : isSeparator c = true) : singleToken? c = none := by
  have mark := isMarkChar_of_isSeparator separates
  unfold singleToken?
  split <;> first | rfl | cases mark

/-- A separator does not start an operator of two characters. -/
theorem takeDouble?_of_isSeparator (separates : isSeparator c = true) (rest : List Char) :
    takeDouble? c rest = none := by
  cases rest with
  | nil => rfl
  | cons d rest =>
      have mark := isMarkChar_of_isSeparator separates
      rw [takeDouble?, Option.map_eq_none_iff]
      unfold doubleOperator?
      split <;> first | rfl | cases mark

/-- A separator is a piece without a token. -/
theorem takePiece_of_isSeparator (separates : isSeparator c = true) (rest : List Char) :
    takePiece c rest = (⟨none, [c]⟩, rest) := by
  have name := isNameChar_of_isSeparator separates
  rw [isNameChar, Bool.or_eq_false_iff] at name
  simp only [takePiece, isNumberChar_of_isSeparator separates, name.1,
    takeDouble?_of_isSeparator separates, singleToken?_of_isSeparator separates, Bool.false_eq_true,
    ↓reduceIte, ite_self]

/-- A character that goes on with no token before it. -/
structure IsBoundary (c : Char) : Prop where
  number : isNumberChar c = false
  name : isNameChar c = false
  equals : c ≠ '='

/-- A separator goes on with no token. -/
theorem isBoundary_of_isSeparator (separates : isSeparator c = true) : IsBoundary c where
  number := isNumberChar_of_isSeparator separates
  name := isNameChar_of_isSeparator separates
  equals := by
    rintro rfl
    cases isMarkChar_of_isSeparator separates

/-! ## Texts before and behind a boundary -/

section Append

variable {p : Char → Bool} (front after : List Char)

/-- A run ends before a character of another class. -/
theorem takeWhile_append_cons (stops : p c = false) :
    (front ++ c :: after).takeWhile p = front.takeWhile p := by
  induction front with
  | nil => rw [List.nil_append, List.takeWhile_cons_of_neg (by simp [stops]), List.takeWhile_nil]
  | cons d front ih => rw [List.cons_append, List.takeWhile_cons, List.takeWhile_cons, ih]

theorem dropWhile_append_cons (stops : p c = false) :
    (front ++ c :: after).dropWhile p = front.dropWhile p ++ c :: after := by
  induction front with
  | nil => rw [List.nil_append, List.dropWhile_cons_of_neg (by simp [stops]), List.dropWhile_nil,
      List.nil_append]
  | cons d front ih =>
      rw [List.cons_append, List.dropWhile_cons, List.dropWhile_cons, ih]
      split <;> rfl

/-- An operator of two characters goes on with an equals sign only. -/
theorem takeDouble?_append (other : c ≠ '=') (d : Char) :
    takeDouble? d (front ++ c :: after) =
      (takeDouble? d front).map fun (op, e, left) => (op, e, left ++ c :: after) := by
  cases front with
  | cons e front =>
      rw [List.cons_append, takeDouble?, takeDouble?, Option.map_map]
      rfl
  | nil => exact takeDouble?_eq_none d fun same => other (Option.some.inj same)

/-- A piece is the same in front of a character that does not go on with it as at the end of a text. -/
theorem takePiece_append (boundary : IsBoundary c) (d : Char) :
    takePiece d (front ++ c :: after) =
      ((takePiece d front).1, (takePiece d front).2 ++ c :: after) := by
  obtain ⟨number, name, other⟩ := boundary
  unfold takePiece
  rw [takeDouble?_append front after other, takeWhile_append_cons _ _ number,
    dropWhile_append_cons _ _ number, takeWhile_append_cons _ _ name, dropWhile_append_cons _ _ name]
  cases takeDouble? d front <;> split_ifs <;> rfl

/-- The tokens of a text are those before a character that goes on with none of them, and those from it
on. -/
theorem tokensOf_append_cons (boundary : IsBoundary c) :
    tokensOf (front ++ c :: after) = tokensOf front ++ tokensOf (c :: after) := by
  induction front using pieces.induct with
  | case1 => simp [tokensOf, pieces]
  | case2 d rest ih =>
      rw [List.cons_append, tokensOf_cons, takePiece_append rest after boundary, ih,
        ← List.append_assoc, ← tokensOf_cons]

/-- The tokens of a text are those before and those behind a separator. -/
theorem tokensOf_append (separates : isSeparator c = true) :
    tokensOf (front ++ c :: after) = tokensOf front ++ tokensOf after := by
  have passed : tokensOf (c :: after) = tokensOf after := by
    rw [tokensOf_cons, takePiece_of_isSeparator separates]
    rfl
  rw [tokensOf_append_cons front after (isBoundary_of_isSeparator separates), passed]

end Append

/-! ## The texts of tokens -/

section Alone

variable {rest left : List Char} {op : Operator} {d : Char} {token : Token}

theorem takePiece_of_isNameStart (start : isNameStart c = true) (number : isNumberChar c = false) :
    takePiece c rest =
      (⟨some (.name (String.ofList (c :: rest.takeWhile isNameChar))), c :: rest.takeWhile isNameChar⟩,
        rest.dropWhile isNameChar) := by
  simp only [takePiece, isBlank_of_isNameStart start, number, start, Bool.false_eq_true, ↓reduceIte]

theorem takePiece_of_takeDouble? (double : takeDouble? c rest = some (op, d, left)) :
    takePiece c rest = (⟨some (.operator op), [c, d]⟩, left) := by
  obtain ⟨blank, number, start⟩ := isMark_of_takeDouble? double
  simp only [takePiece, blank, number, start, double, Bool.false_eq_true, ↓reduceIte]

theorem takePiece_of_singleToken? (single : singleToken? c = some token)
    (alone : takeDouble? c rest = none) : takePiece c rest = (⟨some token, [c]⟩, rest) := by
  obtain ⟨blank, number, start⟩ := isMark_of_singleToken? single
  simp only [takePiece, blank, number, start, single, alone, Bool.false_eq_true, ↓reduceIte]

/-- An operator of two characters is the same whatever follows. -/
theorem takeDouble?_alone (double : takeDouble? c rest = some (op, d, left)) :
    takeDouble? c [d] = some (op, d, []) ∧ op.text.toList = [c, d] := by
  cases rest with
  | nil => cases double
  | cons e rest =>
      obtain ⟨op, found, same⟩ := Option.map_eq_some_iff.mp double
      cases same
      exact ⟨by rw [takeDouble?, found, Option.map_some], text_of_doubleOperator? found⟩

/-- The text of a token spells it, and is cut into that token as the text that it was taken from. -/
theorem exists_takePiece_text (taken : (takePiece c rest).1.token = some token) :
    ∃ more, (takePiece c rest).1.text = c :: more ∧ token.text.toList = c :: more ∧
      takePiece c more = ((takePiece c rest).1, []) := by
  have ended : ∀ p : Char → Bool, (rest.takeWhile p).dropWhile p = [] := fun p =>
    List.dropWhile_eq_nil_iff.mpr (takeWhile_inside rest)
  rcases Bool.eq_false_or_eq_true (isNumberChar c) with number | number
  · rw [takePiece_of_isNumberChar number] at taken ⊢
    cases taken
    refine ⟨_, rfl, String.toList_ofList, ?_⟩
    rw [takePiece_of_isNumberChar number, List.takeWhile_idem, ended]
  rcases Bool.eq_false_or_eq_true (isNameStart c) with start | start
  · rw [takePiece_of_isNameStart start number] at taken ⊢
    cases taken
    refine ⟨_, rfl, String.toList_ofList, ?_⟩
    rw [takePiece_of_isNameStart start number, List.takeWhile_idem, ended]
  rcases double : takeDouble? c rest with _ | ⟨op, d, left⟩
  · have single : singleToken? c = some token := by
      simp only [takePiece, number, start, double, Bool.false_eq_true, ↓reduceIte] at taken
      split at taken
      · cases taken
      · exact taken
    rw [takePiece_of_singleToken? single double]
    exact ⟨[], rfl, (text_of_singleToken? single).1, takePiece_of_singleToken? single rfl⟩
  · rw [takePiece_of_takeDouble? double] at taken ⊢
    cases taken
    obtain ⟨alone, text⟩ := takeDouble?_alone double
    exact ⟨[d], rfl, text, takePiece_of_takeDouble? alone⟩

end Alone

/-- The texts of the tokens of a text, as they stand in it. -/
def tokenTexts (cs : List Char) : List (List Char) :=
  (pieces cs).filterMap fun piece => piece.token.map fun _ => piece.text

theorem tokenTexts_cons (rest : List Char) :
    tokenTexts (c :: rest) =
      ((takePiece c rest).1.token.map fun _ => (takePiece c rest).1.text).toList ++
        tokenTexts (takePiece c rest).2 := by
  rw [tokenTexts, pieces, List.filterMap_cons]
  cases (takePiece c rest).1.token <;> rfl

/-- The texts of tokens spell them. -/
theorem tokenTexts_eq (cs : List Char) : tokenTexts cs = (tokensOf cs).map (·.text.toList) := by
  induction cs using pieces.induct with
  | case1 => simp [tokenTexts, tokensOf, pieces]
  | case2 c rest ih =>
      rw [tokenTexts_cons, tokensOf_cons, List.map_append, ih]
      cases taken : (takePiece c rest).1.token with
      | none => rfl
      | some token =>
          obtain ⟨more, text, spelled, -⟩ := exists_takePiece_text taken
          simp [text, spelled]

/-- Each text of a token is cut into that token. -/
theorem flatMap_tokenTexts (cs : List Char) : (tokenTexts cs).flatMap tokensOf = tokensOf cs := by
  induction cs using pieces.induct with
  | case1 => simp [tokenTexts, tokensOf, pieces]
  | case2 c rest ih =>
      rw [tokenTexts_cons, tokensOf_cons, List.flatMap_append, ih]
      cases taken : (takePiece c rest).1.token with
      | none => rfl
      | some token =>
          obtain ⟨more, text, -, again⟩ := exists_takePiece_text taken
          have alone : tokensOf (c :: more) = [token] := by
            rw [tokensOf_cons, again, taken]
            simp [tokensOf, pieces]
          simp [text, alone]

/-- Texts with spaces between are cut into the tokens of each. -/
theorem tokensOf_intercalate (texts : List (List Char)) :
    tokensOf ([' '].intercalate texts) = texts.flatMap tokensOf := by
  have space : isSeparator ' ' = true := rfl
  induction texts with
  | nil => simp [tokensOf, pieces]
  | cons text texts ih =>
      cases texts with
      | nil => simp
      | cons next texts =>
          have split : [' '].intercalate (text :: next :: texts) =
              text ++ ' ' :: [' '].intercalate (next :: texts) := by
            simp [List.intercalate]
          rw [split, tokensOf_append _ _ space, ih]
          rfl

/-! ## Formulas -/

/-- The texts of the tokens of a formula, as they stand in it. -/
def sourceTexts (formula : String) : List String :=
  (tokenTexts formula.toList).map String.ofList

/-- At a separator a formula is cut into the tokens before it and those behind it.  So a formula is cut into
the same tokens again if their texts are written with spaces between. -/
theorem tokenize_separated :
    (∀ (a b : String) (c : Char), isSeparator c = true →
      tokenize (a ++ String.singleton c ++ b) = tokenize a ++ tokenize b) ∧
    ∀ formula : String, sourceTexts formula = (tokenize formula).map Token.text ∧
      tokenize (" ".intercalate (sourceTexts formula)) = tokenize formula := by
  refine ⟨fun a b c separates => ?_, fun formula => ⟨?_, ?_⟩⟩
  · have text : (a ++ String.singleton c ++ b).toList = a.toList ++ c :: b.toList := by
      simp
    rw [tokenize, text, tokensOf_append _ _ separates]
    rfl
  · rw [sourceTexts, tokenTexts_eq, List.map_map, tokenize]
    exact List.map_congr_left fun token _ => String.ofList_toList
  · have text : (" ".intercalate (sourceTexts formula)).toList =
        [' '].intercalate (tokenTexts formula.toList) := by
      rw [String.toList_intercalate, sourceTexts, List.map_map]
      simp
    rw [tokenize, text, tokensOf_intercalate, flatMap_tokenTexts]
    rfl

/-- Half an operator before a separator does not go on behind it, and an equals sign alone is no token. -/
theorem tokenize_separated_half :
    isSeparator ';' = true ∧
      tokenize "1.2<;=.3" = [.number "1.2", .operator .lt] ++ [.number ".3"] ∧
      tokenize "1.2 < .3" = [.number "1.2", .operator .lt, .number ".3"] := by
  obtain ⟨cut, again⟩ := tokenize_separated
  have before : tokenize "1.2<" = [.number "1.2", .operator .lt] := by decide +kernel
  have behind : tokenize "=.3" = [.number ".3"] := by decide +kernel
  have split : tokenize "1.2<;=.3" = tokenize "1.2<" ++ tokenize "=.3" := cut "1.2<" "=.3" ';' rfl
  have tokens : tokenize "1.2<;=.3" = [.number "1.2", .operator .lt, .number ".3"] := by
    rw [split, before, behind]
    rfl
  obtain ⟨texts, same⟩ := again "1.2<;=.3"
  rw [texts, tokens] at same
  exact ⟨rfl, tokens, same⟩

end LessonCalc.Formula
