import LessonCalc.Proofs.Formula.Lexing

/-!
# What the strict reader accepts

The evaluator reads every text.  The strict reader refuses some, and this module says which: those
that the evaluator could read only by tolerating something.

* `parse_eq_ok`: a text that is accepted is cut cleanly, and its tree is one of its tokens.
* `exists_parse_iff_isFormula`: the texts that are accepted are those of the grammar.
* `exists_parse_of_isFormula`: a text that is cut cleanly into a formula is accepted.
* `exists_parse_iff_readsAsWritten`: so a text is accepted exactly if it reads as written.
-/

namespace LessonCalc.Formula

open LessonCalc.Number LessonCalc.Text

/-! ## Accepted texts -/

theorem parseChars_eq_ok_iff {text : List Char} {tree : Tree} :
    parseChars text = .ok tree ↔
      dropBlanks text ≠ [] ∧ ∃ lexemes, lex text = (lexemes, []) ∧ parseAll lexemes = .ok tree := by
  unfold parseChars
  by_cases blank : dropBlanks text = []
  · simp [blank]
  · rcases scan : lex text with ⟨lexemes, stop⟩
    cases parsed : parseAll lexemes with
    | error refusal => cases refusal <;> simp [blank, parsed]
    | ok tree' => cases stop <;> simp [blank, parsed]

/-- Blanks hold no tokens. -/
theorem tokensOf_eq_nil {cs : List Char} (blank : dropBlanks cs = []) : tokensOf cs = [] := by
  have all := dropBlanks_eq_nil_iff.mp blank
  clear blank
  induction cs with
  | nil => simp [tokensOf, pieces]
  | cons c rest ih =>
      obtain ⟨first, others⟩ := List.forall_mem_cons.mp all
      rw [tokensOf_cons, takePiece_of_isBlank first]
      exact ih others

/-- A phrase has a token. -/
theorem Derives.ne_nil {Takes : Bool → Prop} {phrase : Phrase} {tokens : List Token} {tree : Tree}
    {dangles : Bool} (derives : Derives Takes phrase tokens tree dangles) : tokens ≠ [] := by
  induction derives with
  | atom _ ih => exact ih
  | operand _ ih => exact ih
  | condition _ ih => exact ih
  | _ => simp

/-- A text that is accepted is cut cleanly, and its tree is one of its tokens. -/
theorem parse_eq_ok {formula : String} {tree : Tree} (accepted : parse formula = .ok tree) :
    CutsCleanly formula.toList ∧ IsFormula (tokenize formula) tree := by
  obtain ⟨_, lexemes, whole, parsed⟩ := parseChars_eq_ok_iff.mp accepted
  have spelled := isFormula_of_parseAll parsed
  obtain ⟨clean, same⟩ := cutsCleanly_of_lex whole spelled
  rw [tokenize, same]
  exact ⟨clean, spelled⟩

/-- The strict reader accepts what the strict scan reads to its end, into tokens that the grammar
derives. -/
theorem exists_parse_iff_isFormula {formula : String} :
    (∃ tree, parse formula = .ok tree) ↔
      ∃ lexemes tree, lex formula.toList = (lexemes, []) ∧ IsFormula (tokensIn lexemes) tree := by
  constructor
  · rintro ⟨tree, accepted⟩
    obtain ⟨_, lexemes, whole, parsed⟩ := parseChars_eq_ok_iff.mp accepted
    exact ⟨lexemes, tree, whole, isFormula_of_parseAll parsed⟩
  · rintro ⟨lexemes, tree, whole, spelled⟩
    obtain ⟨tree', parsed⟩ := spelled.exists_parseAll
    refine ⟨tree', parseChars_eq_ok_iff.mpr ⟨fun blank => ?_, lexemes, whole, parsed⟩⟩
    obtain ⟨_, same⟩ := cutsCleanly_of_lex whole spelled
    obtain ⟨_, derives⟩ := spelled
    exact derives.ne_nil (by rw [← same, tokensOf_eq_nil blank])

/-- A text that is cut cleanly into a formula is accepted. -/
theorem exists_parse_of_isFormula {formula : String} {tree : Tree}
    (clean : CutsCleanly formula.toList) (spelled : IsFormula (tokenize formula) tree) :
    ∃ tree', parse formula = .ok tree' := by
  obtain ⟨lexemes, whole, same⟩ := clean.lex
  rw [tokenize, ← same] at spelled
  exact exists_parse_iff_isFormula.mpr ⟨lexemes, tree, whole, spelled⟩

/-! ## Texts that read as written -/

/-- The evaluator reads the text without tolerating anything. -/
structure ReadsAsWritten (formula : String) : Prop where
  /-- Between tokens there is nothing but layout. -/
  layout : ∀ piece ∈ pieces formula.toList, piece.token = none →
    ∀ c ∈ piece.text, isLayout c = true
  /-- Every run of digits and points is a literal as a whole. -/
  literals : ∀ run, Token.number run ∈ tokenize formula → IsLiteral run
  /-- A value stands wherever one is read, and every parenthesis is closed. -/
  clean : (read (tokenize formula)).1.IsClean
  /-- No token is left over. -/
  whole : (read (tokenize formula)).2 = []

/-- The strict reader accepts a text exactly if the evaluator reads it without tolerating anything. -/
theorem exists_parse_iff_readsAsWritten (formula : String) :
    (∃ tree, parse formula = .ok tree) ↔ ReadsAsWritten formula := by
  constructor
  · rintro ⟨tree, accepted⟩
    obtain ⟨⟨layout, literals⟩, spelled⟩ := parse_eq_ok accepted
    obtain ⟨tree', innermost⟩ := spelled.exists_innermost
    obtain ⟨clean, whole, _⟩ := isInnermost_iff.mp innermost
    exact ⟨layout, literals, clean, whole⟩
  · rintro ⟨layout, literals, clean, whole⟩
    have innermost := isInnermost_iff.mpr ⟨clean, whole, rfl⟩
    exact exists_parse_of_isFormula ⟨layout, literals⟩ innermost.isFormula

end LessonCalc.Formula
