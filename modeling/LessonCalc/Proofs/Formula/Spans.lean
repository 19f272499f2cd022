import LessonCalc.Proofs.Formula.Separators
import LessonCalc.Proofs.Number.Typed

/-!
# Where the tokens of a formula stand

The scan of a formula takes tokens and passes over characters.  Here the places of its tokens are told
without the scan: which characters a token is read from, what may follow them, and at which positions
nothing can be read.  That leaves one way to cut a text into tokens, and the scan finds it.

* `Takes`: the characters of a token, and what may follow them.
* `CanPass`: nothing can be read at the front of a text.
* `Segments`: spans that are apart, each that of a token, with nothing to be read outside of them.
* `Takes.exists_takePiece`, `takes_of_takePiece`, `canPass_iff`: a token can be taken exactly where the
  scan takes it, and a character be passed over exactly where the scan passes over it.
* `segments_iff`: so a text has one segmentation, which is that of the scan.
-/

namespace LessonCalc.Formula

open LessonCalc.Number LessonCalc.Text

/-! ## Numbers -/

/-- The value of a run of digits and points: that of the longest literal at its front, and not a number
if no literal stands there. -/
inductive StandsFor : List Char → Float → Prop
  | literal {run used : List Char} {l : Literal} :
      IsLongest (fun front => ∃ l, PlainText l front) run used → PlainText l used →
      StandsFor run l.toFloat
  | nothing {run : List Char} :
      (∀ used l, used <+: run → ¬PlainText l used) → StandsFor run (0.0 / 0.0)

/-- What follows the longest plain literal does not go on with it. -/
theorem cannotGrow_of_isLongest {used left : List Char} {l : Literal}
    (longest : IsLongest (fun front => ∃ l, PlainText l front) (used ++ left) used)
    (text : PlainText l used) : CannotGrow used left := by
  refine text.cannotGrow fun c first grown => ?_
  obtain ⟨rest, rfl⟩ : ∃ rest, left = c :: rest := by
    cases left with
    | nil => cases first
    | cons d rest =>
        cases first
        exact ⟨rest, rfl⟩
  have split : c :: rest = [c] ++ rest := rfl
  exact longest.not_append split (List.cons_ne_nil _ _) grown

/-- What cannot go on is the longest plain literal. -/
theorem isLongest_of_cannotGrow {used left : List Char} {l : Literal} (text : PlainText l used)
    (stops : CannotGrow used left) :
    IsLongest (fun front => ∃ l, PlainText l front) (used ++ left) used := by
  obtain ⟨used', longest⟩ := exists_isLongest (P := fun front => ∃ l, PlainText l front)
    ⟨used, List.prefix_append used left, l, text⟩
  obtain ⟨left', split⟩ := longest.front
  obtain ⟨l', text'⟩ := longest.holds
  rw [← split] at longest
  have found := text.plain? stops
  rw [← split, text'.plain? (cannotGrow_of_isLongest longest text')] at found
  cases found
  rw [List.append_cancel_right split] at longest
  exact longest

/-- A run has the value of its token, and no other. -/
theorem standsFor_iff {run : List Char} {x : Float} :
    StandsFor run x ↔ runValue (String.ofList run) = x := by
  rw [runValue, String.toList_ofList]
  constructor
  · rintro (⟨longest, text⟩ | none)
    · obtain ⟨left, rfl⟩ := longest.front
      rw [text.plain? (cannotGrow_of_isLongest longest text)]
    · cases found : plain? run with
      | none => rfl
      | some front =>
          obtain ⟨used, rfl, text, _⟩ := plain?_eq_some_iff.mp found
          exact absurd text (none used _ (List.prefix_append _ _))
  · rintro rfl
    cases found : plain? run with
    | none =>
        refine .nothing fun used l front text => ?_
        obtain ⟨used', longest⟩ := exists_isLongest (P := fun front => ∃ l, PlainText l front)
          ⟨used, front, l, text⟩
        obtain ⟨left, rfl⟩ := longest.front
        obtain ⟨l', text'⟩ := longest.holds
        rw [text'.plain? (cannotGrow_of_isLongest longest text')] at found
        cases found
    | some front =>
        obtain ⟨used, rfl, text, stops⟩ := plain?_eq_some_iff.mp found
        exact .literal (isLongest_of_cannotGrow text stops) text

/-! ## Tokens and what follows them -/

/-- `Takes token text after`: the token is read from the characters of `text` where `after` follows.  A
number or a name goes on as far as it can.  All other tokens are spelled by their text, and an operator of
one character is none where an equals sign makes it one of two. -/
inductive Takes : Token → List Char → List Char → Prop
  | number {run after : List Char} :
      run ≠ [] → (∀ c ∈ run, isNumberChar c = true) →
      (∀ c, after.head? = some c → isNumberChar c = false) →
      (∀ x, StandsFor run x ↔ runValue (String.ofList run) = x) →
      Takes (.number (String.ofList run)) run after
  | name {c : Char} {more after : List Char} :
      isNameStart c = true → (∀ d ∈ more, isNameChar d = true) →
      (∀ d, after.head? = some d → isNameChar d = false) →
      Takes (.name (String.ofList (c :: more))) (c :: more) after
  | mark {token : Token} {after : List Char} :
      token.isWord = false →
      (token = .operator .gt ∨ token = .operator .lt → after.head? ≠ some '=') →
      Takes token token.text.toList after

/-- Nothing can be read at the front of a text: no number, no name, no mark of one character and no
operator of two. -/
structure CanPass (cs : List Char) : Prop where
  number : ∀ c, cs.head? = some c → isNumberChar c = false
  name : ∀ c, cs.head? = some c → isNameStart c = false
  mark : ∀ c, cs.head? = some c → c ∉ "+-*/%><()?:".toList
  pair : ∀ op ∈ [Operator.ge, .le, .eq, .ne], ¬op.text.toList <+: cs

section Front

variable {c : Char} {rest text after : List Char} {token : Token}

theorem singleToken?_eq_none_iff : singleToken? c = none ↔ c ∉ "+-*/%><()?:".toList := by
  constructor
  · intro none member
    have listed : "+-*/%><()?:".toList.all (fun d => (singleToken? d).isSome) = true := by decide
    have some := List.all_eq_true.mp listed c member
    rw [none] at some
    cases some
  · intro other
    cases single : singleToken? c with
    | none => rfl
    | some token =>
        have listed : c ∈ "+-*/%><()?:".toList := by
          unfold singleToken? at single
          split at single <;> first | decide | cases single
        exact absurd listed other

theorem takeDouble?_eq_none_iff : takeDouble? c rest = none ↔
    ∀ op ∈ [Operator.ge, .le, .eq, .ne], ¬op.text.toList <+: c :: rest := by
  constructor
  · rintro none op member ⟨left, split⟩
    obtain ⟨d, e, text, double⟩ : ∃ d e, op.text.toList = [d, e] ∧ doubleOperator? d e = some op := by
      simp only [List.mem_cons, List.not_mem_nil, or_false] at member
      rcases member with rfl | rfl | rfl | rfl <;> exact ⟨_, _, rfl, rfl⟩
    rw [text] at split
    cases split
    simp [takeDouble?, double] at none
  · intro other
    cases double : takeDouble? c rest with
    | none => rfl
    | some found =>
        obtain ⟨op, d, left⟩ := found
        obtain ⟨alone, text⟩ := takeDouble?_alone double
        have listed : op ∈ [Operator.ge, .le, .eq, .ne] := by
          cases op <;> first | decide | cases text
        refine absurd ?_ (other op listed)
        rw [text, takeDouble?_eq_some double]
        exact List.prefix_append [c, d] left

/-- The scan passes over a character exactly if it starts no token. -/
theorem token_takePiece_eq_none_iff : (takePiece c rest).1.token = none ↔
    isNumberChar c = false ∧ isNameStart c = false ∧ singleToken? c = none ∧
      takeDouble? c rest = none := by
  constructor
  · intro none
    rcases Bool.eq_false_or_eq_true (isNumberChar c) with number | number
    · rw [takePiece_of_isNumberChar number] at none
      cases none
    rcases Bool.eq_false_or_eq_true (isNameStart c) with start | start
    · rw [takePiece_of_isNameStart start number] at none
      cases none
    cases double : takeDouble? c rest with
    | some found =>
        rw [takePiece_of_takeDouble? double] at none
        cases none
    | none =>
        cases single : singleToken? c with
        | some token =>
            rw [takePiece_of_singleToken? single double] at none
            cases none
        | none => exact ⟨number, start, rfl, rfl⟩
  · rintro ⟨number, start, single, double⟩
    simp only [takePiece, number, start, double, single, Bool.false_eq_true, ↓reduceIte, ite_self]

/-- A character can be passed over exactly where the scan passes over it. -/
theorem canPass_iff : CanPass (c :: rest) ↔ (takePiece c rest).1.token = none := by
  rw [token_takePiece_eq_none_iff, singleToken?_eq_none_iff, takeDouble?_eq_none_iff]
  constructor
  · rintro ⟨number, name, mark, pair⟩
    exact ⟨number c rfl, name c rfl, mark c rfl, pair⟩
  · rintro ⟨number, name, mark, pair⟩
    refine ⟨fun d first => ?_, fun d first => ?_, fun d first => ?_, pair⟩ <;> cases first
    · exact number
    · exact name
    · exact mark

theorem isWord_of_singleToken? (single : singleToken? c = some token) : token.isWord = false := by
  unfold singleToken? at single
  split at single <;> cases single <;> rfl

/-- An operator of one character that no equals sign follows, or another mark, is no operator of two. -/
theorem takeDouble?_of_alone (single : singleToken? c = some token)
    (alone : token = .operator .gt ∨ token = .operator .lt → after.head? ≠ some '=') :
    takeDouble? c after = none := by
  by_cases compares : token = .operator .gt ∨ token = .operator .lt
  · exact takeDouble?_eq_none c (alone compares)
  · cases after with
    | nil => rfl
    | cons d after =>
        rw [takeDouble?, Option.map_eq_none_iff]
        unfold doubleOperator?
        split
        · cases single
          exact absurd (.inl rfl) compares
        · cases single
          exact absurd (.inr rfl) compares
        · cases single
        · cases single
        · rfl

/-- A mark is a character that is a token on its own, or an operator of two. -/
theorem Token.text_cases (mark : token.isWord = false) :
    (∃ c, token.text.toList = [c] ∧ singleToken? c = some token) ∨
      ∃ c d op, token = .operator op ∧ token.text.toList = [c, d] ∧ doubleOperator? c d = some op := by
  cases token with
  | number _ => cases mark
  | name _ => cases mark
  | operator op =>
      rcases op.text_cases with ⟨c, text, single⟩ | ⟨c, d, text, double⟩
      · exact .inl ⟨c, text, single⟩
      · exact .inr ⟨c, d, op, rfl, text, double⟩
  | openParen => exact .inl ⟨'(', rfl, rfl⟩
  | closeParen => exact .inl ⟨')', rfl, rfl⟩
  | question => exact .inl ⟨'?', rfl, rfl⟩
  | colon => exact .inl ⟨':', rfl, rfl⟩

/-- Where a token can be taken, the scan takes it. -/
theorem Takes.exists_takePiece (takes : Takes token text after) :
    ∃ c more, text = c :: more ∧ takePiece c (more ++ after) = (⟨some token, text⟩, after) := by
  cases takes with
  | number nonempty inside stops _ =>
      obtain ⟨c, more, rfl⟩ := List.exists_cons_of_ne_nil nonempty
      obtain ⟨first, inside⟩ := List.forall_mem_cons.mp inside
      refine ⟨c, more, rfl, ?_⟩
      rw [takePiece_of_isNumberChar first, takeWhile_run inside stops, dropWhile_run inside stops]
  | @name c more _ start inside stops =>
      have number : isNumberChar c = false := by
        cases number : isNumberChar c with
        | false => rfl
        | true => exact absurd start (by simp [isNameStart_of_isNumberChar number])
      refine ⟨c, more, rfl, ?_⟩
      rw [takePiece_of_isNameStart start number, takeWhile_run inside stops, dropWhile_run inside stops]
  | mark mark alone =>
      rcases Token.text_cases mark with ⟨c, text, single⟩ | ⟨c, d, op, rfl, text, double⟩
      · rw [text]
        exact ⟨c, [], rfl, takePiece_of_singleToken? single (takeDouble?_of_alone single alone)⟩
      · rw [text]
        refine ⟨c, [d], rfl, takePiece_of_takeDouble? ?_⟩
        rw [List.singleton_append, takeDouble?, double, Option.map_some]

/-- Where the scan takes a token, it can be taken. -/
theorem takes_of_takePiece (taken : (takePiece c rest).1.token = some token) :
    Takes token (takePiece c rest).1.text (takePiece c rest).2 := by
  rcases Bool.eq_false_or_eq_true (isNumberChar c) with number | number
  · rw [takePiece_of_isNumberChar number] at taken ⊢
    cases taken
    exact .number (List.cons_ne_nil _ _) (List.forall_mem_cons.mpr ⟨number, takeWhile_inside rest⟩)
      (dropWhile_stops rest) fun _ => standsFor_iff
  rcases Bool.eq_false_or_eq_true (isNameStart c) with start | start
  · rw [takePiece_of_isNameStart start number] at taken ⊢
    cases taken
    exact .name start (takeWhile_inside rest) (dropWhile_stops rest)
  cases double : takeDouble? c rest with
  | some found =>
      obtain ⟨op, d, left⟩ := found
      rw [takePiece_of_takeDouble? double] at taken ⊢
      cases taken
      obtain ⟨-, text⟩ := takeDouble?_alone double
      rw [← text]
      refine .mark rfl fun compares => ?_
      rcases compares with same | same <;> cases same <;> cases text
  | none =>
      cases single : singleToken? c with
      | none =>
          rw [token_takePiece_eq_none_iff.mpr ⟨number, start, single, double⟩] at taken
          cases taken
      | some found =>
          rw [takePiece_of_singleToken? single double] at taken ⊢
          cases taken
          obtain ⟨text, -⟩ := text_of_singleToken? single
          rw [← text]
          refine .mark (isWord_of_singleToken? single) fun compares next => ?_
          obtain ⟨left, rfl⟩ : ∃ left, rest = '=' :: left := by
            cases rest with
            | nil => cases next
            | cons d left =>
                cases next
                exact ⟨left, rfl⟩
          rcases compares with rfl | rfl <;> cases text <;> cases double

end Front

/-! ## Spans -/

/-- A token, and the stretch of a text that it is read from. -/
structure Span where
  start : Nat
  text : List Char
  token : Token
  deriving Repr, DecidableEq

/-- The position behind a span. -/
def Span.stop (span : Span) : Nat :=
  span.start + span.text.length

/-- From a position on, the spans cut a text into tokens: they are apart and in order, each is that of
a token, and nothing can be read outside of them. -/
structure Segments (cs : List Char) (position : Nat) (spans : List Span) : Prop where
  apart : spans.Pairwise fun first second => first.stop ≤ second.start
  behind : ∀ span ∈ spans, position ≤ span.start
  taken : ∀ span ∈ spans, ∃ after,
    cs.drop span.start = span.text ++ after ∧ Takes span.token span.text after
  passed : ∀ i, position ≤ i → i < cs.length →
    (∀ span ∈ spans, i < span.start ∨ span.stop ≤ i) → CanPass (cs.drop i)

/-- The spans of the pieces that have a token, where the first piece starts at a position. -/
def spansFrom (position : Nat) : List Piece → List Span
  | [] => []
  | piece :: more =>
    (piece.token.map fun token => ⟨position, piece.text, token⟩).toList ++
      spansFrom (position + piece.text.length) more

theorem map_token_spansFrom (position : Nat) (more : List Piece) :
    (spansFrom position more).map Span.token = more.filterMap Piece.token := by
  induction more generalizing position with
  | nil => rfl
  | cons piece more ih =>
      rw [spansFrom, List.map_append, ih, List.filterMap_cons]
      cases piece.token <;> rfl

section Text

variable {cs rest : List Char} {c : Char} {position : Nat} {spans : List Span} {token : Token}

/-- The token of a span is the one that the scan takes where the span starts. -/
theorem Segments.exists_takePiece (segments : Segments cs position spans) {span : Span}
    (member : span ∈ spans) : ∃ c rest after,
      cs.drop span.start = c :: rest ∧ takePiece c rest = (⟨some span.token, span.text⟩, after) := by
  obtain ⟨after, split, takes⟩ := segments.taken span member
  obtain ⟨c, more, text, taken⟩ := takes.exists_takePiece
  exact ⟨c, more ++ after, after, by rw [split, text, List.cons_append], taken⟩

/-- No span is empty. -/
theorem Segments.start_lt_stop (segments : Segments cs position spans) {span : Span}
    (member : span ∈ spans) : span.start < span.stop := by
  obtain ⟨after, -, takes⟩ := segments.taken span member
  obtain ⟨c, more, text, -⟩ := takes.exists_takePiece
  rw [Span.stop, text, List.length_cons]
  omega

/-- Behind the end of a text there is no span. -/
theorem segments_nil_iff (ended : cs.drop position = []) :
    Segments cs position spans ↔ spans = [] := by
  have outside : cs.length ≤ position := List.drop_eq_nil_iff.mp ended
  constructor
  · intro segments
    refine List.eq_nil_iff_forall_not_mem.mpr fun span member => ?_
    obtain ⟨c, rest, _, split, -⟩ := segments.exists_takePiece member
    have inside := congrArg List.length split
    have start := segments.behind span member
    rw [List.length_drop, List.length_cons] at inside
    omega
  · rintro rfl
    refine ⟨.nil, by simp, by simp, fun i start inside _ => ?_⟩
    omega

/-- Where the scan passes over a character no span starts. -/
theorem segments_passed_iff (here : cs.drop position = c :: rest)
    (none : (takePiece c rest).1.token = none) :
    Segments cs position spans ↔ Segments cs (position + 1) spans := by
  constructor
  · intro segments
    refine ⟨segments.apart, fun span member => ?_, segments.taken, fun i start => ?_⟩
    · have behind := segments.behind span member
      rcases Nat.lt_or_eq_of_le behind with later | same
      · exact later
      · obtain ⟨d, rest', _, split, taken⟩ := segments.exists_takePiece member
        rw [← same, here] at split
        cases split
        rw [taken] at none
        cases none
    · exact segments.passed i (Nat.le_of_succ_le start)
  · intro segments
    refine ⟨segments.apart, fun span member => Nat.le_of_succ_le (segments.behind span member),
      segments.taken, fun i start inside outside => ?_⟩
    rcases Nat.lt_or_eq_of_le start with later | rfl
    · exact segments.passed i later inside outside
    · rw [here]
      exact canPass_iff.mpr none

/-- Where the scan takes a token the first span is that of the token. -/
theorem segments_taken_iff (here : cs.drop position = c :: rest)
    (some : (takePiece c rest).1.token = some token) :
    Segments cs position spans ↔ ∃ more,
      spans = ⟨position, (takePiece c rest).1.text, token⟩ :: more ∧
        Segments cs (position + (takePiece c rest).1.text.length) more := by
  constructor
  · intro segments
    have inside : position < cs.length := by
      have length := congrArg List.length here
      rw [List.length_drop, List.length_cons] at length
      omega
    obtain ⟨span, member, starts⟩ : ∃ span ∈ spans, span.start = position := by
      by_contra none
      have pass := segments.passed position (Nat.le_refl _) inside fun span member =>
        .inl (Nat.lt_of_le_of_ne (segments.behind span member) fun same => none ⟨span, member, same.symm⟩)
      rw [here, canPass_iff, some] at pass
      cases pass
    obtain ⟨first, more, rfl⟩ := List.exists_cons_of_ne_nil (List.ne_nil_of_mem member)
    obtain ⟨later, apart⟩ := List.pairwise_cons.mp segments.apart
    have nonempty := segments.start_lt_stop List.mem_cons_self
    have starts' : first.start = position := by
      rcases List.mem_cons.mp member with rfl | member
      · exact starts
      · have before := later span member
        have behind := segments.behind first List.mem_cons_self
        omega
    have same : first = ⟨position, (takePiece c rest).1.text, token⟩ := by
      obtain ⟨d, rest', _, split, taken⟩ := segments.exists_takePiece List.mem_cons_self
      rw [starts', here] at split
      cases split
      rw [taken] at some ⊢
      cases some
      rw [← starts']
    subst same
    refine ⟨more, rfl, apart, later, fun span member => segments.taken span (List.mem_cons_of_mem _ member),
      fun i start inside outside => ?_⟩
    exact segments.passed i (Nat.le_trans (Nat.le_add_right _ _) start) inside
      (List.forall_mem_cons.mpr ⟨.inr start, outside⟩)
  · rintro ⟨more, rfl, segments⟩
    refine ⟨List.pairwise_cons.mpr ⟨segments.behind, segments.apart⟩,
      List.forall_mem_cons.mpr ⟨Nat.le_refl _, fun span member => ?_⟩,
      List.forall_mem_cons.mpr ⟨⟨(takePiece c rest).2, ?_, takes_of_takePiece some⟩, segments.taken⟩,
      fun i start inside outside => ?_⟩
    · exact Nat.le_trans (Nat.le_add_right _ _) (segments.behind span member)
    · rw [here, takePiece_text]
    · obtain ⟨first, outside⟩ := List.forall_mem_cons.mp outside
      exact segments.passed i (first.resolve_left (Nat.not_lt.mpr start)) inside outside

/-- A text has one segmentation from a position on, and that is the spans of its pieces. -/
theorem segments_iff :
    Segments cs position spans ↔ spans = spansFrom position (pieces (cs.drop position)) := by
  obtain ⟨rest, here⟩ : ∃ rest, cs.drop position = rest := ⟨_, rfl⟩
  rw [here]
  induction rest using pieces.induct generalizing position spans with
  | case1 => rw [segments_nil_iff here, pieces, spansFrom]
  | case2 c rest ih =>
      have next : cs.drop (position + (takePiece c rest).1.text.length) = (takePiece c rest).2 := by
        rw [← List.drop_drop, here, ← takePiece_text c rest, List.drop_left]
      rw [pieces, spansFrom]
      cases token : (takePiece c rest).1.token with
      | none =>
          have alone : (takePiece c rest).1.text.length = 1 := by
            rcases takePiece_cases c rest with alone | ⟨_, _, some, _⟩
            · rw [alone]
              rfl
            · cases token.symm.trans some
          rw [alone] at next ⊢
          rw [segments_passed_iff here token, ih next]
          rfl
      | some token' =>
          rw [segments_taken_iff here token]
          constructor
          · rintro ⟨more, rfl, segments⟩
            rw [ih next |>.mp segments]
            rfl
          · rintro rfl
            exact ⟨_, rfl, ih next |>.mpr rfl⟩

end Text

/-! ## Formulas -/

/-- The scan takes no more steps than there are characters. -/
theorem length_pieces_le (cs : List Char) : (pieces cs).length ≤ cs.length := by
  induction cs using pieces.induct with
  | case1 => simp [pieces]
  | case2 c rest ih =>
      rw [pieces, List.length_cons, List.length_cons]
      exact Nat.succ_le_succ (ih.trans (takePiece_length c rest))

/-- The tokens of a formula stand in spans that are apart, with nothing to be read outside of them.  No other
spans are so, and the scan comes to its end within a step for each character. -/
theorem tokenize_segments (formula : String) :
    (∃ spans, Segments formula.toList 0 spans ∧ spans.map Span.token = tokenize formula ∧
      ∀ other, Segments formula.toList 0 other → other = spans) ∧
    (pieces formula.toList).length ≤ formula.toList.length := by
  refine ⟨⟨spansFrom 0 (pieces formula.toList), segments_iff.mpr rfl, map_token_spansFrom 0 _,
    fun other segments => segments_iff.mp segments⟩, length_pieces_le _⟩

end LessonCalc.Formula
