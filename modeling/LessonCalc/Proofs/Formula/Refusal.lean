import LessonCalc.Proofs.Formula.Begun

/-!
# Where the strict reader stops

The strict reader refuses lexemes at the first token that no formula has in its place.  `Tracks` says so
of each of its calls: as far as the call goes, the standing of the formula goes with it, and if it stops
then with the lexeme, or the end, that cannot come next.

* `Tracks.bind`, `Tracks.cons`: calls and tokens one after the other.
* `tracksWithin`: with steps enough for its lexemes every call tracks them.
* `stops_of_parseAll`: so a refusal is told at the first lexeme that cannot be followed.
* `Standing.Follows.exists_completion`, `Standing.Follows.not_isFormula`: the tokens that formulas start with
  are those that can be followed.
-/

namespace LessonCalc.Formula

open Standing

/-! ## Outcomes of a call -/

/-- A formula cannot go on with these lexemes: the first one cannot come next, or there is none and the
formula cannot end. -/
def Standing.Refuses (s : Standing) : List Lexeme → Prop
  | [] => ¬s.Finished
  | lexeme :: _ => s.step? lexeme.token = none

/-- A refusal is told where lexemes can be followed no further. -/
def Stops (s : Standing) (lexemes : List Lexeme) (refusal : Refusal) : Prop :=
  ∃ used left s', lexemes = used ++ left ∧ s.Follows (tokensIn used) s' ∧ s'.Refuses left ∧
    refusal = refusalAt left

/-- The standing goes with a call as far as it reads: to where it stops, or to what it leaves, which is
then as `ends` says. -/
def Tracks {α : Type} (s : Standing) (lexemes : List Lexeme) (ends : Standing → List Lexeme → Prop) :
    Except Refusal (α × List Lexeme) → Prop
  | .error refusal => Stops s lexemes refusal
  | .ok (_, left) =>
    ∃ used s', lexemes = used ++ left ∧ s.Follows (tokensIn used) s' ∧ ends s' left

section Outcomes

variable {α β : Type} {s s' : Standing} {lexeme : Lexeme} {lexemes left used : List Lexeme}
  {ends ends' : Standing → List Lexeme → Prop} {refusal : Refusal}

theorem Stops.after (follows : s.Follows (tokensIn used) s') (stops : Stops s' left refusal) :
    Stops s (used ++ left) refusal := by
  obtain ⟨used', left, s'', rfl, follows', refuses, told⟩ := stops
  refine ⟨used ++ used', left, s'', (List.append_assoc ..).symm, ?_, refuses, told⟩
  rw [tokensIn, List.map_append]
  exact follows.append follows'

theorem Tracks.after {outcome : Except Refusal (α × List Lexeme)}
    (follows : s.Follows (tokensIn used) s') (tracks : Tracks s' left ends outcome) :
    Tracks s (used ++ left) ends outcome := by
  cases outcome with
  | error refusal => exact Stops.after follows tracks
  | ok read =>
      obtain ⟨used', s'', rfl, follows', ended⟩ := tracks
      refine ⟨used ++ used', s'', (List.append_assoc ..).symm, ?_, ended⟩
      rw [tokensIn, List.map_append]
      exact follows.append follows'

/-- A token before what a call reads. -/
theorem Tracks.cons {outcome : Except Refusal (α × List Lexeme)}
    (step : s.step? lexeme.token = some s') (tracks : Tracks s' lexemes ends outcome) :
    Tracks s (lexeme :: lexemes) ends outcome := by
  have one : s.Follows (tokensIn [lexeme]) s' := .cons step (.refl s')
  exact Tracks.after one tracks

/-- A call that reads nothing more. -/
theorem tracks_ok (a : α) (ended : ends s lexemes) : Tracks s lexemes ends (.ok (a, lexemes)) :=
  ⟨[], s, rfl, .refl s, ended⟩

/-- A call that stops at once. -/
theorem tracks_error (refuses : s.Refuses lexemes) :
    Tracks (α := α) s lexemes ends (.error (refusalAt lexemes)) :=
  ⟨[], lexemes, s, rfl, .refl s, refuses, rfl⟩

/-- A call that goes on where another one ended.  It has fewer lexemes if the standing has changed. -/
theorem Tracks.bind {first : Except Refusal (α × List Lexeme)}
    {next : α × List Lexeme → Except Refusal (β × List Lexeme)} (tracks : Tracks s lexemes ends first)
    (goesOn : ∀ a left s', left.length ≤ lexemes.length → (s'.turn ≠ s.turn → left.length < lexemes.length) →
      ends s' left → Tracks s' left ends' (next (a, left))) :
    Tracks s lexemes ends' (first >>= next) := by
  cases first with
  | error refusal => exact tracks
  | ok read =>
      obtain ⟨a, left⟩ := read
      obtain ⟨used, s', rfl, follows, ended⟩ := tracks
      refine Tracks.after follows (goesOn a left s' ?_ ?_ ended)
      · rw [List.length_append]
        exact Nat.le_add_left ..
      · intro moved
        rw [List.length_append]
        cases used with
        | nil => exact absurd (congrArg turn (follows_nil_iff.mp follows)).symm moved
        | cons lexeme used => exact Nat.lt_add_of_pos_left (Nat.succ_pos _)

/-- What is known of the end of a call can be told as something weaker. -/
theorem Tracks.imp {outcome : Except Refusal (α × List Lexeme)}
    (weaker : ∀ s' left, ends s' left → ends' s' left) (tracks : Tracks s lexemes ends outcome) :
    Tracks s lexemes ends' outcome := by
  cases outcome with
  | error refusal => exact tracks
  | ok read =>
      obtain ⟨used, s', split, follows, ended⟩ := tracks
      exact ⟨used, s', split, follows, weaker s' _ ended⟩

end Outcomes

/-! ## What calls leave -/

/-- The tokens do not start with an operator of a level or one that binds more tightly. -/
def Looser (l : Level) (tokens : List Token) : Prop :=
  ∀ op, tokens.head? = some (.operator op) → op.level.rank < l.rank

/-- An operand has ended with all its operators of a level. -/
def EndsLevel (l : Level) (s s' : Standing) (left : List Lexeme) : Prop :=
  s' = s.behind ∧ Looser l (tokensIn left)

/-- A ternary has ended in the parenthesis in which it started, with what cannot go on with it. -/
def EndsTernary (s s' : Standing) (left : List Lexeme) : Prop :=
  s'.turn = .mark ∧ s'.outer = s.outer ∧ Ends (s'.questions != 0) (tokensIn left)

/-- The functions of the strict reader track lexemes for which these steps are enough. -/
structure TracksWithin (fuel : Nat) : Prop where
  ternary : ∀ {t : List Lexeme} {s : Standing}, 10 * t.length + Call.ternary.height ≤ fuel →
    s.turn = .operand → s.questions = 0 →
    Tracks s t (EndsTernary s) (parseTernary fuel t)
  links : ∀ {t : List Lexeme} {s : Standing}, 10 * t.length < fuel → s.turn = .mark →
    NoOperator (tokensIn t) →
    Tracks s t (EndsTernary s) (parseLinks fuel s.questions t)
  level : ∀ {l} {t : List Lexeme} {s : Standing}, 10 * t.length + (Call.level l).height ≤ fuel →
    s.turn = .operand → Tracks s t (EndsLevel l s) (parseLevel fuel l t)
  operand : ∀ {l} {t : List Lexeme} {s : Standing}, 10 * t.length + (Call.operand l).height ≤ fuel →
    s.turn = .operand →
    Tracks s t (fun s' left => s' = s.behind ∧ NoTighter l (tokensIn left))
      (parseOperand fuel l t)
  more : ∀ {l first} {t : List Lexeme} {s : Standing}, 10 * t.length < fuel → s.turn = .mark →
    NoTighter l (tokensIn t) →
    Tracks s t (EndsLevel l s) (parseMore fuel l first t)
  unary : ∀ {t : List Lexeme} {s : Standing}, 10 * t.length + Call.unary.height ≤ fuel →
    s.turn = .operand → Tracks s t (fun s' _ => s' = s.behind) (parseUnary fuel t)
  atom : ∀ {t : List Lexeme} {s : Standing}, 10 * t.length + Call.primary.height ≤ fuel →
    s.turn.Admits .atom →
    (s.turn = .operand → (tokensIn t).head? ≠ some (.operator .sub)) →
    Tracks s t (fun s' _ => s' = s.behind) (parseAtom fuel t)

theorem head?_tokensIn_ne {lexemes : List Lexeme} {token : Token}
    (other : ∀ source rest, lexemes = ⟨token, source⟩ :: rest → False) :
    (tokensIn lexemes).head? ≠ some token := by
  intro next
  cases lexemes with
  | nil => cases next
  | cons lexeme rest =>
      cases next
      exact other lexeme.source rest rfl

theorem Level.rank_inj {l l' : Level} (same : l.rank = l'.rank) : l = l' := by
  cases l <;> cases l' <;> first | rfl | cases same

section Steps

variable {fuel : Nat} {lexemes : List Lexeme} {s : Standing}

/-- An operand leaves another standing. -/
theorem Standing.turn_behind_ne (turn : s.turn = .operand) : s.behind.turn ≠ s.turn := by
  rw [turn]
  intro same
  cases same

theorem TracksWithin.ternary_succ (within : TracksWithin fuel)
    (enough : 10 * lexemes.length + Call.ternary.height ≤ fuel + 1) (turn : s.turn = .operand)
    (closed : s.questions = 0) :
    Tracks s lexemes (EndsTernary s) (parseTernary (fuel + 1) lexemes) := by
  simp only [Call.height] at enough
  have first := within.level (l := .comparison) (t := lexemes)
    (by simp only [Call.height]; omega) turn
  refine first.bind fun a left s' _ fewer ended => ?_
  obtain ⟨rfl, looser⟩ := ended
  have shorter := fewer (turn_behind_ne turn)
  have none : NoOperator (tokensIn left) := fun op next => absurd (looser op next) (Nat.not_lt_zero _)
  have chain := within.links (s := s.behind) (by omega) rfl none
  have opened : s.behind.questions = 0 := closed
  rw [opened] at chain
  exact chain.bind fun links left' s'' _ _ ended => tracks_ok _ ended

/-- A mark and its operand before the rest of a chain. -/
theorem TracksWithin.link (within : TracksWithin fuel) {mark : Mark} {opened : Nat} {outer : List Nat}
    (enough : 10 * lexemes.length + (Call.level .comparison).height ≤ fuel) :
    Tracks ⟨.operand, opened, outer⟩ lexemes (EndsTernary ⟨.mark, opened, outer⟩) (do
      let (operand, rest) ← parseLevel fuel .comparison lexemes
      let (links, left) ← parseLinks fuel opened rest
      return ((mark, operand) :: links, left)) := by
  have first := within.level (s := ⟨.operand, opened, outer⟩) enough rfl
  simp only [Call.height] at enough
  refine first.bind fun a left s' _ fewer ended => ?_
  obtain ⟨rfl, looser⟩ := ended
  have shorter := fewer (turn_behind_ne rfl)
  have none : NoOperator (tokensIn left) := fun op next => absurd (looser op next) (Nat.not_lt_zero _)
  have chain := within.links (s := ⟨.mark, opened, outer⟩) (by omega) rfl none
  exact chain.bind fun links left' s'' _ _ ended => tracks_ok _ ended

theorem TracksWithin.links_succ (within : TracksWithin fuel) (enough : 10 * lexemes.length < fuel + 1)
    (turn : s.turn = .mark) (none : NoOperator (tokensIn lexemes)) :
    Tracks s lexemes (EndsTernary s) (parseLinks (fuel + 1) s.questions lexemes) := by
  obtain ⟨turn', questions, outer⟩ := s
  cases turn
  simp only [parseLinks]
  split
  · rename_i source rest
    rw [List.length_cons] at enough
    exact Tracks.cons rfl (within.link (by simp only [Call.height]; omega))
  · rename_i source rest
    rw [List.length_cons] at enough
    cases questions with
    | zero =>
        refine tracks_ok _ ⟨rfl, rfl, none, ?_, fun nonzero => absurd nonzero Bool.false_ne_true⟩
        intro question
        cases question
    | succ questions => exact Tracks.cons rfl (within.link (by simp only [Call.height]; omega))
  · rename_i noQuestion noColon
    exact tracks_ok _
      ⟨rfl, rfl, none, head?_tokensIn_ne noQuestion, fun _ => head?_tokensIn_ne noColon⟩

theorem TracksWithin.level_succ (within : TracksWithin fuel) {l : Level}
    (enough : 10 * lexemes.length + (Call.level l).height ≤ fuel + 1) (turn : s.turn = .operand) :
    Tracks s lexemes (EndsLevel l s) (parseLevel (fuel + 1) l lexemes) := by
  rw [Call.height_level] at enough
  have positive := (Call.operand l).height_pos
  have first := within.operand (l := l) (t := lexemes) (by omega) turn
  refine first.bind fun a left s' _ fewer ended => ?_
  obtain ⟨rfl, noTighter⟩ := ended
  have shorter := fewer (turn_behind_ne turn)
  exact within.more (s := s.behind) (by omega) rfl noTighter

theorem TracksWithin.operand_succ (within : TracksWithin fuel) {l : Level}
    (enough : 10 * lexemes.length + (Call.operand l).height ≤ fuel + 1) (turn : s.turn = .operand) :
    Tracks s lexemes (fun s' left => s' = s.behind ∧ NoTighter l (tokensIn left))
      (parseOperand (fuel + 1) l lexemes) := by
  cases l with
  | comparison =>
      refine (within.level (l := .additive) (Nat.le_of_succ_le_succ enough) turn).imp ?_
      rintro s' left ⟨rfl, looser⟩
      exact ⟨rfl, fun op next => Nat.le_of_lt_succ (looser op next)⟩
  | additive =>
      refine (within.level (l := .multiplicative) (Nat.le_of_succ_le_succ enough) turn).imp ?_
      rintro s' left ⟨rfl, looser⟩
      exact ⟨rfl, fun op next => Nat.le_of_lt_succ (looser op next)⟩
  | multiplicative =>
      refine (within.unary (Nat.le_of_succ_le_succ enough) turn).imp ?_
      rintro s' left rfl
      exact ⟨rfl, fun op _ => by cases op.level <;> decide⟩

theorem TracksWithin.more_succ (within : TracksWithin fuel) {l : Level} {first : Tree}
    (enough : 10 * lexemes.length < fuel + 1) (turn : s.turn = .mark)
    (noTighter : NoTighter l (tokensIn lexemes)) :
    Tracks s lexemes (EndsLevel l s) (parseMore (fuel + 1) l first lexemes) := by
  obtain ⟨turn', questions, outer⟩ := s
  cases turn
  simp only [parseMore]
  split
  · rename_i op source rest
    rw [List.length_cons] at enough
    split
    · have low := Call.height_operand_le l
      have second := within.operand (l := l) (t := rest) (s := ⟨.operand, questions, outer⟩)
        (by omega) rfl
      refine Tracks.cons rfl (second.bind fun a left s' fewer _ ended => ?_)
      obtain ⟨rfl, noTighter'⟩ := ended
      exact within.more (s := ⟨.mark, questions, outer⟩) (by omega) rfl noTighter'
    · rename_i other
      refine tracks_ok _ ⟨rfl, fun op' next => ?_⟩
      cases next
      refine Nat.lt_of_le_of_ne (noTighter op rfl) fun same => other ?_
      exact Level.rank_inj same
  · rename_i noOperator
    exact tracks_ok _ ⟨rfl, fun op next => absurd next (head?_tokensIn_ne (noOperator op))⟩

theorem TracksWithin.unary_succ (within : TracksWithin fuel)
    (enough : 10 * lexemes.length + Call.unary.height ≤ fuel + 1) (turn : s.turn = .operand) :
    Tracks s lexemes (fun s' _ => s' = s.behind) (parseUnary (fuel + 1) lexemes) := by
  obtain ⟨turn', questions, outer⟩ := s
  cases turn
  simp only [Call.height] at enough
  simp only [parseUnary]
  split
  · rename_i source rest
    rw [List.length_cons] at enough
    have operand := within.atom (t := rest) (s := ⟨.atom, questions, outer⟩)
      (by simp only [Call.height]; omega) rfl fun same => by cases same
    exact Tracks.cons rfl (operand.bind fun a left s' _ _ ended => tracks_ok _ ended)
  · rename_i noMinus
    exact within.atom (s := ⟨.operand, questions, outer⟩) (by simp only [Call.height]; omega) trivial
      fun _ => head?_tokensIn_ne noMinus

/-- A formula cannot go on behind a ternary, except with a parenthesis that closes the one around it. -/
theorem EndsTernary.refuses {s s' : Standing} {left : List Lexeme} (ended : EndsTernary s s' left)
    (inside : left = [] → s.outer ≠ [])
    (noClosing : s.outer ≠ [] → ∀ source rest, left = ⟨.closeParen, source⟩ :: rest → False) :
    s'.Refuses left := by
  obtain ⟨turn, questions, outer⟩ := s'
  obtain ⟨rfl, rfl, ends⟩ := ended
  cases left with
  | nil => exact fun finished => inside rfl finished.2
  | cons lexeme rest =>
      obtain ⟨token, source⟩ := lexeme
      cases token with
      | number | name | openParen => rfl
      | operator op => exact absurd rfl (ends.noOperator op)
      | question => exact absurd rfl ends.noQuestion
      | colon =>
          cases questions with
          | zero => rfl
          | succ questions => exact absurd rfl (ends.noColon rfl)
      | closeParen =>
          cases around : s.outer with
          | nil => simp only [Refuses, step?]
          | cons questions' outer =>
              exact (noClosing (by rw [around]; exact List.cons_ne_nil _ _) source rest rfl).elim

/-- Where an atom has to come next, a formula cannot go on with anything else. -/
theorem refuses_of_noAtom {turn : Turn} {questions : Nat} {outer : List Nat} {left : List Lexeme}
    (admits : turn.Admits .atom)
    (noMinus : turn = .operand → (tokensIn left).head? ≠ some (.operator .sub))
    (noNumber : ∀ text source rest, left = ⟨.number text, source⟩ :: rest → False)
    (noName : ∀ text source rest, left = ⟨.name text, source⟩ :: rest → False)
    (noParen : ∀ source rest, left = ⟨.openParen, source⟩ :: rest → False) :
    Standing.Refuses ⟨turn, questions, outer⟩ left := by
  have noMark : turn ≠ .mark := fun same => by cases same; exact admits
  cases left with
  | nil => exact fun finished => noMark finished.1
  | cons lexeme rest =>
      obtain ⟨token, source⟩ := lexeme
      cases token with
      | number text => exact (noNumber text source rest rfl).elim
      | name text => exact (noName text source rest rfl).elim
      | openParen => exact (noParen source rest rfl).elim
      | operator op =>
          cases turn with
          | mark => exact absurd rfl noMark
          | atom => rfl
          | operand =>
              cases op with
              | sub => exact absurd rfl (noMinus rfl)
              | _ => rfl
      | closeParen | question | colon =>
          cases turn with
          | mark => exact absurd rfl noMark
          | _ => rfl

theorem TracksWithin.atom_succ (within : TracksWithin fuel)
    (enough : 10 * lexemes.length + Call.primary.height ≤ fuel + 1) (admits : s.turn.Admits .atom)
    (noMinus : s.turn = .operand → (tokensIn lexemes).head? ≠ some (.operator .sub)) :
    Tracks s lexemes (fun s' _ => s' = s.behind) (parseAtom (fuel + 1) lexemes) := by
  obtain ⟨turn, questions, outer⟩ := s
  simp only [Call.height] at enough
  simp only [parseAtom]
  split
  · exact Tracks.cons (step?_number admits _) (tracks_ok _ rfl)
  · exact Tracks.cons (step?_name admits _) (tracks_ok _ rfl)
  · rename_i source rest
    rw [List.length_cons] at enough
    have inner := within.ternary (t := rest) (s := ⟨.operand, 0, questions :: outer⟩)
      (by simp only [Call.height]; omega) rfl rfl
    refine Tracks.cons (step?_openParen admits) (inner.bind fun tree left s' _ _ ended => ?_)
    dsimp only
    split
    · rename_i source' left'
      obtain ⟨turn', questions', outer'⟩ := s'
      obtain ⟨rfl, rfl, _⟩ := ended
      exact Tracks.cons rfl (tracks_ok _ rfl)
    · rename_i left' noClosing
      exact tracks_error (ended.refuses (fun _ => List.cons_ne_nil _ _) fun _ => noClosing)
  · rename_i left noNumber noName noParen
    exact tracks_error (refuses_of_noAtom admits noMinus noNumber noName noParen)

end Steps

theorem tracksWithin (fuel : Nat) : TracksWithin fuel := by
  induction fuel with
  | zero =>
      have never : ∀ {n} {call : Call}, ¬n + call.height ≤ 0 := fun {_ call} enough =>
        absurd (Nat.le_of_add_left_le enough) (Nat.not_le.mpr call.height_pos)
      exact
        { ternary := fun enough => absurd enough never
          links := fun enough => absurd enough (Nat.not_lt_zero _)
          level := fun enough => absurd enough never
          operand := fun enough => absurd enough never
          more := fun enough => absurd enough (Nat.not_lt_zero _)
          unary := fun enough => absurd enough never
          atom := fun enough => absurd enough never }
  | succ fuel within =>
      exact
        { ternary := within.ternary_succ
          links := within.links_succ
          level := within.level_succ
          operand := within.operand_succ
          more := within.more_succ
          unary := within.unary_succ
          atom := within.atom_succ }

/-! ## Whole lists -/

section Whole

variable {lexemes : List Lexeme} {refusal : Refusal} {tokens : List Token} {s : Standing}

/-- The strict reader refuses lexemes where they can be followed no further. -/
theorem stops_of_parseAll (refused : parseAll lexemes = .error refusal) :
    Stops start lexemes refusal := by
  have tracks := (tracksWithin (10 * (lexemes.length + 1))).ternary (t := lexemes) (s := start)
    (by simp only [Call.height]; omega) rfl rfl
  unfold parseAll at refused
  split at refused
  · rename_i refusal' ran
    rw [ran] at tracks
    cases refused
    exact tracks
  · cases refused
  · rename_i tree left nonempty ran
    rw [ran] at tracks
    cases refused
    obtain ⟨used, s', split, follows, ended⟩ := tracks
    exact ⟨used, left, s', split, follows,
      ended.refuses (fun none => (nonempty none).elim) fun around => absurd rfl around, rfl⟩

/-- Lexemes that can be followed to the end of a formula are not refused. -/
theorem Stops.not_follows (stops : Stops start lexemes refusal)
    (follows : start.Follows (tokensIn lexemes) s) : ¬s.Finished := by
  obtain ⟨used, left, s', rfl, before, refuses, -⟩ := stops
  rw [tokensIn, List.map_append] at follows
  obtain ⟨s'', before', after⟩ := follows_append_iff.mp follows
  cases before.unique before'
  cases left with
  | nil =>
      cases follows_nil_iff.mp after
      exact refuses
  | cons lexeme rest =>
      obtain ⟨_, step, _⟩ := follows_cons_iff.mp after
      cases refuses.symm.trans step

/-- Tokens that can be followed to the end of a formula are one. -/
theorem Standing.Follows.exists_isFormula (follows : start.Follows tokens s) (finished : s.Finished) :
    ∃ tree, IsFormula tokens tree := by
  have same : tokensIn (tokens.map fun token => ⟨token, []⟩) = tokens := by
    rw [tokensIn, List.map_map]
    exact List.map_id tokens
  rw [← same] at follows ⊢
  cases parsed : parseAll (tokens.map fun token => ⟨token, []⟩) with
  | error refusal => exact absurd finished ((stops_of_parseAll parsed).not_follows follows)
  | ok tree => exact ⟨tree, isFormula_of_parseAll parsed⟩

/-- The tokens that some formula starts with are those that can be followed.  A name and closing
parentheses complete them. -/
theorem Standing.Follows.exists_completion (follows : start.Follows tokens s) :
    ∃ more tree, (∀ token ∈ more, token = .name "x" ∨ token = .closeParen) ∧
      IsFormula (tokens ++ more) tree := by
  obtain ⟨more, s', known, rest, finished⟩ := s.exists_follows
  obtain ⟨tree, formula⟩ := (follows.append rest).exists_isFormula finished
  exact ⟨more, tree, known, formula⟩

/-- No formula goes on with a token of a kind that cannot come next. -/
theorem Standing.Follows.not_isFormula (follows : start.Follows tokens s) {token other : Token}
    (refuses : s.step? token = none) (kind : other.kind = token.kind) (more : List Token) (tree : Tree) :
    ¬IsFormula (tokens ++ other :: more) tree := by
  intro formula
  obtain ⟨s', whole, -⟩ := formula.exists_follows
  obtain ⟨s'', before, after⟩ := follows_append_iff.mp whole
  cases follows.unique before
  obtain ⟨_, step, _⟩ := follows_cons_iff.mp after
  rw [← step?_kind, kind, step?_kind, refuses] at step
  cases step

end Whole

end LessonCalc.Formula
