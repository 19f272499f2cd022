import LessonCalc.Number.Literal

/-!
# What a plain literal is

`plain?` takes a plain literal from the front of a text.  Here the literal is told by its spelling,
and `plain?_eq_some_iff` says that `plain?` takes the longest one: what follows cannot go on with it.
-/

namespace LessonCalc.Number

/-! ## Runs of characters -/

section Runs

variable {p : Char → Bool} {front rest : List Char}

/-- A run of characters ends where one is not of its class. -/
theorem takeWhile_run (inside : ∀ c ∈ front, p c = true)
    (stops : ∀ c, rest.head? = some c → p c = false) : (front ++ rest).takeWhile p = front := by
  rw [List.takeWhile_append_of_pos inside]
  cases rest with
  | nil => simp
  | cons c rest => simp [stops c rfl]

theorem dropWhile_run (inside : ∀ c ∈ front, p c = true)
    (stops : ∀ c, rest.head? = some c → p c = false) : (front ++ rest).dropWhile p = rest := by
  rw [List.dropWhile_append_of_pos inside]
  cases rest with
  | nil => rfl
  | cons c rest => simp [stops c rfl]

theorem takeWhile_inside (cs : List Char) : ∀ c ∈ cs.takeWhile p, p c = true := by
  induction cs with
  | nil => simp
  | cons d cs ih =>
      intro c member
      rw [List.takeWhile_cons] at member
      split at member
      · rename_i inside
        rcases List.mem_cons.mp member with rfl | member
        · exact inside
        · exact ih c member
      · cases member

theorem dropWhile_stops (cs : List Char) : ∀ c, (cs.dropWhile p).head? = some c → p c = false := by
  induction cs with
  | nil => simp
  | cons d cs ih =>
      intro c first
      rw [List.dropWhile_cons] at first
      split at first
      · exact ih c first
      · rename_i outside
        cases first
        simpa using outside

end Runs

/-- Digits of a text are taken up to what is no digit. -/
theorem digitRun_eq_iff {cs digits left : List Char} :
    digitRun cs = (digits, left) ↔
      cs = digits ++ left ∧ (∀ c ∈ digits, isDigit c = true) ∧
        ∀ c, left.head? = some c → isDigit c = false := by
  constructor
  · intro ran
    cases ran
    exact ⟨(List.takeWhile_append_dropWhile).symm, takeWhile_inside cs, dropWhile_stops cs⟩
  · rintro ⟨rfl, inside, stops⟩
    simp only [digitRun, takeWhile_run inside stops, dropWhile_run inside stops]

/-! ## Plain literals -/

/-- The characters spell the literal: digits, or digits with a point between, before or after them. -/
inductive PlainText : Literal → List Char → Prop
  | whole {ds} :
      ds ≠ [] → (∀ c ∈ ds, isDigit c = true) →
      PlainText ⟨ds, [], 0⟩ ds
  | point {ds fs} :
      ds ≠ [] ∨ fs ≠ [] → (∀ c ∈ ds, isDigit c = true) → (∀ c ∈ fs, isDigit c = true) →
      PlainText ⟨ds, fs, 0⟩ (ds ++ '.' :: fs)

/-- What follows the characters of a literal does not go on with it: it starts with no digit, and with
no point if the literal has none. -/
def CannotGrow (used left : List Char) : Prop :=
  ∀ c, left.head? = some c → isDigit c = false ∧ ('.' ∉ used → c ≠ '.')

theorem not_mem_of_digits {ds : List Char} (digits : ∀ c ∈ ds, isDigit c = true) : '.' ∉ ds :=
  fun member => by cases digits _ member

theorem PlainText.ne_nil {l : Literal} {used : List Char} (text : PlainText l used) : used ≠ [] := by
  cases text with
  | whole nonempty _ => exact nonempty
  | point _ _ _ => exact List.append_ne_nil_of_right_ne_nil _ (List.cons_ne_nil _ _)

/-- The characters of a literal are digits and points. -/
theorem PlainText.inside {l : Literal} {used : List Char} (text : PlainText l used) :
    ∀ c ∈ used, isDigit c = true ∨ c = '.' := by
  intro c member
  cases text with
  | whole _ digits => exact .inl (digits c member)
  | point _ digits digits' =>
      rcases List.mem_append.mp member with member | member
      · exact .inl (digits c member)
      · rcases List.mem_cons.mp member with rfl | member
        · exact .inr rfl
        · exact .inl (digits' c member)

/-- The front that `plain?` takes is a literal, and what follows cannot go on with it. -/
theorem plainText_of_plain? {cs left : List Char} {l : Literal}
    (found : plain? cs = some (l, left)) :
    ∃ used, cs = used ++ left ∧ PlainText l used ∧ CannotGrow used left := by
  unfold plain? mantissa? at found
  split at found
  · rename_i rest ran
    obtain ⟨rfl, _, _⟩ := digitRun_eq_iff.mp ran
    split at found
    · cases found
    · rename_i fs left' some_ ran'
      cases found
      obtain ⟨rfl, digits, stops⟩ := digitRun_eq_iff.mp ran'
      have nonempty : fs ≠ [] := fun none => some_ none
      have text : PlainText ⟨[], fs, 0⟩ ([] ++ '.' :: fs) := .point (.inr nonempty) (by simp) digits
      refine ⟨'.' :: fs, rfl, text, ?_⟩
      exact fun c first => ⟨stops c first, fun none => absurd (List.mem_cons_self ..) none⟩
  · cases found
  · rename_i ds rest some_ ran
    cases found
    obtain ⟨rfl, digits, _⟩ := digitRun_eq_iff.mp ran
    obtain ⟨split, digits', stops⟩ := digitRun_eq_iff.mp (rfl : digitRun rest = _)
    have nonempty : ds ≠ [] := fun none => some_ none
    refine ⟨ds ++ '.' :: (digitRun rest).1, ?_, .point (.inl nonempty) digits digits', ?_⟩
    · rw [List.append_assoc, List.cons_append]
      exact congrArg (ds ++ '.' :: ·) split
    · exact fun c first => ⟨stops c first, fun none => absurd (by simp) none⟩
  · rename_i ds left' _ some_ noPoint ran
    cases found
    obtain ⟨rfl, digits, stops⟩ := digitRun_eq_iff.mp ran
    have nonempty : ds ≠ [] := fun none => some_ none
    refine ⟨ds, rfl, .whole nonempty digits, fun c first => ⟨stops c first, fun _ point => ?_⟩⟩
    cases left with
    | nil => cases first
    | cons d rest =>
        cases first
        exact noPoint rest (by rw [point])

/-- `plain?` takes a literal that what follows cannot go on with. -/
theorem PlainText.plain? {used left : List Char} {l : Literal} (text : PlainText l used)
    (stops : CannotGrow used left) : plain? (used ++ left) = some (l, left) := by
  cases text with
  | whole nonempty digits =>
      have ran := digitRun_eq_iff.mpr ⟨rfl, digits, fun c first => (stops c first).1⟩
      have noPoint := fun c first => (stops c first).2 (not_mem_of_digits digits)
      unfold Number.plain? mantissa?
      rw [ran]
      split
      · rename_i same
        cases same
        exact absurd rfl nonempty
      · rename_i same
        cases same
        exact absurd rfl nonempty
      · rename_i same
        cases same
        exact absurd rfl (noPoint _ rfl)
      · rename_i same
        cases same
        rfl
  | @point ds fs nonempty digits digits' =>
      have ran : digitRun (ds ++ '.' :: (fs ++ left)) = (ds, '.' :: (fs ++ left)) :=
        digitRun_eq_iff.mpr ⟨rfl, digits, fun c first => by cases first; rfl⟩
      have ran' := digitRun_eq_iff.mpr ⟨rfl, digits', fun c first => (stops c first).1⟩
      rw [List.append_assoc, List.cons_append]
      unfold Number.plain? mantissa?
      rw [ran]
      cases ds with
      | nil =>
          simp only [ran']
          cases fs with
          | nil => exact absurd nonempty (by simp)
          | cons d fs => rfl
      | cons d ds => simp only [ran']

/-- The longest plain literal at the front of a text. -/
theorem plain?_eq_some_iff {cs left : List Char} {l : Literal} :
    plain? cs = some (l, left) ↔
      ∃ used, cs = used ++ left ∧ PlainText l used ∧ CannotGrow used left := by
  constructor
  · exact plainText_of_plain?
  · rintro ⟨used, rfl, text, stops⟩
    exact text.plain? stops

end LessonCalc.Number
