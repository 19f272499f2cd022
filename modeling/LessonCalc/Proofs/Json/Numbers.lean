import LessonCalc.Json.Reader
import LessonCalc.Proofs.Number.Layout

/-!
# Numbers in JSON

A number that was written is read again, whatever follows it that does not go on with a number.

* `readNumber_floatChars`: a finite floating-point number.
* `readNumber_intChars`: an integer that is not too long.
-/

namespace LessonCalc.Json

open LessonCalc.Number

/-- What follows a number does not go on with it. -/
def EndsNumber (rest : List Char) : Prop :=
  ∀ c, rest.head? = some c → isDigit c = false ∧ c ≠ '.' ∧ c ≠ 'e' ∧ c ≠ 'E'

variable {rest : List Char}

theorem EndsNumber.stops (ends : EndsNumber rest) : ∀ c, rest.head? = some c → isDigit c = false :=
  fun c first => (ends c first).1

/-! ## The parts of a number -/

theorem takeInteger_append {whole : List Char} (leading : Leading whole)
    (stops : ∀ c, rest.head? = some c → isDigit c = false) :
    takeInteger (whole ++ rest) = (whole, rest) := by
  have run : digitRun (whole ++ rest) = (whole, rest) :=
    digitRun_eq_iff.mpr ⟨rfl, leading.inside, stops⟩
  rcases leading.first with rfl | other
  · rfl
  · unfold takeInteger
    split
    next more same =>
      refine absurd ?_ other
      rw [← List.head?_append_of_ne_nil whole leading.nonempty, same]
      rfl
    next => exact run

theorem takeFraction_append {fraction : List Char} (inside : ∀ c ∈ fraction, isDigit c = true)
    (stops : ∀ c, rest.head? = some c → isDigit c = false ∧ c ≠ '.') :
    takeFraction (pointChars fraction ++ rest) = (fraction, rest) := by
  cases fraction with
  | nil =>
      rw [pointChars, List.nil_append, takeFraction]
      rintro left rfl
      exact (stops '.' rfl).2 rfl
  | cons d fraction =>
      have run : digitRun ((d :: fraction) ++ rest) = (d :: fraction, rest) :=
        digitRun_eq_iff.mpr ⟨rfl, inside, fun c first => (stops c first).1⟩
      rw [pointChars, List.cons_append, takeFraction, run]
      exact fun none => List.cons_ne_nil _ _ none

theorem exponent?_append {exponent : Option (Bool × List Char)}
    (proper : ∀ e, exponent = some e → e.2 ≠ [] ∧ ∀ c ∈ e.2, isDigit c = true)
    (ends : EndsNumber rest) :
    exponent? digitRun (exponentChars exponent ++ rest) =
      exponent.map fun e => (exponentValue (some e), rest) := by
  cases exponent with
  | none =>
      cases rest with
      | nil => rfl
      | cons c rest =>
          obtain ⟨_, _, e, E⟩ := ends c rfl
          simp [exponentChars, exponent?, e, E]
  | some e =>
      obtain ⟨negative, digits⟩ := e
      obtain ⟨nonempty, inside⟩ := proper _ rfl
      have run : digitRun (digits ++ rest) = (digits, rest) :=
        digitRun_eq_iff.mpr ⟨rfl, inside, ends.stops⟩
      have sign : takeSign ((if negative then '-' else '+') :: (digits ++ rest)) =
          (negative, digits ++ rest) := by
        cases negative <;> rfl
      simp only [exponentChars, exponent?, List.cons_append, true_or, ↓reduceIte, sign, run]
      cases digits with
      | nil => exact absurd rfl nonempty
      | cons d digits => rfl

/-- What follows the digits before the point of a numeral does not go on with them. -/
theorem stops_of_endsNumber (fraction : List Char) (exponent : Option (Bool × List Char))
    (ends : EndsNumber rest) :
    ∀ c, (pointChars fraction ++ (exponentChars exponent ++ rest)).head? = some c →
      isDigit c = false := by
  intro c first
  cases fraction with
  | cons d fraction =>
      cases first
      rfl
  | nil =>
      cases exponent with
      | some e =>
          cases first
          rfl
      | none => exact ends.stops c first

/-! ## Numbers -/

/-- A minus sign, or nothing. -/
def signChars (negative : Bool) : List Char :=
  if negative then ['-'] else []

theorem takeMinus_append (negative : Bool) {cs : List Char} (unsigned : cs.head? ≠ some '-') :
    takeMinus (signChars negative ++ cs) = (negative, cs) := by
  cases negative with
  | true => rfl
  | false =>
      rw [signChars, if_neg Bool.false_ne_true, List.nil_append, takeMinus]
      rintro rest rfl
      exact unsigned rfl

/-- A numeral is read as the number that its literal spells. -/
theorem readNumber_numeral {t : Numeral} (proper : t.Proper) (ends : EndsNumber rest)
    (negative : Bool) :
    readNumber (signChars negative ++ (t.chars ++ rest)) =
      .ok (.float (signed negative t.literal.toFloat), rest) := by
  obtain ⟨whole, fraction, exponent⟩ := t
  have text : Numeral.chars ⟨whole, fraction, exponent⟩ ++ rest =
      whole ++ (pointChars fraction ++ (exponentChars exponent ++ rest)) := by
    simp only [Numeral.chars, List.append_assoc]
  have integer := takeInteger_append proper.whole
    (stops_of_endsNumber fraction exponent ends)
  have point : takeFraction (pointChars fraction ++ (exponentChars exponent ++ rest)) =
      (fraction, exponentChars exponent ++ rest) := by
    refine takeFraction_append proper.fraction fun c first => ?_
    cases exponent with
    | none => exact ⟨(ends c first).1, (ends c first).2.1⟩
    | some e =>
        cases first
        exact ⟨rfl, by decide⟩
  have power := exponent?_append proper.exponent ends
  have unsigned : (whole ++ (pointChars fraction ++ (exponentChars exponent ++ rest))).head? ≠
      some '-' := by
    rw [List.head?_append_of_ne_nil _ proper.whole.nonempty]
    exact fun minus => absurd (proper.whole.inside '-' (List.mem_of_mem_head? minus)) (by decide)
  rw [text, readNumber, takeMinus_append negative unsigned]
  simp only [integer]
  split
  next same => exact absurd (congrArg Prod.fst same) proper.whole.nonempty
  next same =>
    cases same
    simp only [point, power]
    cases exponent with
    | some e => cases fraction <;> rfl
    | none =>
        cases fraction with
        | nil => exact absurd proper.marked (by simp)
        | cons d fraction => rfl

/-- A finite number is written as the numeral of its shortest decimal, behind its sign. -/
theorem floatChars_of_isFinite {x : Float} (finite : x.isFinite = true) :
    floatChars x = signChars (isSigned x) ++ Layout.plain.decimal (magnitude x).shortest := by
  rw [floatChars, Layout.write, isNaN_of_isFinite finite, isInf_of_isFinite finite, signChars]
  cases isSigned x <;> rfl

/-- A finite number that was written is read again. -/
theorem readNumber_floatChars {x : Float} (finite : x.isFinite = true) (ends : EndsNumber rest) :
    readNumber (floatChars x ++ rest) = .ok (.float x, rest) := by
  obtain ⟨t, text, proper, value⟩ := Layout.plain.exists_numeral (magnitude x).shortest
  rw [floatChars_of_isFinite finite, text, List.append_assoc,
    readNumber_numeral proper ends (isSigned x), signed_toFloat_literal finite value]

theorem intChars_eq (n : Int) : intChars n = signChars (decide (n < 0)) ++ natChars n.natAbs := by
  rw [intChars, signChars]
  by_cases negative : n < 0
  · rw [if_pos negative, if_pos (decide_eq_true negative)]
    rfl
  · rw [if_neg negative, if_neg (by rw [decide_eq_false negative]; exact Bool.false_ne_true)]
    rfl

/-- An integer that is not too long has no more digits than are read. -/
theorem length_natChars_le {n : Int} (short : isOversized n = false) :
    (natChars n.natAbs).length ≤ digitLimit := by
  have positive : 0 < digitLimit := by decide
  have less := of_decide_eq_false short
  -- the power is not to be computed
  generalize digitLimit = limit at positive less ⊢
  exact (Nat.length_toDigits_le_iff (by decide) positive).mpr (Nat.lt_of_not_le less)

/-- An integer that was written is read again. -/
theorem readNumber_intChars {n : Int} (short : isOversized n = false) (ends : EndsNumber rest) :
    readNumber (intChars n ++ rest) = .ok (.int n, rest) := by
  have leading := leading_natChars n.natAbs
  have integer := takeInteger_append leading ends.stops
  have point : takeFraction rest = ([], rest) :=
    @takeFraction_append rest [] (by simp) fun c first => ⟨(ends c first).1, (ends c first).2.1⟩
  have power : exponent? digitRun rest = none := @exponent?_append rest none (by simp) ends
  have unsigned : (natChars n.natAbs ++ rest).head? ≠ some '-' := by
    rw [List.head?_append_of_ne_nil _ leading.nonempty]
    exact fun minus => absurd (leading.inside '-' (List.mem_of_mem_head? minus)) (by decide)
  rw [intChars_eq, List.append_assoc, readNumber, takeMinus_append _ unsigned]
  simp only [integer]
  split
  next same => exact absurd (congrArg Prod.fst same) leading.nonempty
  next same =>
    cases same
    simp only [point, power, if_neg (Nat.not_lt.mpr (length_natChars_le short)),
      ofDigitChars_natChars, decide_eq_true_eq]
    split
    next negative => rw [show (-n.natAbs : Int) = n by omega]
    next positive => rw [show (n.natAbs : Int) = n by omega]

end LessonCalc.Json
