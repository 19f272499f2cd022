import LessonCalc.Proofs.Json.Numbers

/-!
# The exact value of a written number

A number on paper is a rational, whatever floating-point number is nearest to it.

* `exactValue?`: the rational that a whole text spells.
* `exactValue?_numeral`: the digits, the point and the exponent of a numeral spell the value of its literal.
* `exactValue?_plainText`: the text of a finite number spells its shortest decimal, with its sign.
-/

namespace LessonCalc.Number

open Json (signChars)

/-- A rational with the given sign. -/
def signedValue (negative : Bool) (v : ℚ) : ℚ :=
  if negative then -v else v

/-- The rational that a whole text spells: a sign, digits, a point and more digits, an exponent. -/
def exactValue? (cs : List Char) : Option ℚ :=
  let (negative, rest) := takeSign cs
  match literal? digitRun rest with
  | some (l, []) => some (signedValue negative l.decimal.value)
  | _ => none

/-! ## Numerals -/

/-- The parts of a numeral are digits, with some before the point and in an exponent. -/
structure Numeral.Spelled (t : Numeral) : Prop where
  nonempty : t.whole ≠ []
  whole : ∀ c ∈ t.whole, isDigit c = true
  fraction : ∀ c ∈ t.fraction, isDigit c = true
  exponent : ∀ e, t.exponent? = some e → e.2 ≠ [] ∧ ∀ c ∈ e.2, isDigit c = true

theorem Numeral.Proper.spelled {t : Numeral} (proper : t.Proper) : t.Spelled :=
  ⟨proper.whole.nonempty, proper.whole.inside, proper.fraction, proper.exponent⟩

theorem spelled_natChars {n : Nat} {fraction : List Char} (inside : ∀ c ∈ fraction, isDigit c = true) :
    Numeral.Spelled ⟨natChars n, fraction, none⟩ :=
  ⟨natChars_ne_nil n, fun _ => isDigit_of_mem_natChars, inside, fun _ found => by cases found⟩

variable {t : Numeral}

/-- The digits and the point of a numeral are a plain literal. -/
theorem plainText_numeral (spelled : t.Spelled) :
    PlainText ⟨t.whole, t.fraction, 0⟩ (t.whole ++ pointChars t.fraction) := by
  cases same : t.fraction with
  | nil =>
      rw [pointChars, List.append_nil]
      exact .whole spelled.nonempty spelled.whole
  | cons d fraction => exact .point (.inl spelled.nonempty) spelled.whole (same ▸ spelled.fraction)

/-- An exponent does not go on with them. -/
theorem mantissa?_numeral (spelled : t.Spelled) :
    mantissa? digitRun t.chars = some (⟨t.whole, t.fraction, 0⟩, exponentChars t.exponent?) := by
  have stops : ∀ used, CannotGrow used (exponentChars t.exponent?) := by
    intro used c first
    cases exponent : t.exponent? with
    | none =>
        rw [exponent] at first
        cases first
    | some e =>
        rw [exponent] at first
        cases first
        exact ⟨rfl, fun _ => by decide⟩
  have taken := (plainText_numeral spelled).plain? (stops _)
  rwa [List.append_assoc] at taken

theorem literal?_numeral (spelled : t.Spelled) : literal? digitRun t.chars = some (t.literal, []) := by
  have power := @Json.exponent?_append [] _ spelled.exponent (fun _ first => by cases first)
  rw [List.append_nil] at power
  rw [literal?, mantissa?_numeral spelled, Option.map_some]
  dsimp only
  rw [power, Numeral.literal]
  cases t.exponent? <;> rfl

/-- A numeral behind a sign spells the value of its literal. -/
theorem exactValue?_numeral (spelled : t.Spelled) (negative : Bool) :
    exactValue? (signChars negative ++ t.chars) =
      some (signedValue negative t.literal.decimal.value) := by
  have sign : takeSign (signChars negative ++ t.chars) = (negative, t.chars) := by
    cases negative with
    | true => rfl
    | false =>
        obtain ⟨c, more, same⟩ := List.exists_cons_of_ne_nil spelled.nonempty
        have digit : isDigit c = true := spelled.whole c (same ▸ List.mem_cons_self)
        rw [signChars, if_neg Bool.false_ne_true, List.nil_append, Numeral.chars, same, List.cons_append,
          takeSign]
        all_goals
          rintro rest minus
          cases minus
          cases digit
  rw [exactValue?, sign]
  dsimp only
  rw [literal?_numeral spelled]

/-! ## Numbers -/

/-- The text of a finite number is a numeral of its shortest decimal, behind its sign. -/
theorem exists_numeral_plainText {x : Float} (finite : x.isFinite = true) :
    ∃ t : Numeral, (plainText x).toList = signChars (isSigned x) ++ t.chars ∧ t.Spelled ∧
      t.literal.decimal.value = (magnitude x).shortest.value := by
  obtain ⟨t, text, proper, value⟩ := Layout.plain.exists_numeral (magnitude x).shortest
  refine ⟨t, ?_, proper.spelled, value⟩
  rw [← text, ← Json.floatChars_of_isFinite finite, Json.floatChars, isNaN_of_isFinite finite,
    isInf_of_isFinite finite]
  exact String.toList_ofList

/-- It spells that decimal, with its sign. -/
theorem exactValue?_plainText {x : Float} (finite : x.isFinite = true) :
    exactValue? (plainText x).toList =
      some (signedValue (isSigned x) (magnitude x).shortest.value) := by
  obtain ⟨t, chars, spelled, value⟩ := exists_numeral_plainText finite
  rw [chars, exactValue?_numeral spelled, value]

end LessonCalc.Number
