import Mathlib.Data.List.DropRight
import LessonCalc.Proofs.Number.Exact
import LessonCalc.Proofs.Number.Precision
import LessonCalc.Proofs.Tool.Display

/-!
# Shown amounts are exact

Without its marks the text of a value is a numeral again: it spells the shortest decimal of the value,
rounded to the places of the format.  With them it has the form of the format.

* `Grouped`, `grouped_groupThousands`: whole numbers with a comma between groups of three digits.
* `Amount`: the forms of unsigned amounts.
* `exactValue?_unsignedText`: a count of units spells its value.
* `amount_unsignedText`: a count of units has the form of its format.
* `displayNamed_rounds`: a finite value is shown in every format, as its decimal rounded.
-/

namespace LessonCalc

open LessonCalc.Number
open LessonCalc.Json (signChars)

/-! ## Groups of digits -/

/-- A whole number with a comma between its groups of three digits: one to three of them in front, and no
needless zero. -/
def Grouped (cs : List Char) : Prop :=
  ∃ (first : List Char) (groups : List (List Char)),
    cs = first ++ groups.flatMap (',' :: ·) ∧ first ≠ [] ∧ first.length ≤ 3 ∧
      (∀ g ∈ groups, g.length = 3) ∧ Leading (first ++ groups.flatten)

/-- A text is cut into threes from its front, of which all but the last are followed by a comma. -/
theorem exists_groupThrees {cs : List Char} (nonempty : cs ≠ []) :
    ∃ (groups : List (List Char)) (last : List Char),
      groupThrees cs = groups.flatMap (· ++ [',']) ++ last ∧ cs = groups.flatten ++ last ∧
        last ≠ [] ∧ last.length ≤ 3 ∧ ∀ g ∈ groups, g.length = 3 := by
  fun_induction groupThrees cs with
  | case1 a b c d rest ih =>
      obtain ⟨groups, last, cut, same, some, few, threes⟩ := ih (List.cons_ne_nil d rest)
      refine ⟨[a, b, c] :: groups, last, ?_, ?_, some, few, ?_⟩
      · rw [cut]
        rfl
      · rw [same]
        rfl
      · exact List.forall_mem_cons.mpr ⟨rfl, threes⟩
  | case2 cs short =>
      refine ⟨[], cs, rfl, rfl, nonempty, ?_, List.forall_mem_nil _⟩
      rcases cs with _ | ⟨a, _ | ⟨b, _ | ⟨c, _ | ⟨d, rest⟩⟩⟩⟩
      case cons.cons.cons.cons => exact absurd rfl (short a b c d rest)
      all_goals simp

theorem grouped_groupThousands {digits : List Char} (leading : Leading digits) :
    Grouped (groupThousands digits) := by
  have nonempty : digits.reverse ≠ [] := List.reverse_eq_nil_iff.not.mpr leading.nonempty
  obtain ⟨groups, last, cut, same, some, few, threes⟩ := exists_groupThrees nonempty
  refine ⟨last.reverse, (groups.map List.reverse).reverse, ?_, List.reverse_eq_nil_iff.not.mpr some,
    List.length_reverse.trans_le few, ?_, ?_⟩
  · rw [groupThousands, cut, List.reverse_append, List.reverse_flatMap, ← List.map_reverse,
      List.flatMap_map]
    congr 2
    funext g
    simp
  · intro g member
    obtain ⟨g', member', rfl⟩ := List.mem_map.mp (List.mem_reverse.mp member)
    rw [List.length_reverse]
    exact threes g' member'
  · rwa [← List.reverse_flatten, ← List.reverse_append, ← same, List.reverse_reverse]

/-! ## Marks -/

/-- A text without dollar signs, percent signs and commas. -/
def withoutMarks (cs : List Char) : List Char :=
  cs.filter fun c => c != '$' && c != '%' && c != ','

theorem withoutMarks_append (cs ds : List Char) :
    withoutMarks (cs ++ ds) = withoutMarks cs ++ withoutMarks ds :=
  List.filter_append cs ds

theorem withoutMarks_of_digits {cs : List Char} (digits : ∀ c ∈ cs, isDigit c = true) :
    withoutMarks cs = cs := by
  refine List.filter_eq_self.mpr fun c member => ?_
  have digit := digits c member
  have others : c ≠ '$' ∧ c ≠ '%' ∧ c ≠ ',' := by
    refine ⟨?_, ?_, ?_⟩ <;> rintro rfl <;> cases digit
  simp [others]

theorem withoutMarks_groupThrees (cs : List Char) : withoutMarks (groupThrees cs) = withoutMarks cs := by
  fun_induction groupThrees cs with
  | case1 a b c d rest ih =>
      have comma : withoutMarks (',' :: groupThrees (d :: rest)) = withoutMarks (groupThrees (d :: rest)) :=
        List.filter_cons_of_neg (by decide)
      calc withoutMarks (a :: b :: c :: ',' :: groupThrees (d :: rest))
          _ = withoutMarks [a, b, c] ++ withoutMarks (',' :: groupThrees (d :: rest)) :=
              withoutMarks_append [a, b, c] _
          _ = withoutMarks [a, b, c] ++ withoutMarks (d :: rest) := by rw [comma, ih]
          _ = withoutMarks (a :: b :: c :: d :: rest) := (withoutMarks_append [a, b, c] _).symm
  | case2 cs _ => rfl

theorem withoutMarks_groupThousands {digits : List Char} (inside : ∀ c ∈ digits, isDigit c = true) :
    withoutMarks (groupThousands digits) = digits := by
  have reversed : ∀ c ∈ digits.reverse, isDigit c = true := fun c member =>
    inside c (List.mem_reverse.mp member)
  rw [groupThousands, withoutMarks, List.filter_reverse]
  change (withoutMarks (groupThrees digits.reverse)).reverse = digits
  rw [withoutMarks_groupThrees, withoutMarks_of_digits reversed, List.reverse_reverse]

theorem withoutMarks_pointChars {fraction : List Char} (inside : ∀ c ∈ fraction, isDigit c = true) :
    withoutMarks (pointChars fraction) = pointChars fraction := by
  cases fraction with
  | nil => rfl
  | cons d fraction =>
      have digits := withoutMarks_of_digits inside
      have point : withoutMarks ('.' :: d :: fraction) = '.' :: withoutMarks (d :: fraction) :=
        List.filter_cons_of_pos (by decide)
      rw [pointChars_eq (List.cons_ne_nil _ _), point, digits]

/-! ## Zeros and points at the end -/

/-- What is dropped at the end of a text stands behind the last character that is not dropped. -/
theorem rdropWhile_append_cons {p : Char → Bool} {d : Char} (kept : ¬p d) (cs ds : List Char) :
    (cs ++ d :: ds).rdropWhile p = cs ++ d :: ds.rdropWhile p := by
  induction ds using List.reverseRecOn with
  | nil => rw [List.rdropWhile_nil, List.rdropWhile_concat_neg _ _ _ kept]
  | append_singleton ds e ih =>
      have grown : cs ++ d :: (ds ++ [e]) = (cs ++ d :: ds) ++ [e] := by
        rw [List.append_assoc, List.cons_append]
      rw [grown]
      by_cases dropped : p e
      · rw [List.rdropWhile_concat_pos _ _ _ dropped, List.rdropWhile_concat_pos _ _ _ dropped, ih]
      · rw [List.rdropWhile_concat_neg _ _ _ dropped, List.rdropWhile_concat_neg _ _ _ dropped, grown]

/-- The digits of a fraction without the zeros at its end. -/
theorem isDigit_of_mem_dropTrailingZeros {fraction : List Char}
    (inside : ∀ c ∈ fraction, isDigit c = true) : ∀ c ∈ dropTrailingZeros fraction, isDigit c = true :=
  fun c member => inside c (mem_of_mem_reverse_dropWhile member)

theorem exists_eq_append_zeros (fraction : List Char) :
    ∃ k, fraction = dropTrailingZeros fraction ++ List.replicate k '0' := by
  refine ⟨(fraction.rtakeWhile (· == '0')).length, ?_⟩
  have zeros : fraction.rtakeWhile (· == '0') =
      List.replicate (fraction.rtakeWhile (· == '0')).length '0' :=
    List.eq_replicate_of_mem fun c member =>
      eq_of_beq (List.mem_rtakeWhile_imp (p := (· == '0')) member)
  rw [← zeros]
  exact List.rdropWhile_append_rtakeWhile.symm

/-- Zeros are dropped at the end of a fraction, and the point if nothing follows it.  The digits before the
point stay, zeros or not. -/
theorem dropTrailingPoints_dropTrailingZeros {whole fraction : List Char} (nonempty : whole ≠ [])
    (last : whole.getLast nonempty ≠ '.') (inside : ∀ c ∈ fraction, isDigit c = true) :
    dropTrailingPoints (dropTrailingZeros (whole ++ '.' :: fraction)) =
      whole ++ pointChars (dropTrailingZeros fraction) := by
  have zeros : dropTrailingZeros (whole ++ '.' :: fraction) = whole ++ '.' :: dropTrailingZeros fraction :=
    rdropWhile_append_cons (by decide) whole fraction
  have digits := isDigit_of_mem_dropTrailingZeros inside
  rw [zeros]
  change List.rdropWhile (· == '.') _ = _
  cases rest : dropTrailingZeros fraction with
  | nil =>
      rw [pointChars, List.append_nil, List.rdropWhile_concat_pos _ _ _ rfl]
      exact List.rdropWhile_eq_self_iff.mpr fun _ point => last (eq_of_beq point)
  | cons d more =>
      refine List.rdropWhile_eq_self_iff.mpr fun some point => ?_
      rw [List.getLast_append_of_ne_nil _ (List.cons_ne_nil '.' _),
        List.getLast_cons (List.cons_ne_nil d more)] at point
      rw [rest] at digits
      have digit := digits _ (List.getLast_mem (List.cons_ne_nil d more))
      rw [eq_of_beq point] at digit
      cases digit

/-! ## Counts of units -/

/-- The two places of a count of hundredths. -/
def cents (n : Nat) : List Char :=
  padZeros 2 (natChars (n % 100))

theorem isDigit_cents {n : Nat} : ∀ c ∈ cents n, isDigit c = true :=
  mem_padZeros fun _ => isDigit_of_mem_natChars

theorem length_natChars_le {n k : Nat} (less : n < 10 ^ k) (positive : 0 < k) : (natChars n).length ≤ k :=
  (Nat.length_toDigits_le_iff (by decide) positive).mpr less

theorem length_cents (n : Nat) : (cents n).length = 2 := by
  have few : (natChars (n % 100)).length ≤ 2 := length_natChars_le (Nat.mod_lt n (by decide)) (by decide)
  rw [cents, padZeros, List.length_append, List.length_replicate]
  omega

theorem exists_tenth (n : Nat) : ∃ c, natChars (n % 10) = [c] ∧ isDigit c = true := by
  have few : (natChars (n % 10)).length ≤ 1 := length_natChars_le (Nat.mod_lt n (by decide)) (by decide)
  have some : 0 < (natChars (n % 10)).length := List.length_pos_iff.mpr (natChars_ne_nil _)
  obtain ⟨c, same⟩ := List.length_eq_one_iff.mp (Nat.le_antisymm few some)
  exact ⟨c, same, isDigit_of_mem_natChars (same ▸ List.mem_cons_self)⟩

/-- A count of hundredths as a number loses the zeros at the end of its places, and the point with them. -/
theorem unsignedText_number (n : Nat) :
    unsignedText .number n =
      groupThousands (natChars (n / 100)) ++ pointChars (dropTrailingZeros (cents n)) := by
  obtain ⟨first, groups, same, some, -⟩ := grouped_groupThousands (leading_natChars (n / 100))
  have nonempty : groupThousands (natChars (n / 100)) ≠ [] := by
    rw [same]
    exact List.append_ne_nil_of_left_ne_nil some _
  have last : (groupThousands (natChars (n / 100))).getLast nonempty ≠ '.' := by
    intro point
    have member := List.getLast_mem nonempty
    rw [point, mem_groupThousands (by decide)] at member
    cases isDigit_of_mem_natChars member
  exact dropTrailingPoints_dropTrailingZeros nonempty last isDigit_cents

/-! ## Values of counts -/

/-- A count with a point before its last digits has its value in units. -/
theorem value_places {n places unit : Nat} {fraction : List Char} (power : 10 ^ places = unit)
    (length : fraction.length = places) (digits : ofDigitChars fraction = n % unit) :
    (Numeral.literal ⟨natChars (n / unit), fraction, none⟩).decimal.value = n / 10 ^ places := by
  subst power
  have count : ofDigitChars (natChars (n / 10 ^ places) ++ fraction) = n := by
    rw [ofDigitChars_append, ofDigitChars_natChars, length, digits]
    exact Nat.div_add_mod' n _
  rw [Numeral.value_decimal]
  dsimp only
  rw [count, length, exponentValue, zero_sub, zpow_neg, zpow_natCast, div_eq_mul_inv]

theorem value_dropTrailingZeros (whole fraction : List Char) :
    (Numeral.literal ⟨whole, dropTrailingZeros fraction, none⟩).decimal.value =
      (Numeral.literal ⟨whole, fraction, none⟩).decimal.value := by
  obtain ⟨k, same⟩ := exists_eq_append_zeros fraction
  generalize dropTrailingZeros fraction = kept at same ⊢
  subst same
  have exponent : (0 - ((kept ++ List.replicate k '0').length : Nat) : Int) = 0 - kept.length - k := by
    rw [List.length_append, List.length_replicate]
    omega
  rw [Numeral.value_decimal, Numeral.value_decimal]
  dsimp only [exponentValue]
  rw [← List.append_assoc, exponent]
  generalize whole ++ kept = digits
  generalize (0 - kept.length : Int) = e
  rw [ofDigitChars_append, ofDigitChars_replicate, List.length_replicate, zpow_sub₀ (by norm_num),
    zpow_natCast]
  push_cast
  field_simp
  ring

/-- Without its marks a grouped number is a numeral. -/
theorem withoutMarks_grouped {n : Nat} {fraction : List Char} (inside : ∀ c ∈ fraction, isDigit c = true) :
    withoutMarks (groupThousands (natChars n) ++ pointChars fraction) =
      Numeral.chars ⟨natChars n, fraction, none⟩ := by
  rw [withoutMarks_append, withoutMarks_groupThousands fun _ => isDigit_of_mem_natChars,
    withoutMarks_pointChars inside, Numeral.chars, exponentChars, List.append_nil]

/-- Without its marks the text of a count is a numeral that has the value of the count in units. -/
theorem exists_numeral_unsignedText (format : ValueFormat) (n : Nat) :
    ∃ t : Numeral, withoutMarks (unsignedText format n) = t.chars ∧ t.Spelled ∧
      t.literal.decimal.value = n / 10 ^ format.places := by
  have hundredths : (Numeral.literal ⟨natChars (n / 100), cents n, none⟩).decimal.value = n / 10 ^ 2 :=
    value_places rfl (length_cents n) (by rw [cents, ofDigitChars_padZeros, ofDigitChars_natChars])
  cases format with
  | currency =>
      refine ⟨⟨natChars (n / 100), cents n, none⟩, ?_, spelled_natChars isDigit_cents, hundredths⟩
      have some : cents n ≠ [] := List.ne_nil_of_length_pos (by rw [length_cents]; decide)
      rw [← withoutMarks_grouped isDigit_cents, pointChars_eq some]
      exact List.filter_cons_of_neg (by decide)
  | number =>
      have inside := isDigit_of_mem_dropTrailingZeros (isDigit_cents (n := n))
      refine ⟨⟨natChars (n / 100), dropTrailingZeros (cents n), none⟩, ?_, spelled_natChars inside, ?_⟩
      · rw [unsignedText_number, withoutMarks_grouped inside]
      · rw [value_dropTrailingZeros, hundredths, ValueFormat.places]
  | percentage =>
      obtain ⟨c, tenth, digit⟩ := exists_tenth n
      have inside : ∀ d ∈ [c], isDigit d = true := List.forall_mem_singleton.mpr digit
      refine ⟨⟨natChars (n / 10), [c], none⟩, ?_, spelled_natChars inside, ?_⟩
      · have text : unsignedText .percentage n = natChars (n / 10) ++ (pointChars [c] ++ ['%']) := by
          rw [unsignedText, tenth, List.append_assoc]
          rfl
        have percent : withoutMarks ['%'] = [] := List.filter_cons_of_neg (by decide)
        rw [text, withoutMarks_append, withoutMarks_append, withoutMarks_pointChars inside, percent,
          withoutMarks_of_digits fun _ => isDigit_of_mem_natChars]
        rfl
      · refine value_places (Nat.pow_one 10) rfl ?_
        rw [← tenth, ofDigitChars_natChars]

/-! ## Forms of amounts -/

/-- The form of an unsigned amount: money has a dollar sign and two places, a percentage has no commas, one
place and a percent sign, and a number has up to two places, of which the last is no zero. -/
inductive Amount : ValueFormat → List Char → Prop
  | currency {whole places : List Char} :
      Grouped whole → (∀ c ∈ places, isDigit c = true) → places.length = 2 →
      Amount .currency ('$' :: (whole ++ '.' :: places))
  | percentage {whole : List Char} {place : Char} :
      Leading whole → isDigit place = true →
      Amount .percentage (whole ++ ['.', place, '%'])
  | whole {whole : List Char} :
      Grouped whole →
      Amount .number whole
  | fraction {whole places : List Char} (nonempty : places ≠ []) :
      Grouped whole → (∀ c ∈ places, isDigit c = true) → places.length ≤ 2 →
      places.getLast nonempty ≠ '0' →
      Amount .number (whole ++ '.' :: places)

theorem amount_unsignedText (format : ValueFormat) (n : Nat) : Amount format (unsignedText format n) := by
  have grouped := grouped_groupThousands (leading_natChars (n / 100))
  cases format with
  | currency => exact .currency grouped isDigit_cents (length_cents n)
  | percentage =>
      obtain ⟨c, tenth, digit⟩ := exists_tenth n
      have text : unsignedText .percentage n = natChars (n / 10) ++ ['.', c, '%'] := by
        rw [unsignedText, tenth, List.append_assoc]
        rfl
      exact text ▸ .percentage (leading_natChars (n / 10)) digit
  | number =>
      rw [unsignedText_number]
      by_cases none : dropTrailingZeros (cents n) = []
      · rw [none, pointChars, List.append_nil]
        exact .whole grouped
      · have few : (dropTrailingZeros (cents n)).length ≤ 2 :=
          (List.rdropWhile_prefix _ _).length_le.trans (length_cents n).le
        have last := List.rdropWhile_last_not (· == '0') (cents n) none
        rw [pointChars_eq none]
        exact .fraction none grouped (isDigit_of_mem_dropTrailingZeros isDigit_cents) few fun zero =>
          last (beq_iff_eq.mpr zero)

/-! ## Shown values -/

/-- The step to whose multiples a format rounds. -/
def ValueFormat.step : ValueFormat → ℚ
  | currency | number => 1 / 100
  | percentage => 1 / 10

theorem ValueFormat.step_eq (format : ValueFormat) : format.step = 1 / 10 ^ format.places := by
  cases format <;> norm_num [step, places]

variable {x : Float} (format : ValueFormat)

/-- A finite value is shown in each format, whatever its size. -/
theorem displayNamed_eq_ok (finite : x.isFinite = true) :
    displayNamed (.float x) format.name = .ok (display x format) := by
  have named : ValueFormat.ofName? format.name = some format := by
    cases format <;> rfl
  have few : format.places ≤ 2 := by
    cases format <;> decide
  rw [displayNamed, if_pos finite, named]
  dsimp only
  rw [displayWithin, Decimal.roundWithin?_eq_some _ _ few, display, if_pos finite, displayDecimal_eq]

theorem roundsTo_signedValue {step v r : ℚ} (negative : Bool) (rounds : RoundsTo step v r) :
    RoundsTo step (signedValue negative v) (signedValue negative r) := by
  cases negative with
  | false => exact rounds
  | true => exact rounds.neg

/-- Of the values with a sign, zero loses nothing without it. -/
theorem signedValue_and_ne_zero (negative : Bool) (n : Nat) (scale : ℚ) :
    signedValue (negative && n != 0) (n / scale) = signedValue negative (n / scale) := by
  by_cases zero : n = 0
  · subst zero
    cases negative <;> simp [signedValue]
  · have nonzero : (n != 0) = true := bne_iff_ne.mpr zero
    rw [nonzero, Bool.and_true]

theorem signedValue_neg_iff {negative : Bool} {n : Nat} {scale : ℚ} (positive : 0 < scale) :
    signedValue (negative && n != 0) (n / scale) < 0 ↔ (negative && n != 0) = true := by
  have value : (0 : ℚ) ≤ n / scale := by positivity
  cases sign : negative && n != 0 with
  | false => simpa [signedValue] using value
  | true =>
      have nonzero : n ≠ 0 := bne_iff_ne.mp (Bool.and_eq_true_iff.mp sign).2
      have some : (0 : ℚ) < n / scale := by positivity
      simpa [signedValue] using some

/-- A finite value is shown in every format.  Without its marks the text spells the shortest decimal of the
value, rounded to the step of the format, a half away from zero; a minus sign stands in front exactly if that
is negative, and the rest has the form of the format. -/
theorem displayNamed_rounds (finite : x.isFinite = true) :
    ∃ (d r : ℚ) (amount : List Char),
      displayNamed (.float x) format.name = .ok (display x format) ∧
      exactValue? (plainText x).toList = some d ∧
      exactValue? (withoutMarks (display x format).toList) = some r ∧
      (∀ v, RoundsTo format.step d v ↔ v = r) ∧
      (display x format).toList = (if r < 0 then ['-'] else []) ++ amount ∧ Amount format amount := by
  have scale : (0 : ℚ) < 10 ^ format.places := by positivity
  have step : 0 < format.step := by
    rw [format.step_eq]
    exact one_div_pos.mpr scale
  obtain ⟨t, chars, spelled, value⟩ := exists_numeral_unsignedText format (unitsOf x format)
  have text : (display x format).toList =
      signChars (isSigned x && unitsOf x format != 0) ++ unsignedText format (unitsOf x format) := by
    rw [toList_display format finite, signChars]
    congr 1
    simp
  have read : exactValue? (withoutMarks (display x format).toList) =
      some (signedValue (isSigned x && unitsOf x format != 0) (unitsOf x format / 10 ^ format.places)) := by
    have minus : ∀ negative, withoutMarks (signChars negative) = signChars negative := by
      decide
    rw [text, withoutMarks_append, minus, chars, exactValue?_numeral spelled, value]
  have rounds : RoundsTo format.step (signedValue (isSigned x) (magnitude x).shortest.value)
      (signedValue (isSigned x && unitsOf x format != 0) (unitsOf x format / 10 ^ format.places)) := by
    rw [signedValue_and_ne_zero, format.step_eq]
    exact roundsTo_signedValue _ (Decimal.roundsTo_value _ _)
  refine ⟨_, _, unsignedText format (unitsOf x format), displayNamed_eq_ok format finite,
    exactValue?_plainText finite, read, fun v => ⟨fun other => other.unique step rounds, ?_⟩, ?_,
    amount_unsignedText format _⟩
  · rintro rfl
    exact rounds
  · rw [text, signChars]
    exact congrArg (· ++ _) (if_congr (signedValue_neg_iff scale).symm rfl rfl)

/-- Rounding an amount up carries into a new group of digits. -/
theorem displayNamed_rounds_carry :
    (999999.995 : Float).isFinite = true ∧ display 999999.995 .currency = "$1,000,000.00" ∧
      ∃ (d r : ℚ) (amount : List Char),
        displayNamed (.float 999999.995) "currency" = .ok (display 999999.995 .currency) ∧
        exactValue? (plainText 999999.995).toList = some d ∧
        exactValue? (withoutMarks (display 999999.995 .currency).toList) = some r ∧
        (∀ v, RoundsTo (1 / 100) d v ↔ v = r) ∧
        (display 999999.995 .currency).toList = (if r < 0 then ['-'] else []) ++ amount ∧
        Amount .currency amount := by
  have finite : (999999.995 : Float).isFinite = true := by decide +kernel
  refine ⟨finite, ?_, displayNamed_rounds .currency finite⟩
  decide +kernel

end LessonCalc
