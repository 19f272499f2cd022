import LessonCalc.Proofs.Number.Layout
import LessonCalc.Proofs.Number.Sign
import LessonCalc.Tool.Compute

/-!
# What a shown value looks like

The text of a value is a sign and the text of a count: that of the hundredths or tenths to which the value
is rounded.  A count that is not zero shows some digit other than zero, and only such a count shows a sign.

* `displayDecimal_eq`: sign and count apart.
* `shows_unsignedText_iff`: a digit other than zero is shown exactly if the count is not zero.
* `startsWithMinus_display_iff`: a minus sign is shown exactly if the value is negative and does not show
  as zero.
* `display_neg`: the texts of a value and of its negation differ in the sign.
-/

namespace LessonCalc

open LessonCalc.Number

/-! ## Digits other than zero -/

/-- Some digit other than zero is among characters. -/
def ShowsDigit (cs : List Char) : Prop :=
  ∃ c ∈ cs, isDigit c = true ∧ c ≠ '0'

theorem showsDigit_append (cs ds : List Char) : ShowsDigit (cs ++ ds) ↔ ShowsDigit cs ∨ ShowsDigit ds := by
  simp only [ShowsDigit, List.mem_append, or_and_right, exists_or]

theorem showsDigit_cons (c : Char) (cs : List Char) :
    ShowsDigit (c :: cs) ↔ (isDigit c = true ∧ c ≠ '0') ∨ ShowsDigit cs := by
  simp only [ShowsDigit, List.exists_mem_cons_iff]

theorem not_showsDigit_nil : ¬ShowsDigit [] := by
  rintro ⟨c, member, -⟩
  cases member

/-- Characters of which the same digits other than zero are in two texts show the same. -/
theorem showsDigit_congr {cs ds : List Char}
    (same : ∀ c, isDigit c = true → c ≠ '0' → (c ∈ cs ↔ c ∈ ds)) : ShowsDigit cs ↔ ShowsDigit ds := by
  refine exists_congr fun c => and_congr_left fun digit => ?_
  exact same c digit.1 digit.2

theorem showsDigit_natChars (n : Nat) : ShowsDigit (natChars n) ↔ n ≠ 0 := by
  constructor
  · rintro ⟨c, member, -, other⟩ rfl
    exact other (List.mem_singleton.mp member)
  · intro positive
    cases same : natChars n with
    | nil => exact absurd same (natChars_ne_nil n)
    | cons c cs =>
        have member : c ∈ natChars n := same ▸ List.mem_cons_self
        have first := head?_natChars positive
        rw [same] at first
        exact ⟨c, List.mem_cons_self, isDigit_of_mem_natChars member, fun zero => first (congrArg some zero)⟩

theorem showsDigit_padZeros (width : Nat) (cs : List Char) : ShowsDigit (padZeros width cs) ↔ ShowsDigit cs := by
  rw [padZeros, showsDigit_append, or_iff_right]
  rintro ⟨c, member, -, other⟩
  exact other (List.eq_of_mem_replicate member)

/-! ## Groups of digits -/

theorem mem_groupThrees {cs : List Char} {c : Char} (other : c ≠ ',') :
    c ∈ groupThrees cs ↔ c ∈ cs := by
  fun_induction groupThrees cs with
  | case1 x y z w rest ih => simp [ih, other]
  | case2 few => rfl

theorem mem_groupThousands {cs : List Char} {c : Char} (other : c ≠ ',') :
    c ∈ groupThousands cs ↔ c ∈ cs := by
  rw [groupThousands, List.mem_reverse, mem_groupThrees other, List.mem_reverse]

/-- Dropping one character at the end of a text leaves the others. -/
theorem mem_reverse_dropWhile {cs : List Char} {c d : Char} (other : c ≠ d) :
    c ∈ (cs.reverse.dropWhile (· == d)).reverse ↔ c ∈ cs := by
  have parts : c ∈ cs.reverse ↔
      c ∈ cs.reverse.takeWhile (· == d) ++ cs.reverse.dropWhile (· == d) := by
    rw [List.takeWhile_append_dropWhile]
  have whole : c ∈ cs ↔ c ∈ cs.reverse := List.mem_reverse.symm
  rw [List.mem_reverse, whole, parts, List.mem_append, or_iff_right]
  intro dropped
  have same := List.mem_takeWhile_imp dropped
  exact other (eq_of_beq same)

theorem shows_hundredths_iff (n : Nat) : ShowsDigit (hundredths n) ↔ n ≠ 0 := by
  have grouped : ShowsDigit (groupThousands (natChars (n / 100))) ↔ n / 100 ≠ 0 := by
    rw [← showsDigit_natChars]
    refine showsDigit_congr fun c digit _ => mem_groupThousands ?_
    rintro rfl
    cases digit
  have point : ¬(isDigit '.' = true ∧ '.' ≠ '0') := by decide
  rw [hundredths, showsDigit_append, showsDigit_cons, grouped, or_iff_right point, showsDigit_padZeros,
    showsDigit_natChars]
  omega

/-! ## Counts of units -/

/-- A signed decimal shows its sign, unless it is rounded to nothing, and the count of its units. -/
theorem displayDecimal_eq (negative : Bool) (d : Decimal) (format : ValueFormat) :
    displayDecimal negative d format =
      (if negative ∧ d.roundToPlaces format.places ≠ 0 then ['-'] else []) ++
        unsignedText format (d.roundToPlaces format.places) := by
  cases format with
  | currency => rfl
  | number => rfl
  | percentage =>
      rw [unsignedText, ← List.append_assoc, ← List.append_assoc]
      rfl

theorem shows_unsignedText_iff (format : ValueFormat) (n : Nat) :
    ShowsDigit (unsignedText format n) ↔ n ≠ 0 := by
  have dollar : ¬(isDigit '$' = true ∧ '$' ≠ '0') := by decide
  have point : ¬(isDigit '.' = true ∧ '.' ≠ '0') := by decide
  have percent : ¬(isDigit '%' = true ∧ '%' ≠ '0') := by decide
  cases format with
  | currency => rw [unsignedText, showsDigit_cons, or_iff_right dollar, shows_hundredths_iff]
  | percentage =>
      rw [unsignedText, showsDigit_append, showsDigit_append, showsDigit_cons, showsDigit_cons,
        or_iff_right point, showsDigit_natChars, showsDigit_natChars, or_iff_right percent,
        or_iff_left not_showsDigit_nil]
      omega
  | number =>
      rw [← shows_hundredths_iff]
      refine showsDigit_congr fun c digit other => ?_
      have notPoint : c ≠ '.' := by
        rintro rfl
        cases digit
      rw [unsignedText, dropTrailingPoints, mem_reverse_dropWhile notPoint, dropTrailingZeros,
        mem_reverse_dropWhile other]

/-- The characters of an amount: digits and the marks between and around them. -/
def isAmountChar (c : Char) : Bool :=
  isDigit c || c == '$' || c == ',' || c == '.' || c == '%'

theorem isAmountChar_of_isDigit {c : Char} (digit : isDigit c = true) : isAmountChar c = true := by
  simp [isAmountChar, digit]

theorem isAmountChar_hundredths (n : Nat) : ∀ c ∈ hundredths n, isAmountChar c = true := by
  intro c member
  rcases List.mem_append.mp member with whole | rest
  · by_cases comma : c = ','
    · subst comma
      decide
    · exact isAmountChar_of_isDigit (isDigit_of_mem_natChars ((mem_groupThousands comma).mp whole))
  · rcases List.mem_cons.mp rest with rfl | places
    · decide
    · exact isAmountChar_of_isDigit (mem_padZeros (fun c => isDigit_of_mem_natChars) c places)

theorem mem_of_mem_reverse_dropWhile {p : Char → Bool} {cs : List Char} {c : Char}
    (member : c ∈ (cs.reverse.dropWhile p).reverse) : c ∈ cs :=
  List.mem_reverse.mp ((List.dropWhile_sublist p).subset (List.mem_reverse.mp member))

theorem isAmountChar_unsignedText (format : ValueFormat) (n : Nat) :
    ∀ c ∈ unsignedText format n, isAmountChar c = true := by
  intro c member
  cases format with
  | currency =>
      rcases List.mem_cons.mp member with rfl | amount
      · decide
      · exact isAmountChar_hundredths n c amount
  | percentage =>
      simp only [unsignedText, List.mem_append, List.mem_cons, List.not_mem_nil, or_false] at member
      rcases member with (whole | rfl | tenth) | rfl
      · exact isAmountChar_of_isDigit (isDigit_of_mem_natChars whole)
      · decide
      · exact isAmountChar_of_isDigit (isDigit_of_mem_natChars tenth)
      · decide
  | number =>
      exact isAmountChar_hundredths n c (mem_of_mem_reverse_dropWhile (mem_of_mem_reverse_dropWhile member))

/-! ## Shown values -/

/-- Some digit other than zero is in a text. -/
def ShowsNonzero (text : String) : Prop :=
  ShowsDigit text.toList

variable {x : Float} (format : ValueFormat)

/-- How many units of a format a value is rounded to. -/
def unitsOf (x : Float) (format : ValueFormat) : Nat :=
  (magnitude x).shortest.roundToPlaces format.places

/-- A finite value is shown as its sign, unless it is rounded to nothing, and the count of its units. -/
theorem toList_display (finite : x.isFinite = true) :
    (display x format).toList =
      (if isSigned x ∧ unitsOf x format ≠ 0 then ['-'] else []) ++ unsignedText format (unitsOf x format) := by
  rw [display, if_pos finite, String.toList_ofList, displayDecimal_eq]
  rfl

/-- Zero is rounded to nothing. -/
theorem mantissa_ne_zero_of_unitsOf (some : unitsOf x format ≠ 0) : (magnitude x).mantissa ≠ 0 := by
  intro zero
  refine some ?_
  rw [unitsOf, Dyadic.shortest, if_pos zero]
  cases format <;> rfl

/-- A value shows as something else than zero exactly if it is not rounded to nothing. -/
theorem showsNonzero_display_iff (finite : x.isFinite = true) :
    ShowsNonzero (display x format) ↔ unitsOf x format ≠ 0 := by
  have minus : ¬ShowsDigit (if isSigned x ∧ unitsOf x format ≠ 0 then ['-'] else []) := by
    split
    · rintro ⟨c, member, digit, -⟩
      cases List.mem_singleton.mp member
      cases digit
    · exact not_showsDigit_nil
  rw [ShowsNonzero, toList_display format finite, showsDigit_append, or_iff_right minus,
    shows_unsignedText_iff]

/-- A text starts with a minus sign exactly if the value is negative and some digit of the text is not
zero. -/
theorem startsWithMinus_display_iff (finite : x.isFinite = true) :
    Tool.startsWithMinus (display x format) = true ↔ x < 0.0 ∧ ShowsNonzero (display x format) := by
  rw [showsNonzero_display_iff format finite, lt_zero_iff finite, Tool.startsWithMinus,
    toList_display format finite]
  by_cases sign : isSigned x = true ∧ unitsOf x format ≠ 0
  · have nonzero := mantissa_ne_zero_of_unitsOf format sign.2
    rw [if_pos sign]
    simp [sign.1, sign.2, nonzero]
  · rw [if_neg sign, List.nil_append]
    have unsigned : (unsignedText format (unitsOf x format)).head? ≠ some '-' := by
      intro minus
      have amount := isAmountChar_unsignedText format _ '-' (List.mem_of_head? minus)
      cases amount
    constructor
    · intro minus
      exact absurd (eq_of_beq minus) unsigned
    · rintro ⟨⟨signed, -⟩, some⟩
      exact absurd ⟨signed, some⟩ sign

/-- A finite value is never shown as the placeholder. -/
theorem display_ne_placeholder (finite : x.isFinite = true) : display x format ≠ placeholder := by
  intro same
  have dash : '—' ∈ (display x format).toList := by
    rw [same]
    decide
  rw [toList_display format finite] at dash
  rcases List.mem_append.mp dash with sign | amount
  · split at sign
    · cases List.mem_singleton.mp sign
    · cases sign
  · cases isAmountChar_unsignedText format _ _ amount

/-- A value that does not show as zero has the text of its negation, with the sign added or removed. -/
theorem display_neg (finite : x.isFinite = true) (shown : ShowsNonzero (display x format)) :
    if x < 0.0 then display x format = "-" ++ display (-x) format
    else display (-x) format = "-" ++ display x format := by
  have units := (showsNonzero_display_iff format finite).mp shown
  have nonzero := mantissa_ne_zero_of_unitsOf format units
  have finite' : (-x).isFinite = true := (isFinite_neg x).trans finite
  have units' : unitsOf (-x) format = unitsOf x format := by
    rw [unitsOf, magnitude_neg finite nonzero, unitsOf]
  have minus : "-".toList = ['-'] := rfl
  split
  next negative =>
    have signed := ((lt_zero_iff finite).mp negative).1
    refine String.toList_inj.mp ?_
    rw [String.toList_append, toList_display format finite, toList_display format finite', units',
      isSigned_neg finite nonzero, signed, if_pos ⟨rfl, units⟩, if_neg (fun sign => by cases sign.1), minus,
      List.nil_append]
  next positive =>
    have unsigned : isSigned x = false := by
      refine Bool.eq_false_of_not_eq_true fun signed => positive ?_
      exact (lt_zero_iff finite).mpr ⟨signed, nonzero⟩
    refine String.toList_inj.mp ?_
    rw [String.toList_append, toList_display format finite, toList_display format finite', units',
      isSigned_neg finite nonzero, unsigned, if_pos ⟨rfl, units⟩, if_neg (fun sign => by cases sign.1), minus,
      List.nil_append]

end LessonCalc
