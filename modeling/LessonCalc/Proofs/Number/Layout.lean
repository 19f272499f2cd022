import LessonCalc.Number.Layout
import LessonCalc.Proofs.Number.Literal
import LessonCalc.Proofs.Number.Shortest

/-!
# What a layout writes

The text of a decimal is a numeral: digits, a point with more digits, an exponent.  Whatever the layout,
the numeral has the value of the decimal.

* `Numeral`, `Numeral.Proper`: the parts of a written number, and that a number with these parts is
  written without a needless zero in front and not like an integer.
* `Layout.exists_numeral`: a layout writes a decimal as a proper numeral of the same value.
* `signed_toFloat_literal`: so a numeral for the shortest decimal of a number is read as the number.
-/

namespace LessonCalc.Number

/-! ## Digits -/

theorem ofDigitChars_eq (cs : List Char) : ofDigitChars cs = Nat.ofDigitChars 10 cs 0 := by
  rw [ofDigitChars, ofDigits, List.foldl_map, Nat.ofDigitChars]
  congr 1
  funext n c
  rw [Nat.mul_comm]
  rfl

theorem ofDigitChars_natChars (n : Nat) : ofDigitChars (natChars n) = n := by
  rw [ofDigitChars_eq, natChars, Nat.ofDigitChars_ten_toDigits]

theorem isDigit_of_mem_natChars {n : Nat} {c : Char} (member : c ∈ natChars n) :
    isDigit c = true := by
  have digit := Nat.isDigit_of_mem_toDigits (by decide) (by decide) member
  simpa [isDigit, Char.isDigit, Char.le_def] using digit

theorem natChars_ne_nil (n : Nat) : natChars n ≠ [] :=
  Nat.toDigits_ne_nil

/-- A positive number is written with no zero in front. -/
theorem head?_natChars {n : Nat} (positive : n ≠ 0) : (natChars n).head? ≠ some '0' := by
  induction n using Nat.strongRecOn with
  | ind n ih =>
      rw [natChars, Nat.toDigits_eq_if (by decide)]
      split
      next small => interval_cases n <;> simp_all [Nat.digitChar]
      next large =>
        rw [List.head?_append_of_ne_nil _ Nat.toDigits_ne_nil]
        exact ih (n / 10) (by omega) (by omega)

theorem ofDigitChars_append (cs ds : List Char) :
    ofDigitChars (cs ++ ds) = ofDigitChars cs * 10 ^ ds.length + ofDigitChars ds := by
  rw [ofDigitChars_eq, ofDigitChars_eq, ofDigitChars_eq, Nat.ofDigitChars_append,
    Nat.ofDigitChars_eq_ofDigitChars_zero, Nat.mul_comm]

theorem ofDigitChars_replicate (k : Nat) : ofDigitChars (List.replicate k '0') = 0 := by
  rw [ofDigitChars_eq, Nat.ofDigitChars_replicate_zero, Nat.mul_zero]

/-- Digits without a needless zero in front. -/
structure Leading (cs : List Char) : Prop where
  inside : ∀ c ∈ cs, isDigit c = true
  nonempty : cs ≠ []
  first : cs = ['0'] ∨ cs.head? ≠ some '0'

theorem leading_natChars (n : Nat) : Leading (natChars n) := by
  refine ⟨fun c => isDigit_of_mem_natChars, natChars_ne_nil n, ?_⟩
  by_cases zero : n = 0
  · subst zero
    exact .inl rfl
  · exact .inr (head?_natChars zero)

theorem isDigit_of_mem_replicate {k : Nat} {c : Char} (member : c ∈ List.replicate k '0') :
    isDigit c = true := by
  rw [List.eq_of_mem_replicate member]
  rfl

theorem leading_zero : Leading ['0'] :=
  leading_natChars 0

/-! ## Numerals -/

/-- The parts of a written number: the digits before and behind the point, and the exponent with its
sign. -/
structure Numeral where
  whole : List Char
  fraction : List Char
  exponent? : Option (Bool × List Char)

/-- A fraction behind its point. -/
def pointChars : List Char → List Char
  | [] => []
  | digits => '.' :: digits

theorem pointChars_eq {digits : List Char} (nonempty : digits ≠ []) :
    pointChars digits = '.' :: digits := by
  cases digits with
  | nil => exact absurd rfl nonempty
  | cons _ _ => rfl

/-- An exponent behind its letter and its sign. -/
def exponentChars : Option (Bool × List Char) → List Char
  | none => []
  | some (negative, digits) => 'e' :: (if negative then '-' else '+') :: digits

/-- The number that an exponent spells. -/
def exponentValue : Option (Bool × List Char) → Int
  | none => 0
  | some (negative, digits) => if negative then -ofDigitChars digits else ofDigitChars digits

namespace Numeral

/-- A numeral as text. -/
def chars (t : Numeral) : List Char :=
  t.whole ++ (pointChars t.fraction ++ exponentChars t.exponent?)

/-- The literal that a numeral spells. -/
def literal (t : Numeral) : Literal :=
  ⟨t.whole, t.fraction, exponentValue t.exponent?⟩

/-- A number is written without a needless zero in front, and with a point or an exponent, so that it is
no integer. -/
structure Proper (t : Numeral) : Prop where
  whole : Leading t.whole
  fraction : ∀ c ∈ t.fraction, isDigit c = true
  exponent : ∀ e, t.exponent? = some e → e.2 ≠ [] ∧ ∀ c ∈ e.2, isDigit c = true
  marked : t.fraction ≠ [] ∨ t.exponent?.isSome

theorem proper_of_point {whole fraction : List Char} (leading : Leading whole)
    (nonempty : fraction ≠ []) (inside : ∀ c ∈ fraction, isDigit c = true) :
    Proper ⟨whole, fraction, none⟩ :=
  ⟨leading, inside, (fun _ found => by cases found), .inl nonempty⟩

/-- The value of a numeral is that of its digits, scaled by its exponent and the place of the point. -/
theorem value_decimal (t : Numeral) :
    t.literal.decimal.value = ofDigitChars (t.whole ++ t.fraction) *
      10 ^ (exponentValue t.exponent? - t.fraction.length) :=
  rfl

end Numeral

/-! ## Numerals of decimals -/

variable {digits : List Char}

/-- Digits behind the point, after some zeros. -/
theorem exists_numeral_behind (leading : Leading digits) (zeros : Nat) :
    ∃ t : Numeral, '0' :: '.' :: (List.replicate zeros '0' ++ digits) = t.chars ∧ t.Proper ∧
      t.literal.decimal.value = ofDigitChars digits * 10 ^ (-zeros - digits.length : Int) := by
  have nonempty : List.replicate zeros '0' ++ digits ≠ [] :=
    List.append_ne_nil_of_right_ne_nil _ leading.nonempty
  refine ⟨⟨['0'], List.replicate zeros '0' ++ digits, none⟩, ?_, ?_, ?_⟩
  · rw [Numeral.chars, pointChars_eq nonempty, exponentChars, List.append_nil]
    rfl
  · refine Numeral.proper_of_point leading_zero nonempty fun c member => ?_
    rcases List.mem_append.mp member with zero | digit
    · exact isDigit_of_mem_replicate zero
    · exact leading.inside c digit
  · have exponent : (0 - ((List.replicate zeros '0' ++ digits).length : Nat) : Int) =
        -zeros - digits.length := by
      rw [List.length_append, List.length_replicate]
      omega
    have same : ofDigitChars (['0'] ++ (List.replicate zeros '0' ++ digits)) = ofDigitChars digits := by
      rw [ofDigitChars_append, ofDigitChars_append, ofDigitChars_replicate]
      simp [ofDigitChars, ofDigits, digitValue]
    rw [Numeral.value_decimal, exponentValue, exponent, same]

/-- Digits before the point, with some zeros after them. -/
theorem exists_numeral_before (leading : Leading digits) {zeros : Nat}
    (single : digits = ['0'] → zeros = 0) :
    ∃ t : Numeral, digits ++ List.replicate zeros '0' ++ ['.', '0'] = t.chars ∧ t.Proper ∧
      t.literal.decimal.value = ofDigitChars digits * 10 ^ (zeros : Int) := by
  refine ⟨⟨digits ++ List.replicate zeros '0', ['0'], none⟩, ?_, ?_, ?_⟩
  · simp [Numeral.chars, pointChars, exponentChars]
  · refine Numeral.proper_of_point ⟨?_, ?_, ?_⟩ leading_zero.nonempty leading_zero.inside
    · intro c member
      rcases List.mem_append.mp member with digit | zero
      · exact leading.inside c digit
      · exact isDigit_of_mem_replicate zero
    · exact List.append_ne_nil_of_left_ne_nil leading.nonempty _
    · refine leading.first.imp (fun zero => ?_) fun other => ?_
      · rw [single zero, zero]
        rfl
      · rwa [List.head?_append_of_ne_nil _ leading.nonempty]
  · have same : ofDigitChars (digits ++ List.replicate zeros '0' ++ ['0']) =
        ofDigitChars digits * 10 ^ zeros * 10 := by
      rw [ofDigitChars_append, ofDigitChars_append, ofDigitChars_replicate]
      simp [ofDigitChars, ofDigits, digitValue]
    rw [Numeral.value_decimal, exponentValue, same, zpow_natCast]
    push_cast
    norm_num
    ring

/-- Digits with the point among them. -/
theorem exists_numeral_among (leading : Leading digits) {place : Nat} (some : place ≠ 0)
    (short : place < digits.length) :
    ∃ t : Numeral, digits.take place ++ '.' :: digits.drop place = t.chars ∧ t.Proper ∧
      t.literal.decimal.value = ofDigitChars digits * 10 ^ (place - digits.length : Int) := by
  have nonempty : digits.drop place ≠ [] := by
    rw [ne_eq, List.drop_eq_nil_iff]
    exact Nat.not_le.mpr short
  refine ⟨⟨digits.take place, digits.drop place, none⟩, ?_, ?_, ?_⟩
  · rw [Numeral.chars, pointChars_eq nonempty, exponentChars, List.append_nil]
  · refine Numeral.proper_of_point ⟨fun c member => leading.inside c (List.mem_of_mem_take member),
      ?_, ?_⟩ nonempty fun c member => leading.inside c (List.mem_of_mem_drop member)
    · rw [ne_eq, List.take_eq_nil_iff]
      exact not_or.mpr ⟨some, leading.nonempty⟩
    · refine .inr ?_
      rw [List.head?_take, if_neg some]
      refine leading.first.resolve_left fun zero => ?_
      rw [zero, List.length_singleton] at short
      omega
  · have exponent : (0 - ((digits.drop place).length : Nat) : Int) = place - digits.length := by
      rw [List.length_drop]
      omega
    rw [Numeral.value_decimal, exponentValue, exponent, List.take_append_drop]

/-- Digits with a point are a numeral that has their value, scaled by the place of the point. -/
theorem exists_numeral_positional (leading : Leading digits) {whole : Int}
    (single : digits = ['0'] → whole ≤ 1) :
    ∃ t : Numeral, positional digits whole = t.chars ∧ t.Proper ∧
      t.literal.decimal.value = ofDigitChars digits * 10 ^ (whole - digits.length) := by
  unfold positional
  split
  next below =>
    have place : (whole : Int) = -((-whole).toNat : Nat) := by omega
    have numeral := exists_numeral_behind leading (-whole).toNat
    rwa [← place] at numeral
  next above =>
    dsimp only
    split
    next long =>
      have place : (whole - digits.length : Int) = (whole.toNat - digits.length : Nat) := by omega
      rw [place]
      refine exists_numeral_before leading fun zero => ?_
      have one := single zero
      rw [zero, List.length_singleton]
      omega
    next short =>
      have place : (whole : Int) = (whole.toNat : Nat) := by omega
      have numeral := exists_numeral_among leading (by omega : whole.toNat ≠ 0) (Nat.not_le.mp short)
      rwa [← place] at numeral

theorem mem_padZeros {width : Nat} {cs : List Char} (inside : ∀ c ∈ cs, isDigit c = true) :
    ∀ c ∈ padZeros width cs, isDigit c = true := by
  intro c member
  rcases List.mem_append.mp member with zero | digit
  · exact isDigit_of_mem_replicate zero
  · exact inside c digit

theorem ofDigitChars_padZeros (width : Nat) (cs : List Char) :
    ofDigitChars (padZeros width cs) = ofDigitChars cs := by
  rw [padZeros, ofDigitChars_append, ofDigitChars_replicate, Nat.zero_mul, Nat.zero_add]

/-- The exponent of a layout is the order of magnitude. -/
theorem exponentValue_order (width : Nat) (order : Int) :
    exponentValue (some (decide (order < 0), padZeros width (natChars order.natAbs))) = order := by
  rw [exponentValue, ofDigitChars_padZeros, ofDigitChars_natChars]
  split
  next negative =>
    have := of_decide_eq_true negative
    omega
  next positive =>
    have := of_decide_eq_false (Bool.eq_false_iff.mpr positive)
    omega

/-- Digits with an exponent are a numeral that has their value, scaled so that the first digit has the
order of magnitude. -/
theorem exists_numeral_exponential (layout : Layout) (leading : Leading digits) (order : Int) :
    ∃ t : Numeral, layout.exponential digits order = t.chars ∧ t.Proper ∧
      t.literal.decimal.value = ofDigitChars digits * 10 ^ (order + 1 - digits.length) := by
  have exponent : ∀ e, some (decide (order < 0),
      padZeros layout.exponentDigits (natChars order.natAbs)) = some e →
      e.2 ≠ [] ∧ ∀ c ∈ e.2, isDigit c = true := by
    rintro _ ⟨rfl⟩
    exact ⟨List.append_ne_nil_of_right_ne_nil _ (natChars_ne_nil _),
      mem_padZeros fun c => isDigit_of_mem_natChars⟩
  cases digits with
  | nil => exact absurd rfl leading.nonempty
  | cons first more =>
      refine ⟨⟨[first], more, some (decide (order < 0),
        padZeros layout.exponentDigits (natChars order.natAbs))⟩, ?_, ?_, ?_⟩
      · cases more <;> simp [Layout.exponential, Numeral.chars, pointChars, exponentChars]
      · refine ⟨⟨?_, List.cons_ne_nil _ _, ?_⟩, fun c member => leading.inside c (.tail _ member),
          exponent, .inr rfl⟩
        · intro c member
          exact leading.inside c (List.mem_singleton.mp member ▸ List.mem_cons_self)
        · by_cases zero : first = '0'
          · exact .inl (zero ▸ rfl)
          · exact .inr fun head => zero (Option.some.inj head)
      · have scale : order - (more.length : Nat) = order + 1 - (first :: more).length := by
          rw [List.length_cons]
          omega
        rw [Numeral.value_decimal, exponentValue_order, scale]
        rfl

/-- A layout writes a decimal as a proper numeral of the same value. -/
theorem Layout.exists_numeral (layout : Layout) (x : Decimal) :
    ∃ t : Numeral, layout.decimal x = t.chars ∧ t.Proper ∧ t.literal.decimal.value = x.value := by
  have leading := leading_natChars x.digits
  have digits := ofDigitChars_natChars x.digits
  unfold Layout.decimal
  dsimp only
  generalize same : (if x.digits = 0 then 0 else (natChars x.digits).length + x.exponent - 1 : Int) =
    order
  have value : (ofDigitChars (natChars x.digits) : ℚ) *
      10 ^ (order + 1 - (natChars x.digits).length) = x.value := by
    rw [digits, Decimal.value]
    by_cases zero : x.digits = 0
    · rw [zero, Nat.cast_zero, zero_mul, zero_mul]
    · rw [if_neg zero] at same
      congr 2
      omega
  rw [← value]
  split
  next =>
    refine exists_numeral_positional leading fun zero => ?_
    have none : x.digits = 0 := by
      rw [← digits, zero]
      rfl
    rw [if_pos none] at same
    omega
  next => exact exists_numeral_exponential layout leading order

/-- A numeral for the shortest decimal of a finite number is read as the magnitude of the number. -/
theorem signed_toFloat_literal {x : Float} (finite : x.isFinite = true) {t : Numeral}
    (value : t.literal.decimal.value = (magnitude x).shortest.value) :
    signed (isSigned x) t.literal.toFloat = x := by
  by_cases zero : (magnitude x).mantissa = 0
  · have none : t.literal.decimal.digits = 0 := by
      rw [Dyadic.shortest, if_pos zero, Decimal.value, Decimal.value, Nat.cast_zero, zero_mul] at value
      exact_mod_cast (mul_eq_zero.mp value).resolve_right (by positivity)
    have read : t.literal.toFloat = 0.0 := by
      rw [Literal.toFloat, Decimal.toFloat, if_pos none]
    rw [read]
    exact eq_signed_zero finite zero
  · have canonical := canonical_magnitude finite zero
    have admits := Dyadic.admits_shortest canonical
    rw [← value] at admits
    rw [Literal.toFloat, Decimal.toFloat_of_admits canonical admits]
    exact eq_signed_ofParts finite zero

end LessonCalc.Number
