import LessonCalc.Proofs.Number.Decimal
import LessonCalc.Proofs.Number.Exact

/-!
# The number at the front of a text

What is typed into a field counts as far as it is a number.  Here the texts of numbers are told by their
spelling, and `typed?` reads the longest one at the front of a text.

* `NumberText`: the characters of a signed literal or of a signed infinity.
* `IsLongest`, `exists_isLongest`: the longest front of a text that has a property.
* `typed?_of_isLongest`, `exists_numberText_of_typed?`: the longest number at the front is read, and nothing
  else is.
* `floatText?_shortenInfinity`: the text of a number is one as a whole too, once infinity has its short name.
* `NumberText.isNaN`: no text is read as anything but a number.
-/

namespace LessonCalc.Number

open LessonCalc.Text

/-! ## Texts of numbers -/

/-- A sign that may be left out, and whether it is a minus. -/
inductive SignText : Bool → List Char → Prop
  | none : SignText false []
  | plus : SignText false ['+']
  | minus : SignText true ['-']

/-- The characters spell a complete exponent: its letter, a sign and digits. -/
inductive ExponentText : Int → List Char → Prop
  | mk {letter negative sign digits} :
      letter = 'e' ∨ letter = 'E' → SignText negative sign →
      digits ≠ [] → (∀ c ∈ digits, isDigit c = true) →
      ExponentText (if negative then -ofDigitChars digits else ofDigitChars digits)
        (letter :: (sign ++ digits))

/-- The characters spell the literal: a plain one that an exponent may follow. -/
inductive LiteralText : Literal → List Char → Prop
  | plain {l used} : PlainText l used → LiteralText l used
  | scaled {l used e power} :
      PlainText l used → ExponentText e power → LiteralText { l with exponent := e } (used ++ power)

/-- The characters spell the number: infinity or a literal, behind a sign that may be left out. -/
inductive NumberText : Float → List Char → Prop
  | infinity {negative sign} :
      SignText negative sign → NumberText (signed negative (1.0 / 0.0)) (sign ++ infinityWord)
  | literal {negative sign l used} :
      SignText negative sign → LiteralText l used →
      NumberText (signed negative l.toFloat) (sign ++ used)

/-- The characters spell some number. -/
def IsNumberText (used : List Char) : Prop :=
  ∃ x, NumberText x used

/-! ## The longest front -/

/-- The longest front of a text that has a property. -/
structure IsLongest (P : List Char → Prop) (cs used : List Char) : Prop where
  front : used <+: cs
  holds : P used
  longest : ∀ other, other <+: cs → P other → other.length ≤ used.length

section Longest

variable {P : List Char → Prop} {cs used left : List Char}

/-- If some front has the property, one of them is the longest. -/
theorem exists_isLongest (some : ∃ used, used <+: cs ∧ P used) : ∃ used, IsLongest P cs used := by
  classical
  obtain ⟨first, front, holds⟩ := some
  have taken : ∀ {other : List Char}, other <+: cs → P other → P (cs.take other.length) :=
    fun front holds => by rwa [← List.prefix_iff_eq_take.mp front]
  let most := Nat.findGreatest (fun n => P (cs.take n)) cs.length
  have fits : most ≤ cs.length := Nat.findGreatest_le _
  have holds' : P (cs.take most) :=
    Nat.findGreatest_spec (P := fun n => P (cs.take n)) front.length_le (taken front holds)
  refine ⟨cs.take most, List.take_prefix _ _, holds', fun other front' holds' => ?_⟩
  rw [List.length_take, Nat.min_eq_left fits]
  exact Nat.le_findGreatest front'.length_le (taken front' holds')

/-- What follows the longest front does not go on with it. -/
theorem IsLongest.not_append (longest : IsLongest P (used ++ left) used) {more rest : List Char}
    (split : left = more ++ rest) (nonempty : more ≠ []) : ¬P (used ++ more) := by
  intro holds
  have front : used ++ more <+: used ++ left := by
    rw [split]
    exact List.prefix_append_right_inj used |>.mpr (List.prefix_append more rest)
  have short := longest.longest _ front holds
  have some := List.length_pos_of_ne_nil nonempty
  rw [List.length_append] at short
  omega

/-- A text with a property is its own longest front. -/
theorem isLongest_self (holds : P used) : IsLongest P used used :=
  ⟨List.prefix_rfl, holds, fun _ front _ => front.length_le⟩

end Longest

/-! ## Texts that go on -/

section Growing

variable {l : Literal} {used power : List Char} {e : Int} {c : Char}

theorem forall_mem_concat {digits : List Char} (inside : ∀ c ∈ digits, isDigit c = true)
    (digit : isDigit c = true) : ∀ d ∈ digits ++ [c], isDigit d = true := by
  intro d member
  rcases List.mem_append.mp member with before | last
  · exact inside d before
  · exact List.mem_singleton.mp last ▸ digit

/-- A plain literal goes on with a digit. -/
theorem PlainText.digit (text : PlainText l used) (digit : isDigit c = true) :
    ∃ l', PlainText l' (used ++ [c]) := by
  cases text with
  | whole nonempty digits =>
      exact ⟨_, .whole (List.append_ne_nil_of_left_ne_nil nonempty _) (forall_mem_concat digits digit)⟩
  | @point ds fs nonempty digits digits' =>
      rw [List.append_assoc, List.cons_append]
      exact ⟨_, .point (.inr (List.append_ne_nil_of_right_ne_nil _ (List.cons_ne_nil _ _))) digits
        (forall_mem_concat digits' digit)⟩

/-- A plain literal without a point goes on with one. -/
theorem PlainText.point_append (text : PlainText l used) (none : '.' ∉ used) :
    ∃ l', PlainText l' (used ++ ['.']) := by
  cases text with
  | whole nonempty digits => exact ⟨_, .point (.inl nonempty) digits (by simp)⟩
  | point _ _ _ => exact absurd (by simp) none

/-- Nothing else goes on with it. -/
theorem PlainText.cannotGrow (text : PlainText l used) {left : List Char}
    (stops : ∀ c, left.head? = some c → ¬∃ l', PlainText l' (used ++ [c])) : CannotGrow used left := by
  intro c first
  refine ⟨Bool.eq_false_of_not_eq_true fun digit => stops c first (text.digit digit), ?_⟩
  rintro none rfl
  exact stops '.' first (text.point_append none)

/-- An exponent goes on with a digit. -/
theorem ExponentText.digit (text : ExponentText e power) (digit : isDigit c = true) :
    ∃ e', ExponentText e' (power ++ [c]) := by
  cases text with
  | mk letter sign nonempty digits =>
      rw [List.cons_append, List.append_assoc]
      exact ⟨_, .mk letter sign (List.append_ne_nil_of_left_ne_nil nonempty _)
        (forall_mem_concat digits digit)⟩

/-- An exponent does not go on with a plain literal. -/
theorem ExponentText.cannotGrow (text : ExponentText e power) (used left : List Char) :
    CannotGrow used (power ++ left) := by
  intro c first
  cases text with
  | mk letters _ _ _ =>
      cases first
      rcases letters with rfl | rfl <;> exact ⟨rfl, fun _ => by decide⟩

end Growing

/-! ## Signs -/

section Signs

variable {negative : Bool} {sign rest : List Char}

/-- A sign is taken from what does not start with one. -/
theorem takeSign_append (text : SignText negative sign)
    (unsigned : ∀ c, rest.head? = some c → c ≠ '+' ∧ c ≠ '-') :
    takeSign (sign ++ rest) = (negative, rest) := by
  cases text with
  | plus => rfl
  | minus => rfl
  | none =>
      rw [List.nil_append, takeSign]
      · rintro more rfl
        exact (unsigned '-' rfl).2 rfl
      · rintro more rfl
        exact (unsigned '+' rfl).1 rfl

/-- Behind the sign that is taken stands the rest. -/
theorem exists_signText {cs : List Char} (taken : takeSign cs = (negative, rest)) :
    ∃ sign, cs = sign ++ rest ∧ SignText negative sign := by
  unfold takeSign at taken
  split at taken
  · cases taken
    exact ⟨['-'], rfl, .minus⟩
  · cases taken
    exact ⟨['+'], rfl, .plus⟩
  · cases taken
    exact ⟨[], rfl, .none⟩

end Signs

/-! ## Exponents -/

section Exponents

variable {e : Int} {cs power left : List Char}

/-- An exponent is read up to where its digits stop. -/
theorem ExponentText.exponent? (text : ExponentText e power)
    (stops : ∀ c, left.head? = some c → isDigit c = false) :
    exponent? digitRun (power ++ left) = some (e, left) := by
  cases text with
  | @mk letter negative sign digits letters signs nonempty inside =>
      have run : digitRun (digits ++ left) = (digits, left) := digitRun_eq_iff.mpr ⟨rfl, inside, stops⟩
      have taken : takeSign (sign ++ (digits ++ left)) = (negative, digits ++ left) := by
        refine takeSign_append signs fun c first => ?_
        rw [List.head?_append_of_ne_nil _ nonempty] at first
        have digit := inside c (List.mem_of_mem_head? first)
        constructor <;> rintro rfl <;> cases digit
      rw [List.cons_append, List.append_assoc]
      simp only [Number.exponent?, if_pos letters, taken, run]

/-- What is read as an exponent spells it. -/
theorem exists_exponentText (read : exponent? digitRun cs = some (e, left)) :
    ∃ power, cs = power ++ left ∧ ExponentText e power := by
  cases cs with
  | nil => cases read
  | cons letter rest =>
      simp only [exponent?] at read
      split at read
      next letters =>
        cases taken : takeSign rest with
        | mk negative rest' =>
            obtain ⟨sign, rfl, signs⟩ := exists_signText taken
            rw [taken] at read
            dsimp only at read
            split at read
            · cases read
            · rename_i digits left' some_ run
              cases read
              obtain ⟨rfl, inside, -⟩ := digitRun_eq_iff.mp run
              have nonempty : digits ≠ [] := fun none => some_ none
              refine ⟨letter :: (sign ++ digits), ?_, .mk letters signs nonempty inside⟩
              rw [List.cons_append, List.append_assoc]
      next => cases read

theorem ExponentText.ne_nil (text : ExponentText e power) : power ≠ [] := by
  cases text
  exact List.cons_ne_nil _ _

end Exponents

/-! ## Literals -/

section Literals

variable {l : Literal} {cs used left : List Char}

theorem PlainText.head (text : PlainText l used) :
    ∃ c more, used = c :: more ∧ (isDigit c = true ∨ c = '.') := by
  obtain ⟨c, more, same⟩ := List.exists_cons_of_ne_nil text.ne_nil
  exact ⟨c, more, same, text.inside c (same ▸ List.mem_cons_self)⟩

/-- A literal starts with a digit or a point. -/
theorem LiteralText.head (text : LiteralText l used) :
    ∃ c more, used = c :: more ∧ (isDigit c = true ∨ c = '.') := by
  cases text with
  | plain text => exact text.head
  | scaled text _ =>
      obtain ⟨c, more, rfl, first⟩ := text.head
      exact ⟨c, _, List.cons_append, first⟩

/-- A literal is read as far as what follows does not go on with it. -/
theorem LiteralText.literal? (text : LiteralText l used)
    (stops : ∀ more rest, left = more ++ rest → more ≠ [] → ¬∃ l', LiteralText l' (used ++ more)) :
    literal? digitRun (used ++ left) = some (l, left) := by
  have stops' : ∀ c, left.head? = some c → ¬∃ l', LiteralText l' (used ++ [c]) := by
    intro c first
    obtain ⟨rest, rfl⟩ := List.head?_eq_some_iff.mp first
    exact stops [c] rest rfl (List.cons_ne_nil _ _)
  cases text with
  | plain text =>
      have stuck : CannotGrow used left := text.cannotGrow fun c first longer =>
        stops' c first (longer.imp fun _ => .plain)
      have noPower : exponent? digitRun left = none := by
        refine Option.eq_none_iff_forall_ne_some.mpr fun ⟨e, rest⟩ read => ?_
        obtain ⟨power, split, spelled⟩ := exists_exponentText read
        exact stops power rest split spelled.ne_nil ⟨_, .scaled text spelled⟩
      have taken : mantissa? digitRun (used ++ left) = some (l, left) := text.plain? stuck
      rw [Number.literal?, taken, Option.map_some]
      dsimp only
      rw [noPower]
  | @scaled l used e power text spelled =>
      have digits : ∀ c, left.head? = some c → isDigit c = false := by
        intro c first
        refine Bool.eq_false_of_not_eq_true fun digit => ?_
        obtain ⟨e', longer⟩ := spelled.digit digit
        refine stops' c first ⟨{ l with exponent := e' }, ?_⟩
        rw [List.append_assoc]
        exact .scaled text longer
      have taken : mantissa? digitRun (used ++ (power ++ left)) = some (l, power ++ left) :=
        text.plain? (spelled.cannotGrow used left)
      rw [List.append_assoc, Number.literal?, taken, Option.map_some]
      dsimp only
      rw [spelled.exponent? digits]

/-- What is read as a literal spells it. -/
theorem exists_literalText (read : literal? digitRun cs = some (l, left)) :
    ∃ used, cs = used ++ left ∧ LiteralText l used := by
  obtain ⟨⟨plain, rest⟩, taken, same⟩ := Option.map_eq_some_iff.mp read
  obtain ⟨used, rfl, text, -⟩ := plainText_of_plain? taken
  dsimp only at same
  split at same
  next read =>
    cases same
    obtain ⟨power, rfl, spelled⟩ := exists_exponentText read
    exact ⟨used ++ power, (List.append_assoc ..).symm, .scaled text spelled⟩
  next =>
    cases same
    exact ⟨used, rfl, .plain text⟩

/-- A whole text that spells a literal is read as that literal. -/
theorem LiteralText.literal?_whole (text : LiteralText l used) :
    Number.literal? digitRun used = some (l, []) := by
  have read : Number.literal? digitRun (used ++ []) = some (l, []) :=
    text.literal? fun more rest split nonempty =>
      absurd (List.append_eq_nil_iff.mp split.symm).1 nonempty
  rwa [List.append_nil] at read

end Literals

/-! ## Typed numbers -/

section Typed

variable {x : Float} {cs used : List Char}

theorem dropWord?_append (word rest : List Char) : dropWord? word (word ++ rest) = some rest := by
  induction word with
  | nil => rfl
  | cons c word ih => rw [List.cons_append, dropWord?, if_pos rfl, ih]

theorem eq_append_of_dropWord? {word rest : List Char} (dropped : dropWord? word cs = some rest) :
    cs = word ++ rest := by
  induction word generalizing cs with
  | nil => cases dropped; rfl
  | cons w word ih =>
      cases cs with
      | nil => cases dropped
      | cons c cs =>
          rw [dropWord?] at dropped
          split at dropped
          next same => rw [same, ih dropped, List.cons_append]
          next => cases dropped

/-- A digit or a point starts neither a sign nor the word for infinity. -/
theorem ne_of_digit_or_point {c : Char} (first : isDigit c = true ∨ c = '.') :
    c ≠ '+' ∧ c ≠ '-' ∧ 'I' ≠ c := by
  rcases first with digit | rfl
  · refine ⟨?_, ?_, ?_⟩ <;> rintro rfl <;> cases digit
  · decide

/-- The sign of a literal is taken from it. -/
theorem LiteralText.takeSign {l : Literal} {negative : Bool} {sign : List Char}
    (text : LiteralText l used) (signs : SignText negative sign) (left : List Char) :
    takeSign (sign ++ (used ++ left)) = (negative, used ++ left) := by
  obtain ⟨c, more, rfl, first⟩ := text.head
  obtain ⟨plus, minus, -⟩ := ne_of_digit_or_point first
  refine takeSign_append signs fun d first => ?_
  cases first
  exact ⟨plus, minus⟩

/-- The longest number at the front of a text, after blanks, is read. -/
theorem typed?_of_isLongest (longest : IsLongest IsNumberText (dropBlanks cs) used)
    (text : NumberText x used) : typed? cs = some x := by
  obtain ⟨left, split⟩ := longest.front
  rw [← split] at longest
  unfold typed?
  rw [← split]
  cases text with
  | @infinity negative sign signs =>
      have taken : takeSign (sign ++ (infinityWord ++ left)) = (negative, infinityWord ++ left) :=
        takeSign_append signs fun c first => by cases first; decide
      rw [List.append_assoc, taken]
      dsimp only
      rw [dropWord?_append]
  | @literal negative sign l used signs text =>
      have finite : dropWord? infinityWord (used ++ left) = none := by
        obtain ⟨c, more, rfl, first⟩ := text.head
        exact if_neg (ne_of_digit_or_point first).2.2
      have read : literal? digitRun (used ++ left) = some (l, left) := by
        refine text.literal? fun more rest split nonempty => ?_
        rintro ⟨l', longer⟩
        have longer' := NumberText.literal signs longer
        rw [← List.append_assoc] at longer'
        exact longest.not_append split nonempty ⟨_, longer'⟩
      rw [List.append_assoc, text.takeSign signs left]
      dsimp only
      rw [finite]
      dsimp only
      rw [read, Option.map_some]

/-- What is read from a text is a number at its front, after blanks. -/
theorem exists_numberText_of_typed? (read : typed? cs = some x) :
    ∃ used, used <+: dropBlanks cs ∧ NumberText x used := by
  unfold typed? at read
  cases taken : takeSign (dropBlanks cs) with
  | mk negative rest =>
      obtain ⟨sign, split, signs⟩ := exists_signText taken
      rw [taken] at read
      dsimp only at read
      split at read
      next left dropped =>
        cases read
        refine ⟨_, ?_, .infinity signs⟩
        rw [split, eq_append_of_dropWord? dropped, ← List.append_assoc]
        exact List.prefix_append _ _
      next =>
        obtain ⟨⟨l, left⟩, literal, rfl⟩ := Option.map_eq_some_iff.mp read
        obtain ⟨used, rfl, text⟩ := exists_literalText literal
        refine ⟨_, ?_, .literal signs text⟩
        rw [split, ← List.append_assoc]
        exact List.prefix_append _ _

end Typed

/-! ## The characters of a literal -/

/-- A character that the text of a literal may hold, its sign included. -/
def isLiteralChar (c : Char) : Bool :=
  isDigit c || ['+', '-', '.', 'e', 'E'].contains c

section Characters

variable {l : Literal} {cs used : List Char} {c : Char}

theorem isLiteralChar_of_isDigit (digit : isDigit c = true) : isLiteralChar c = true := by
  rw [isLiteralChar, digit, Bool.true_or]

theorem toNat_lt_of_isLiteralChar (inside : isLiteralChar c = true) : c.toNat < 127 := by
  rcases Bool.or_eq_true_iff.mp inside with digit | mark
  · have high : c ≤ '9' := of_decide_eq_true (Bool.and_eq_true_iff.mp digit).2
    have code : c.toNat ≤ 57 := high
    omega
  · have listed : ['+', '-', '.', 'e', 'E'].all (·.toNat < 127) = true := by decide
    exact of_decide_eq_true (List.all_eq_true.mp listed c (List.contains_iff_mem.mp mark))

/-- A character that is no blank, no digit of another script and no underscore, and that starts no name of a
number. -/
structure IsPlainChar (c : Char) : Prop where
  visible : isBlank c = false
  ascii : asciiDigits [c] = [c]
  apart : c ≠ '_'
  unnamed : c.toLower ≠ 'i' ∧ c.toLower ≠ 'n'

theorem isPlainChar_of_isLiteralChar (inside : isLiteralChar c = true) : IsPlainChar c := by
  have each : ∀ n < 127, isLiteralChar (Char.ofNat n) = true → isBlank (Char.ofNat n) = false ∧
      asciiDigits [Char.ofNat n] = [Char.ofNat n] ∧ Char.ofNat n ≠ '_' ∧
        (Char.ofNat n).toLower ≠ 'i' ∧ (Char.ofNat n).toLower ≠ 'n' := by
    decide +kernel
  have same : Char.ofNat c.toNat = c := Char.ofNat_toNat c
  rw [← same] at inside ⊢
  obtain ⟨visible, ascii, apart, unnamed⟩ :=
    each c.toNat (toNat_lt_of_isLiteralChar (same ▸ inside)) inside
  exact ⟨visible, ascii, apart, unnamed⟩

theorem SignText.inside {negative : Bool} (text : SignText negative used) :
    ∀ c ∈ used, isLiteralChar c = true := by
  cases text <;> exact List.all_eq_true.mp (by decide)

theorem ExponentText.inside {e : Int} (text : ExponentText e used) :
    ∀ c ∈ used, isLiteralChar c = true := by
  cases text with
  | mk letters signs _ digits =>
      refine List.forall_mem_cons.mpr ⟨?_, List.forall_mem_append.mpr ⟨signs.inside, fun c member =>
        isLiteralChar_of_isDigit (digits c member)⟩⟩
      rcases letters with rfl | rfl <;> decide

theorem PlainText.isLiteralChar (text : PlainText l used) : ∀ c ∈ used, isLiteralChar c = true := by
  intro c member
  rcases text.inside c member with digit | rfl
  · exact isLiteralChar_of_isDigit digit
  · decide

theorem LiteralText.inside (text : LiteralText l used) : ∀ c ∈ used, isLiteralChar c = true := by
  cases text with
  | plain text => exact text.isLiteralChar
  | scaled text power => exact List.forall_mem_append.mpr ⟨text.isLiteralChar, power.inside⟩

/-- No blank is dropped from characters of a literal, no space is trimmed, and their digits are ASCII
digits. -/
theorem dropBlanks_of_inside (inside : ∀ c ∈ cs, isLiteralChar c = true) : dropBlanks cs = cs := by
  cases cs with
  | nil => rfl
  | cons c rest =>
      have plain := isPlainChar_of_isLiteralChar (inside c List.mem_cons_self)
      exact List.dropWhile_cons_of_neg (Bool.eq_false_iff.mp plain.visible)

theorem trimSpaces_of_inside (inside : ∀ c ∈ cs, isLiteralChar c = true) : trimSpaces cs = cs := by
  have kept : ∀ ds : List Char, (∀ c ∈ ds, isLiteralChar c = true) → ds.dropWhile isSpace = ds := by
    intro ds inside
    cases ds with
    | nil => rfl
    | cons c rest =>
        have plain := isPlainChar_of_isLiteralChar (inside c List.mem_cons_self)
        exact List.dropWhile_cons_of_neg (Bool.eq_false_iff.mp (Bool.or_eq_false_iff.mp plain.visible).1)
  have inside' : ∀ c ∈ cs.reverse, isLiteralChar c = true := fun c member =>
    inside c (List.mem_reverse.mp member)
  rw [trimSpaces, trimBoth, kept cs inside, kept cs.reverse inside', List.reverse_reverse]

theorem asciiDigits_of_inside (inside : ∀ c ∈ cs, isLiteralChar c = true) : asciiDigits cs = cs := by
  induction cs with
  | nil => rfl
  | cons c rest ih =>
      obtain ⟨here, inside⟩ := List.forall_mem_cons.mp inside
      have step : asciiDigits (c :: rest) = asciiDigits [c] ++ asciiDigits rest := rfl
      rw [step, (isPlainChar_of_isLiteralChar here).ascii, ih inside, List.singleton_append]

/-- A literal is not the name of a number. -/
theorem LiteralText.namedNumber? (text : LiteralText l used) : namedNumber? used = none := by
  obtain ⟨c, more, rfl, -⟩ := text.head
  obtain ⟨notI, notN⟩ := (isPlainChar_of_isLiteralChar (text.inside c List.mem_cons_self)).unnamed
  have differ : ∀ {d : Char} {word : List Char}, d = 'i' ∨ d = 'n' →
      String.ofList (lowerAscii (c :: more)) ≠ String.ofList (d :: word) := by
    intro d word first same
    have lower : c.toLower = d := (List.cons.inj (String.ofList_injective same)).1
    rcases first with rfl | rfl
    · exact notI lower
    · exact notN lower
  unfold Number.namedNumber?
  split
  next same => exact absurd same (differ (.inl rfl))
  next same => exact absurd same (differ (.inl rfl))
  next same => exact absurd same (differ (.inr rfl))
  next => rfl

end Characters

/-! ## Grouped digits -/

section Grouped

variable {cs : List Char}

/-- Without underscores no digits are grouped. -/
theorem groupedDigitRun_eq (none : '_' ∉ cs) : groupedDigitRun cs = digitRun cs := by
  induction cs with
  | nil => rfl
  | cons c rest ih =>
      have none' : '_' ∉ rest := fun member => none (List.mem_cons_of_mem c member)
      unfold groupedDigitRun
      split
      next => contradiction
      next same =>
        cases same
        exact absurd (by simp) none
      next same =>
        cases same
        rw [ih none']
        cases digit : isDigit c <;> simp [digitRun, digit]

theorem mantissa?_grouped (none : '_' ∉ cs) : mantissa? groupedDigitRun cs = mantissa? digitRun cs := by
  have behind : ∀ {ds rest : List Char}, digitRun cs = (ds, '.' :: rest) →
      groupedDigitRun rest = digitRun rest := by
    intro ds rest ran
    obtain ⟨rfl, -, -⟩ := digitRun_eq_iff.mp ran
    exact groupedDigitRun_eq fun member => none (by simp [member])
  unfold mantissa?
  rw [groupedDigitRun_eq none]
  split
  next ran => rw [behind ran]
  next => rfl
  next ran => rw [behind ran]
  next => rfl

theorem exponent?_grouped (none : '_' ∉ cs) : exponent? groupedDigitRun cs = exponent? digitRun cs := by
  cases cs with
  | nil => rfl
  | cons c rest =>
      have behind : groupedDigitRun (takeSign rest).2 = digitRun (takeSign rest).2 := by
        cases taken : takeSign rest with
        | mk negative left =>
            obtain ⟨sign, rfl, -⟩ := exists_signText taken
            exact groupedDigitRun_eq fun member => none (by simp [member])
      simp only [exponent?, behind]

/-- So a literal is read the same way whether digits may be grouped or not. -/
theorem literal?_grouped (none : '_' ∉ cs) : literal? groupedDigitRun cs = literal? digitRun cs := by
  unfold literal?
  rw [mantissa?_grouped none]
  cases taken : mantissa? digitRun cs with
  | none => rfl
  | some found =>
      obtain ⟨l, left⟩ := found
      obtain ⟨used, rfl, -⟩ := plainText_of_plain? taken
      have none' : '_' ∉ left := fun member => none (List.mem_append_right used member)
      simp only [Option.map_some, exponent?_grouped none']

end Grouped

/-! ## Whole texts -/

/-- A text with each word for infinity in its short form. -/
def shortenInfinity : List Char → List Char
  | 'I' :: 'n' :: 'f' :: 'i' :: 'n' :: 'i' :: 't' :: 'y' :: rest => 'i' :: 'n' :: 'f' :: shortenInfinity rest
  | c :: rest => c :: shortenInfinity rest
  | [] => []

section Whole

variable {x : Float} {used : List Char}

theorem shortenInfinity_of_not_mem {cs : List Char} (none : 'I' ∉ cs) : shortenInfinity cs = cs := by
  induction cs with
  | nil => rfl
  | cons c rest ih =>
      have none' : 'I' ∉ rest := fun member => none (List.mem_cons_of_mem c member)
      rw [shortenInfinity, ih none']
      rintro rest rfl
      exact absurd List.mem_cons_self none

/-- The whole text of a number is read as that number. -/
theorem NumberText.typed? (text : NumberText x used) : typed? used = some x := by
  cases text with
  | infinity signs => cases signs <;> rfl
  | literal signs text =>
      have inside := List.forall_mem_append.mpr ⟨signs.inside, text.inside⟩
      refine typed?_of_isLongest ?_ (.literal signs text)
      rw [dropBlanks_of_inside inside]
      exact isLongest_self ⟨_, .literal signs text⟩

/-- The text of a number is one as a whole, once infinity has its short name. -/
theorem floatText?_shortenInfinity (text : NumberText x used) :
    floatText? (String.ofList (shortenInfinity used)) = some x := by
  cases text with
  | infinity signs => cases signs <;> rfl
  | @literal negative sign l used signs text =>
      have inside := List.forall_mem_append.mpr ⟨signs.inside, text.inside⟩
      have finite : 'I' ∉ sign ++ used := fun member =>
        (isPlainChar_of_isLiteralChar (inside 'I' member)).unnamed.1 rfl
      have apart : '_' ∉ used := fun member =>
        (isPlainChar_of_isLiteralChar (text.inside '_' member)).apart rfl
      have taken := text.takeSign signs []
      rw [List.append_nil] at taken
      rw [floatText?, shortenInfinity_of_not_mem finite, String.toList_ofList, trimSpaces_of_inside inside,
        asciiDigits_of_inside inside, wholeFloat?, taken]
      dsimp only
      rw [text.namedNumber?]
      dsimp only
      rw [literal?_grouped apart, text.literal?_whole]

/-- No text is read as anything but a number. -/
theorem NumberText.isNaN (text : NumberText x used) : x.isNaN = false := by
  cases text with
  | infinity signs => cases signs <;> rfl
  | literal => exact isNaN_signed _ (Decimal.isNaN_toFloat _)

end Whole

end LessonCalc.Number
