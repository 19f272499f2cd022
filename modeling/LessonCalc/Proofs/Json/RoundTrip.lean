import LessonCalc.Proofs.Data.Entries
import LessonCalc.Proofs.Json.Numbers
import LessonCalc.Proofs.Json.Places
import LessonCalc.Proofs.Json.Strings

/-!
# Reading what was written

A value that was written on one line is read again, whatever gaps follow its commas and colons.

* `Sound`: what a value must not hold if it is to be read again: a number that is not finite, half of a
  character, a key that an object has twice.
* `Reads`: a written value is read again, whatever follows it.
* `reads_of_sound`: every sound value without an integer that is too long is read again.
* `readText_line_append`: so the line of a value that is not nested too deeply is read as the value.
-/

namespace LessonCalc.Json

open LessonCalc.Text LessonCalc.Number

/-- A value that can be told by its text: a number is finite, a text holds no half of a character, and
an object has each key once. -/
def Sound : Json → Prop
  | float x => x.isFinite = true
  | string s => s.isTorn = false
  | object entries => (Entries.keys entries).Nodup ∧ ∀ k ∈ Entries.keys entries, k.isTorn = false
  | _ => True

/-! ## First characters -/

/-- The text starts as a value does: with no white space, closing bracket or byte order mark. -/
def StartsValue (cs : List Char) : Prop :=
  ∃ c more, cs = c :: more ∧ isGap c = false ∧ c ≠ ']' ∧ c ≠ '\uFEFF'

theorem StartsValue.append {cs : List Char} (starts : StartsValue cs) (rest : List Char) :
    StartsValue (cs ++ rest) := by
  obtain ⟨c, more, rfl, first⟩ := starts
  exact ⟨c, more ++ rest, rfl, first⟩

/-- A gap is skipped up to a text that starts with no white space. -/
theorem skipGap_append {gap cs : List Char} (gaps : ∀ c ∈ gap, isGap c = true)
    (first : ∀ c, cs.head? = some c → isGap c = false) : skipGap (gap ++ cs) = cs :=
  dropWhile_run gaps first

theorem skipGap_of_first {cs : List Char} (first : ∀ c, cs.head? = some c → isGap c = false) :
    skipGap cs = cs :=
  skipGap_append (fun _ none => absurd none List.not_mem_nil) first

theorem StartsValue.first {cs : List Char} (starts : StartsValue cs) :
    ∀ c, cs.head? = some c → isGap c = false := by
  obtain ⟨c, more, rfl, notGap, _⟩ := starts
  exact fun d same => Option.some.inj same ▸ notGap

/-- The first character of a number is a digit or a minus. -/
def StartsNumber (cs : List Char) : Prop :=
  ∃ c more, cs = c :: more ∧ (isDigit c = true ∨ (c = '-' ∧ ∃ d rest, more = d :: rest ∧
    isDigit d = true))

theorem startsNumber_of_digits (negative : Bool) {cs : List Char} (nonempty : cs ≠ [])
    (inside : ∀ c ∈ cs, isDigit c = true) (rest : List Char) :
    StartsNumber (signChars negative ++ cs ++ rest) := by
  cases cs with
  | nil => exact absurd rfl nonempty
  | cons d cs =>
      have digit := inside d List.mem_cons_self
      cases negative with
      | true => exact ⟨'-', d :: cs ++ rest, rfl, .inr ⟨rfl, d, cs ++ rest, rfl, digit⟩⟩
      | false => exact ⟨d, cs ++ rest, rfl, .inl digit⟩

theorem startsNumber_intChars (n : Int) (rest : List Char) : StartsNumber (intChars n ++ rest) := by
  have leading := leading_natChars n.natAbs
  rw [intChars_eq]
  exact startsNumber_of_digits _ leading.nonempty leading.inside rest

theorem startsNumber_floatChars {x : Float} (finite : x.isFinite = true) (rest : List Char) :
    StartsNumber (floatChars x ++ rest) := by
  obtain ⟨t, text, proper, _⟩ := Layout.plain.exists_numeral (magnitude x).shortest
  rw [floatChars_of_isFinite finite, text, Numeral.chars, ← List.append_assoc, List.append_assoc]
  exact startsNumber_of_digits _ proper.whole.nonempty proper.whole.inside _

theorem ne_of_isDigit {c d : Char} (digit : isDigit c = true) (other : isDigit d = false) : c ≠ d :=
  fun same => Bool.false_ne_true (other.symm.trans (same ▸ digit))

theorem StartsNumber.startsValue {cs : List Char} (starts : StartsNumber cs) : StartsValue cs := by
  obtain ⟨c, more, rfl, digit | ⟨rfl, _⟩⟩ := starts
  · refine ⟨c, more, rfl, ?_, ne_of_isDigit digit rfl, ne_of_isDigit digit rfl⟩
    simp [isGap, ne_of_isDigit digit (rfl : isDigit ' ' = false),
      ne_of_isDigit digit (rfl : isDigit '\t' = false),
      ne_of_isDigit digit (rfl : isDigit '\n' = false),
      ne_of_isDigit digit (rfl : isDigit '\r' = false)]
  · exact ⟨'-', more, rfl, rfl, by decide⟩

theorem dropWord?_of_ne {w c : Char} {word more : List Char} (differ : w ≠ c) :
    dropWord? (w :: word) (c :: more) = none :=
  if_neg differ

/-- A word that is not at the front of a text is not read. -/
theorem readWord?_eq_none {cs : List Char}
    (absent : ∀ word ∈ words, dropWord? word.1 cs = none) : readWord? cs = none := by
  rw [readWord?, List.findSome?_eq_none_iff]
  intro (word, v) member
  exact congrArg (Option.map _) (absent _ member)

/-- What starts as a number is no word. -/
theorem StartsNumber.readWord? {cs : List Char} (starts : StartsNumber cs) : readWord? cs = none := by
  have letters : ∀ word ∈ words, ∃ c more, word.1 = c :: more ∧
      (isDigit c = false ∧ c ≠ '-' ∨ word.1 = "-Infinity".toList) := by
    intro word member
    simp only [words, List.mem_cons, List.not_mem_nil, or_false] at member
    rcases member with rfl | rfl | rfl | rfl | rfl | rfl <;>
      first | exact ⟨_, _, rfl, .inl ⟨rfl, by decide⟩⟩ | exact ⟨_, _, rfl, .inr rfl⟩
  refine readWord?_eq_none fun word member => ?_
  obtain ⟨w, tail, spelled, letter⟩ := letters word member
  obtain ⟨c, more, rfl, first | ⟨rfl, d, rest, rfl, second⟩⟩ := starts
  · rw [spelled]
    rcases letter with ⟨other, _⟩ | minus
    · exact dropWord?_of_ne (ne_of_isDigit first other).symm
    · rw [← spelled, minus]
      exact dropWord?_of_ne (ne_of_isDigit first rfl).symm
  · rcases letter with ⟨_, other⟩ | minus
    · rw [spelled]
      exact dropWord?_of_ne other
    · rw [minus]
      have tail : dropWord? ('I' :: "nfinity".toList) (d :: rest) = none :=
        dropWord?_of_ne (ne_of_isDigit second rfl).symm
      exact tail

/-! ## Steps of the reader -/

section Steps

variable {fuel depth : Nat} {cs rest left : List Char}

theorem readValue_quote : readValue (fuel + 1) depth ('"' :: cs) =
    (readStringAt ('"' :: cs)).bind fun (s, rest) => .ok (.string s, rest) :=
  rfl

theorem readValue_bracket : readValue (fuel + 1) (depth + 1) ('[' :: cs) =
    match skipGap cs with
    | ']' :: left => .ok (.array [], left)
    | rest => (readItems fuel depth rest).bind fun (items, left) => .ok (.array items, left) :=
  rfl

theorem readValue_brace : readValue (fuel + 1) (depth + 1) ('\x7b' :: '"' :: cs) =
    (readEntries fuel depth ('"' :: cs)).bind fun (entries, left) =>
      .ok (.object (Entries.ofList entries), left) :=
  rfl

theorem readValue_string {s : RawText} (read : readStringAt ('"' :: cs) = .ok (s, rest)) :
    readValue (fuel + 1) depth ('"' :: cs) = .ok (.string s, rest) := by
  rw [readValue_quote, read]
  rfl

/-- What starts with no quote, bracket or brace is a word or a number. -/
theorem readValue_scalar {c : Char} (quote : c ≠ '"') (bracket : c ≠ '[') (brace : c ≠ '\x7b') :
    readValue (fuel + 1) depth (c :: cs) =
      match readWord? (c :: cs) with
      | some found => .ok found
      | none => readNumber (c :: cs) := by
  rw [readValue.eq_def]
  dsimp only
  split
  next same => exact absurd (List.cons.inj same).1 quote
  next same => exact absurd (List.cons.inj same).1 bracket
  next same => exact absurd (List.cons.inj same).1 brace
  next => rfl

theorem readValue_emptyArray : readValue (fuel + 1) (depth + 1) ('[' :: ']' :: rest) =
    .ok (.array [], rest) :=
  rfl

theorem readValue_emptyObject : readValue (fuel + 1) (depth + 1) ('\x7b' :: '\x7d' :: rest) =
    .ok (.object [], rest) :=
  rfl

theorem readValue_array {items : List Json} (starts : StartsValue cs)
    (read : readItems fuel depth cs = .ok (items, rest)) :
    readValue (fuel + 1) (depth + 1) ('[' :: cs) = .ok (.array items, rest) := by
  rw [readValue_bracket, skipGap_of_first starts.first]
  obtain ⟨c, more, rfl, _, bracket, _⟩ := starts
  split
  next same => exact absurd (List.cons.inj same).1 bracket
  next =>
    rw [read]
    rfl

theorem readValue_object {entries : List (RawText × Json)}
    (read : readEntries fuel depth ('"' :: cs) = .ok (entries, rest)) :
    readValue (fuel + 1) (depth + 1) ('\x7b' :: '"' :: cs) =
      .ok (.object (Entries.ofList entries), rest) := by
  rw [readValue_brace, read]
  rfl

/-- The items of an array are read one after the other. -/
theorem readItems_succ : readItems (fuel + 1) depth cs =
    (readValue fuel depth cs).bind fun (v, rest) =>
      match skipGap rest with
      | ']' :: left => .ok ([v], left)
      | ',' :: more => (readItems fuel depth (skipGap more)).bind fun (vs, left) => .ok (v :: vs, left)
      | rest => faultAt .expectingComma rest :=
  rfl

theorem readItems_last {v : Json} (read : readValue fuel depth cs = .ok (v, ']' :: rest)) :
    readItems (fuel + 1) depth cs = .ok ([v], rest) := by
  rw [readItems_succ, read]
  rfl

theorem readItems_next {v : Json} {vs : List Json}
    (read : readValue fuel depth cs = .ok (v, ',' :: left))
    (more : readItems fuel depth (skipGap left) = .ok (vs, rest)) :
    readItems (fuel + 1) depth cs = .ok (v :: vs, rest) := by
  have comma : skipGap (',' :: left) = ',' :: left := rfl
  rw [readItems_succ, read]
  simp only [Except.bind, comma, more]

/-- The entries of an object are read one after the other. -/
theorem readEntries_succ : readEntries (fuel + 1) depth ('"' :: cs) =
    (readStringAt ('"' :: cs)).bind fun (k, rest) =>
      match skipGap rest with
      | ':' :: more =>
        (readValue fuel depth (skipGap more)).bind fun (v, rest) =>
          match skipGap rest with
          | '\x7d' :: left => .ok ([(k, v)], left)
          | ',' :: more =>
            (readEntries fuel depth (skipGap more)).bind fun (es, left) => .ok ((k, v) :: es, left)
          | rest => faultAt .expectingComma rest
      | rest => faultAt .expectingColon rest :=
  rfl

theorem readEntries_last {k : RawText} {v : Json} {after : List Char}
    (key : readStringAt ('"' :: cs) = .ok (k, ':' :: after))
    (value : readValue fuel depth (skipGap after) = .ok (v, '\x7d' :: rest)) :
    readEntries (fuel + 1) depth ('"' :: cs) = .ok ([(k, v)], rest) := by
  have colon : skipGap (':' :: after) = ':' :: after := rfl
  have brace : skipGap ('\x7d' :: rest) = '\x7d' :: rest := rfl
  rw [readEntries_succ, key]
  simp only [Except.bind, colon, value, brace]

theorem readEntries_next {k : RawText} {v : Json} {after : List Char} {es : List (RawText × Json)}
    (key : readStringAt ('"' :: cs) = .ok (k, ':' :: after))
    (value : readValue fuel depth (skipGap after) = .ok (v, ',' :: left))
    (more : readEntries fuel depth (skipGap left) = .ok (es, rest)) :
    readEntries (fuel + 1) depth ('"' :: cs) = .ok ((k, v) :: es, rest) := by
  have colon : skipGap (':' :: after) = ':' :: after := rfl
  have comma : skipGap (',' :: left) = ',' :: left := rfl
  rw [readEntries_succ, key]
  simp only [Except.bind, colon, value, comma, more]

end Steps

/-- What starts as a number is read as one. -/
theorem StartsNumber.readValue {cs : List Char} (starts : StartsNumber cs) (fuel depth : Nat) :
    readValue (fuel + 1) depth cs = readNumber cs := by
  have word := starts.readWord?
  obtain ⟨c, more, rfl, first⟩ := starts
  have other {d : Char} (plain : isDigit d = false) (notMinus : '-' ≠ d) : c ≠ d := by
    rcases first with digit | ⟨rfl, _⟩
    · exact ne_of_isDigit digit plain
    · exact notMinus
  rw [readValue_scalar (other rfl (by decide)) (other rfl (by decide)) (other rfl (by decide)), word]

/-! ## Values -/

section Values

variable (gap gap' : List Char)

/-- The text of a value with the given gaps behind commas and colons. -/
def gapChars (v : Json) : List Char :=
  lineChars (',' :: gap) (':' :: gap') v

/-- A written value is read again, whatever follows it that does not go on with a number. -/
def Reads (v : Json) : Prop :=
  ∀ fuel depth rest, (gapChars gap gap' v).length < fuel → levels v ≤ depth → EndsNumber rest →
    readValue fuel depth (gapChars gap gap' v ++ rest) = .ok (v, rest)

/-- For a scalar the depth does not matter, and any fuel is enough. -/
theorem reads_of_scalar {v : Json} (read : ∀ fuel depth rest, EndsNumber rest →
    readValue (fuel + 1) depth (gapChars gap gap' v ++ rest) = .ok (v, rest)) :
    Reads gap gap' v := by
  intro fuel depth rest enough _ ends
  obtain ⟨fuel, rfl⟩ := Nat.exists_eq_add_one_of_ne_zero (Nat.ne_zero_of_lt enough)
  exact read fuel depth rest ends

theorem reads_null : Reads gap gap' .null := by
  refine reads_of_scalar gap gap' fun fuel depth rest _ => ?_
  exact readValue_scalar (by decide) (by decide) (by decide)

theorem reads_bool (b : Bool) : Reads gap gap' (.bool b) := by
  refine reads_of_scalar gap gap' fun fuel depth rest _ => ?_
  cases b <;> exact readValue_scalar (by decide) (by decide) (by decide)

theorem reads_int {n : Int} (short : isOversized n = false) : Reads gap gap' (.int n) := by
  refine reads_of_scalar gap gap' fun fuel depth rest ends => ?_
  have text : gapChars gap gap' (.int n) = intChars n := rfl
  rw [text, (startsNumber_intChars n rest).readValue, readNumber_intChars short ends]

theorem reads_float {x : Float} (finite : x.isFinite = true) : Reads gap gap' (.float x) := by
  refine reads_of_scalar gap gap' fun fuel depth rest ends => ?_
  have text : gapChars gap gap' (.float x) = floatChars x := rfl
  rw [text, (startsNumber_floatChars finite rest).readValue, readNumber_floatChars finite ends]

theorem reads_string {s : RawText} (whole : s.isTorn = false) : Reads gap gap' (.string s) := by
  refine reads_of_scalar gap gap' fun fuel depth rest _ => ?_
  have read := readStringAt_stringChars whole rest
  have text : gapChars gap gap' (.string s) = stringChars s := rfl
  rw [text]
  rw [stringChars_append] at read ⊢
  exact readValue_string read

/-- What follows an item or an entry does not go on with a number. -/
theorem endsNumber_cons {c : Char} (rest : List Char) (mark : c = ',' ∨ c = ']' ∨ c = '\x7d') :
    EndsNumber (c :: rest) := by
  intro d first
  cases first
  rcases mark with rfl | rfl | rfl <;> decide

/-- A value is written with no white space in front. -/
theorem startsValue_gapChars {v : Json} (sound : Sound v) : StartsValue (gapChars gap gap' v) := by
  unfold gapChars
  cases v with
  | null => exact ⟨'n', _, rfl, rfl, by decide⟩
  | bool b =>
      cases b
      · exact ⟨'f', _, rfl, rfl, by decide⟩
      · exact ⟨'t', _, rfl, rfl, by decide⟩
  | int n =>
      have starts := (startsNumber_intChars n []).startsValue
      rwa [List.append_nil] at starts
  | float x =>
      have starts := (startsNumber_floatChars sound []).startsValue
      rwa [List.append_nil] at starts
  | string s => exact ⟨'"', _, rfl, rfl, by decide⟩
  | array items =>
      cases items with
      | nil => exact ⟨'[', _, rfl, rfl, by decide⟩
      | cons v vs => exact ⟨'[', _, rfl, rfl, by decide⟩
  | object entries =>
      cases entries with
      | nil => exact ⟨'\x7b', _, rfl, rfl, by decide⟩
      | cons e es => exact ⟨'\x7b', _, rfl, rfl, by decide⟩

variable {gap gap'}

/-- Items that are read one by one are read in a row. -/
theorem readItems_itemsChars (gaps : ∀ c ∈ gap, isGap c = true) {v : Json} {vs : List Json}
    (first : Reads gap gap' v) (others : ∀ w ∈ vs, Reads gap gap' w ∧ Sound w) {fuel depth : Nat}
    (enough : (gapChars gap gap' v).length + (itemsChars (',' :: gap) (':' :: gap') vs).length + 1 < fuel)
    (shallow : levels v ≤ depth) (shallow' : itemsLevels vs ≤ depth) (rest : List Char) :
    readItems fuel depth
        (gapChars gap gap' v ++ (itemsChars (',' :: gap) (':' :: gap') vs ++ ']' :: rest)) =
      .ok (v :: vs, rest) := by
  induction vs generalizing v fuel with
  | nil =>
      obtain ⟨fuel, rfl⟩ := Nat.exists_eq_add_one_of_ne_zero (Nat.ne_zero_of_lt enough)
      refine readItems_last (first fuel depth _ (by omega) shallow ?_)
      exact endsNumber_cons _ (.inr (.inl rfl))
  | cons w ws ih =>
      obtain ⟨fuel, rfl⟩ := Nat.exists_eq_add_one_of_ne_zero (Nat.ne_zero_of_lt enough)
      obtain ⟨second, sound⟩ := others w List.mem_cons_self
      have text : itemsChars (',' :: gap) (':' :: gap') (w :: ws) ++ ']' :: rest =
          ',' :: (gap ++ (gapChars gap gap' w ++
            (itemsChars (',' :: gap) (':' :: gap') ws ++ ']' :: rest))) := by
        simp only [gapChars, itemsChars_cons, List.cons_append, List.append_assoc]
      have length : (itemsChars (',' :: gap) (':' :: gap') (w :: ws)).length =
          1 + gap.length + (gapChars gap gap' w).length +
            (itemsChars (',' :: gap) (':' :: gap') ws).length := by
        simp only [gapChars, itemsChars_cons, List.cons_append, List.length_cons, List.length_append]
        omega
      rw [itemsLevels_cons] at shallow'
      rw [text]
      refine readItems_next (first fuel depth _ (by omega) shallow (endsNumber_cons _ (.inl rfl))) ?_
      rw [skipGap_append gaps ((startsValue_gapChars gap gap' sound).append _).first]
      exact ih second (fun x member => others x (.tail _ member)) (by omega) (by omega) (by omega)

/-- An array of items that are read is read. -/
theorem reads_array (gaps : ∀ c ∈ gap, isGap c = true) {items : List Json}
    (each : ∀ w ∈ items, Reads gap gap' w ∧ Sound w) : Reads gap gap' (.array items) := by
  intro fuel depth rest enough shallow ends
  obtain ⟨fuel, rfl⟩ := Nat.exists_eq_add_one_of_ne_zero (Nat.ne_zero_of_lt enough)
  rw [levels_array] at shallow
  obtain ⟨depth, rfl⟩ := Nat.exists_eq_add_one_of_ne_zero (Nat.ne_zero_of_lt shallow)
  cases items with
  | nil =>
      exact readValue_emptyArray
  | cons v vs =>
      obtain ⟨first, sound⟩ := each v List.mem_cons_self
      have text : gapChars gap gap' (.array (v :: vs)) ++ rest =
          '[' :: (gapChars gap gap' v ++
            (itemsChars (',' :: gap) (':' :: gap') vs ++ ']' :: rest)) := by
        simp only [gapChars, lineChars_array, List.cons_append, List.append_assoc, List.nil_append]
      have length : (gapChars gap gap' (.array (v :: vs))).length =
          (gapChars gap gap' v).length + (itemsChars (',' :: gap) (':' :: gap') vs).length + 2 := by
        simp only [gapChars, lineChars_array, List.length_cons, List.length_append, List.length_nil]
        omega
      rw [itemsLevels_cons] at shallow
      rw [text]
      refine readValue_array ((startsValue_gapChars gap gap' sound).append _) ?_
      exact readItems_itemsChars gaps first (fun w member => each w (.tail _ member)) (by omega)
        (by omega) (by omega) rest

/-- The value of an entry is read behind the gap that follows its colon. -/
theorem Reads.behindColon (gaps' : ∀ c ∈ gap', isGap c = true) {v : Json} (read : Reads gap gap' v)
    (sound : Sound v) {fuel depth : Nat} (enough : (gapChars gap gap' v).length < fuel)
    (shallow : levels v ≤ depth) {more : List Char} (ends : EndsNumber more) :
    readValue fuel depth (skipGap (gap' ++ (gapChars gap gap' v ++ more))) = .ok (v, more) := by
  rw [skipGap_append gaps' ((startsValue_gapChars gap gap' sound).append more).first]
  exact read fuel depth more enough shallow ends

/-- The last entry of an object. -/
theorem Reads.lastEntry (gaps' : ∀ c ∈ gap', isGap c = true) {k : RawText} {v : Json}
    (key : k.isTorn = false) (read : Reads gap gap' v) (sound : Sound v) {fuel depth : Nat}
    (enough : (gapChars gap gap' v).length < fuel) (shallow : levels v ≤ depth) (rest : List Char) :
    readEntries (fuel + 1) depth
        (stringChars k ++ (':' :: (gap' ++ (gapChars gap gap' v ++ '\x7d' :: rest)))) =
      .ok ([(k, v)], rest) := by
  have key' := readStringAt_stringChars key (':' :: (gap' ++ (gapChars gap gap' v ++ '\x7d' :: rest)))
  rw [stringChars_append] at key' ⊢
  exact readEntries_last key'
    (read.behindColon gaps' sound enough shallow (endsNumber_cons rest (.inr (.inr rfl))))

/-- An entry of an object in front of others. -/
theorem Reads.nextEntry (gaps' : ∀ c ∈ gap', isGap c = true) {k : RawText} {v : Json}
    (key : k.isTorn = false) (read : Reads gap gap' v) (sound : Sound v) {fuel depth : Nat}
    (enough : (gapChars gap gap' v).length < fuel) (shallow : levels v ≤ depth)
    {left rest : List Char} {es : List (RawText × Json)}
    (more : readEntries fuel depth (skipGap left) = .ok (es, rest)) :
    readEntries (fuel + 1) depth
        (stringChars k ++ (':' :: (gap' ++ (gapChars gap gap' v ++ ',' :: left)))) =
      .ok ((k, v) :: es, rest) := by
  have key' := readStringAt_stringChars key (':' :: (gap' ++ (gapChars gap gap' v ++ ',' :: left)))
  rw [stringChars_append] at key' ⊢
  exact readEntries_next key'
    (read.behindColon gaps' sound enough shallow (endsNumber_cons left (.inl rfl))) more

/-- A quoted text has no white space in front. -/
theorem skipGap_stringChars (gaps : ∀ c ∈ gap, isGap c = true) (s : RawText) (rest : List Char) :
    skipGap (gap ++ (stringChars s ++ rest)) = stringChars s ++ rest := by
  rw [stringChars_append]
  refine skipGap_append gaps fun c first => ?_
  cases first
  rfl

/-- Entries of which the values are read one by one are read in a row. -/
theorem readEntries_entriesChars (gaps : ∀ c ∈ gap, isGap c = true)
    (gaps' : ∀ c ∈ gap', isGap c = true) {k : RawText} {v : Json} {es : List (RawText × Json)}
    (key : k.isTorn = false) (first : Reads gap gap' v ∧ Sound v)
    (others : ∀ e ∈ es, e.1.isTorn = false ∧ Reads gap gap' e.2 ∧ Sound e.2) {fuel depth : Nat}
    (enough : (stringChars k).length + (gapChars gap gap' v).length +
      (entriesChars (',' :: gap) (':' :: gap') es).length + 1 < fuel)
    (shallow : levels v ≤ depth) (shallow' : entriesLevels es ≤ depth) (rest : List Char) :
    readEntries fuel depth (stringChars k ++ (':' :: (gap' ++ (gapChars gap gap' v ++
        (entriesChars (',' :: gap) (':' :: gap') es ++ '\x7d' :: rest))))) =
      .ok ((k, v) :: es, rest) := by
  obtain ⟨read, sound⟩ := first
  induction es generalizing k v fuel with
  | nil =>
      obtain ⟨fuel, rfl⟩ := Nat.exists_eq_add_one_of_ne_zero (Nat.ne_zero_of_lt enough)
      exact read.lastEntry gaps' key sound (by omega) shallow rest
  | cons e es ih =>
      obtain ⟨fuel, rfl⟩ := Nat.exists_eq_add_one_of_ne_zero (Nat.ne_zero_of_lt enough)
      obtain ⟨k', w⟩ := e
      obtain ⟨key', read', sound'⟩ : k'.isTorn = false ∧ Reads gap gap' w ∧ Sound w :=
        others _ List.mem_cons_self
      have text : entriesChars (',' :: gap) (':' :: gap') ((k', w) :: es) ++ '\x7d' :: rest =
          ',' :: (gap ++ (stringChars k' ++ (':' :: (gap' ++ (gapChars gap gap' w ++
            (entriesChars (',' :: gap) (':' :: gap') es ++ '\x7d' :: rest)))))) := by
        simp only [gapChars, entriesChars_cons, List.cons_append, List.append_assoc]
      have length : (entriesChars (',' :: gap) (':' :: gap') ((k', w) :: es)).length =
          2 + gap.length + (stringChars k').length + gap'.length + (gapChars gap gap' w).length +
            (entriesChars (',' :: gap) (':' :: gap') es).length := by
        simp only [gapChars, entriesChars_cons, List.cons_append, List.length_cons, List.length_append]
        omega
      rw [entriesLevels_cons] at shallow'
      rw [text]
      refine read.nextEntry gaps' key sound (by omega) shallow ?_
      rw [skipGap_stringChars gaps]
      exact ih key' (fun e member => others e (.tail _ member)) (by omega) (by omega) (by omega)
        read' sound'

/-- An object of which the keys and values are read is read. -/
theorem reads_object (gaps : ∀ c ∈ gap, isGap c = true) (gaps' : ∀ c ∈ gap', isGap c = true)
    {entries : List (RawText × Json)} (sound : Sound (.object entries))
    (each : ∀ e ∈ entries, Reads gap gap' e.2 ∧ Sound e.2) : Reads gap gap' (.object entries) := by
  intro fuel depth rest enough shallow ends
  obtain ⟨fuel, rfl⟩ := Nat.exists_eq_add_one_of_ne_zero (Nat.ne_zero_of_lt enough)
  rw [levels_object] at shallow
  obtain ⟨depth, rfl⟩ := Nat.exists_eq_add_one_of_ne_zero (Nat.ne_zero_of_lt shallow)
  cases entries with
  | nil =>
      exact readValue_emptyObject
  | cons e es =>
      obtain ⟨k, v⟩ := e
      obtain ⟨nodup, keys⟩ := sound
      have key : k.isTorn = false := keys k List.mem_cons_self
      have text : gapChars gap gap' (.object ((k, v) :: es)) ++ rest =
          '\x7b' :: (stringChars k ++ (':' :: (gap' ++ (gapChars gap gap' v ++
            (entriesChars (',' :: gap) (':' :: gap') es ++ '\x7d' :: rest))))) := by
        simp only [gapChars, lineChars_object, List.cons_append, List.append_assoc, List.nil_append]
      have length : (gapChars gap gap' (.object ((k, v) :: es))).length =
          (stringChars k).length + gap'.length + (gapChars gap gap' v).length +
            (entriesChars (',' :: gap) (':' :: gap') es).length + 3 := by
        simp only [gapChars, lineChars_object, List.length_cons, List.length_append, List.length_nil]
        omega
      rw [entriesLevels_cons] at shallow
      have first : Reads gap gap' v ∧ Sound v := each _ List.mem_cons_self
      have read := readEntries_entriesChars gaps gaps' key first
        (fun e member => ⟨keys e.1 (List.mem_map_of_mem (List.mem_cons_of_mem _ member)),
          each e (.tail _ member)⟩)
        (show _ < fuel by omega) (show levels v ≤ depth by omega) (by omega) rest
      rw [stringChars_append] at read
      rw [text, stringChars_append, readValue_object read, Entries.ofList_eq_self nodup]

theorem itemsOversized_eq_false_iff {items : List Json} :
    itemsOversized items = false ↔ ∀ w ∈ items, hasOversized w = false := by
  induction items with
  | nil => simp [itemsOversized]
  | cons v vs ih => rw [itemsOversized, Bool.or_eq_false_iff, ih, List.forall_mem_cons]

theorem entriesOversized_eq_false_iff {entries : List (RawText × Json)} :
    entriesOversized entries = false ↔ ∀ e ∈ entries, hasOversized e.2 = false := by
  induction entries with
  | nil => simp [entriesOversized]
  | cons e es ih => rw [entriesOversized, Bool.or_eq_false_iff, ih, List.forall_mem_cons]

/-- A sound value without an integer that is too long is read again. -/
theorem reads_of_sound (gaps : ∀ c ∈ gap, isGap c = true) (gaps' : ∀ c ∈ gap', isGap c = true)
    {v : Json} (sound : v.Holds Sound) (short : hasOversized v = false) : Reads gap gap' v := by
  induction v using Json.induct with
  | null => exact reads_null gap gap'
  | bool b => exact reads_bool gap gap' b
  | int n => exact reads_int gap gap' short
  | float x => exact reads_float gap gap' sound.self
  | string s => exact reads_string gap gap' sound.self
  | array items ih =>
      have parts := (holds_array_iff.mp sound).2
      rw [hasOversized, itemsOversized_eq_false_iff] at short
      exact reads_array gaps fun w member =>
        ⟨ih w member (parts w member) (short w member), (parts w member).self⟩
  | object entries ih =>
      have parts := (holds_object_iff.mp sound).2
      rw [hasOversized, entriesOversized_eq_false_iff] at short
      exact reads_object gaps gaps' sound.self fun e member =>
        ⟨ih e member (parts e member) (short e member), (parts e member).self⟩

end Values

/-! ## Texts -/

theorem gaps_space : ∀ c ∈ [' '], isGap c = true :=
  List.forall_mem_singleton.mpr rfl

theorem toList_line (v : Json) : v.line.toList = gapChars [' '] [' '] v := by
  rw [line, String.toList_ofList, gapChars]

/-- White space does not go on with a number. -/
theorem endsNumber_gap {gap : List Char} (gaps : ∀ c ∈ gap, isGap c = true) : EndsNumber gap := by
  intro c first
  have inside := gaps c (List.mem_of_mem_head? first)
  simp only [isGap, Bool.or_eq_true, beq_iff_eq] at inside
  rcases inside with ((rfl | rfl) | rfl) | rfl <;> decide

/-- The line of a sound value that is not nested too deeply, with no integer that is too long, is read
as the value, whatever white space follows it. -/
theorem readText_line_append {v : Json} (sound : v.Holds Sound) (short : hasOversized v = false)
    (shallow : levels v ≤ depthLimit) {gap : List Char} (gaps : ∀ c ∈ gap, isGap c = true) :
    readText (v.line.toList ++ gap) = .ok v := by
  have starts := (startsValue_gapChars [' '] [' '] sound.self).append gap
  have enough : (gapChars [' '] [' '] v).length < (gapChars [' '] [' '] v ++ gap).length + 1 := by
    rw [List.length_append]
    omega
  have read := reads_of_sound gaps_space gaps_space sound short _ depthLimit gap enough shallow
    (endsNumber_gap gaps)
  have rest : skipGap gap = [] := List.dropWhile_eq_nil_iff.mpr gaps
  rw [toList_line, readText]
  · rw [skipGap_of_first starts.first, read]
    dsimp only
    rw [rest]
  · obtain ⟨c, more, same, _, _, mark⟩ := starts
    intro rest other
    exact mark (List.cons.inj (same.symm.trans other)).1

theorem readText_line {v : Json} (sound : v.Holds Sound) (short : hasOversized v = false)
    (shallow : levels v ≤ depthLimit) : readText v.line.toList = .ok v := by
  have read := readText_line_append sound short shallow (List.forall_mem_nil _)
  rwa [List.append_nil] at read

end LessonCalc.Json
