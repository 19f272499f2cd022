import LessonCalc.Proofs.Number.Written
import LessonCalc.Proofs.Tool.Display
import LessonCalc.Proofs.Tool.Totality

/-!
# When a tool shows values

A tool shows its values once any field holds more than a blank or a zero.  Until then every input counts as
zero, so nothing is hidden by the placeholder.

* `hasInput_eq_false_iff`: the placeholder is shown while every field is blank or a zero.
* `beq_zero_of_readEntry`: such a field is read as zero.
* `beq_zero_of_defaultText`: a default whose text is blank or a zero is zero.
* `compute_displayed`: a tool shows the placeholder for all outputs or for none, and a sign on those whose
  value is negative and does not show as zero.
-/

namespace LessonCalc.Tool

open LessonCalc.Number

variable {levels : Nat} {room : Room} {t : Tool} {entered : Entered} {numbers : Entries String Float}

/-! ## Blank fields -/

theorem anyInputState_eq_false_iff (levels : Nat) (states : List Json) :
    anyInputState levels states = .ok false ↔ ∀ v ∈ states, isInputState levels v = .ok false := by
  induction states with
  | nil => simp [anyInputState]
  | cons v rest ih =>
      rw [anyInputState, List.forall_mem_cons, ← ih]
      cases here : isInputState levels v with
      | error e => simp
      | ok b => cases b <;> simp

/-- Nothing is entered exactly if the field of each input is blank or a zero. -/
theorem hasInput_eq_false_iff :
    t.hasInput room entered = .ok false ↔
      ∀ i ∈ t.inputs, isInputState room.entry (fieldState (t.fieldStates entered) i) = .ok false := by
  rw [hasInput, anyInputState_eq_false_iff]
  constructor
  · intro blank i _
    unfold fieldState
    cases found : (t.fieldStates entered).get? i.id with
    | none => rfl
    | some v =>
        obtain ⟨before, after, split, -⟩ := List.lookup_eq_some_iff.mp found
        refine blank v ?_
        rw [split]
        simp
  · intro blank v member
    obtain ⟨⟨name, v⟩, entry, rfl⟩ := List.mem_map.mp member
    obtain ⟨i, listed, rfl⟩ := List.mem_map.mp (mem_keys_fieldStates (List.mem_map_of_mem entry))
    have content : fieldState (t.fieldStates entered) i = v := by
      simp [fieldState, Entries.get?_of_mem nodup_keys_fieldStates entry]
    exact content ▸ blank i listed

theorem isInputText_eq_false_iff {s : RawText} : isInputText s = false ↔ s = "" ∨ s = "0" := by
  simp [isInputText, Classical.or_iff_not_imp_left]

theorem isInputText_whole_eq_false_iff {s : String} : isInputText s = false ↔ s = "" ∨ s = "0" := by
  rw [isInputText_eq_false_iff, RawText.whole.injEq, RawText.whole.injEq]

/-- What is blank or a zero is read as zero. -/
theorem beq_zero_of_readEntry {v : Json} {x : Float} (blank : isInputState levels v = .ok false)
    (number : readEntry levels v = .ok x) : (x == 0.0) = true := by
  cases v with
  | null =>
      cases number
      rfl
  | bool b =>
      cases blank
      cases number
      rfl
  | int n =>
      rw [isInputState, byText_eq_ok_iff] at blank
      have zero : n = 0 := by simpa using blank.2
      subst zero
      cases number
      rfl
  | float y =>
      have zero : (y == 0.0) = true := by simpa [isInputState] using blank
      cases number
      rw [dropNaN, isNaN_of_isFinite (isFinite_of_zero zero), if_neg Bool.false_ne_true]
      exact zero
  | string s =>
      rcases isInputText_eq_false_iff.mp (Except.ok.inj blank) with rfl | rfl
      · cases number
        rfl
      · cases number
        rfl
  | array items => cases (byText_eq_ok_iff.mp blank).2
  | object fields => cases (byText_eq_ok_iff.mp blank).2

/-! ## Defaults -/

/-- The default of an id, which is that of the last input declared with it. -/
def defaultOf? (t : Tool) (id : String) : Option Float :=
  (t.inputs.reverse.find? fun i => i.id == id).bind (·.default)

theorem lookup_map_id {α : Type} (f : Input → α) (inputs : List Input) (id : String) :
    (inputs.map fun i => (i.id, f i)).lookup id = (inputs.find? fun i => i.id == id).map f := by
  induction inputs with
  | nil => rfl
  | cons i rest ih =>
      rw [List.map_cons, List.lookup_cons, List.find?_cons, ih]
      by_cases same : i.id = id
      · simp [same]
      · have differ : (id == i.id) = false := beq_eq_false_iff_ne.mpr (Ne.symm same)
        have differ' : (i.id == id) = false := beq_eq_false_iff_ne.mpr same
        rw [differ, differ']

/-- A field starts with the text of the last input declared with its id. -/
theorem get?_initialTexts (id : String) :
    t.initialTexts.get? id = (t.inputs.reverse.find? fun i => i.id == id).map Input.initialText := by
  rw [initialTexts, Entries.ofList, Entries.get?_insertAll, ← List.map_reverse, lookup_map_id]
  exact Option.or_none

/-- A number that is written with a fraction or an exponent, or is none, is neither blank nor a zero. -/
theorem exists_mark_mem_write (layout : Layout) (x : Float) :
    ∃ c ∈ layout.write x, c = '.' ∨ c = 'e' ∨ c = 'n' := by
  have point : ∀ digits whole, '.' ∈ positional digits whole := by
    intro digits whole
    unfold positional
    split
    · simp
    · dsimp only
      split <;> simp
  have exponent : ∀ digits order, 'e' ∈ layout.exponential digits order := by
    intro digits order
    unfold Layout.exponential
    exact List.mem_append_right _ List.mem_cons_self
  have decimal : ∀ d, ∃ c ∈ layout.decimal d, c = '.' ∨ c = 'e' ∨ c = 'n' := by
    intro d
    unfold Layout.decimal
    dsimp only
    generalize (if d.digits = 0 then 0 else (natChars d.digits).length + d.exponent - 1 : Int) = order
    split
    · exact ⟨_, point _ _, .inl rfl⟩
    · exact ⟨_, exponent _ _, .inr (.inl rfl)⟩
  have unsigned : ∃ c ∈ (if x.isInf then "inf".toList else layout.decimal (magnitude x).shortest),
      c = '.' ∨ c = 'e' ∨ c = 'n' := by
    split
    · exact ⟨'n', by decide, .inr (.inr rfl)⟩
    · exact decimal _
  obtain ⟨c, member, mark⟩ := unsigned
  unfold Layout.write
  dsimp only
  split
  · exact ⟨'n', by decide, .inr (.inr rfl)⟩
  · split
    · exact ⟨c, List.mem_cons_of_mem _ member, mark⟩
    · exact ⟨c, member, mark⟩

theorem isInputText_plainText (x : Float) : isInputText (plainText x) = true := by
  obtain ⟨c, member, mark⟩ := exists_mark_mem_write Layout.plain x
  by_contra blank
  have chars : (plainText x).toList = Layout.plain.write x := String.toList_ofList
  rw [← chars] at member
  rcases isInputText_whole_eq_false_iff.mp (Bool.eq_false_of_not_eq_true blank) with same | same
  · rw [same] at member
    cases member
  · rw [same] at member
    cases List.mem_singleton.mp member
    revert mark
    decide

theorem eq_zero_of_intText {n : Int} (text : intText n = "" ∨ intText n = "0") : n = 0 := by
  have chars : (intText n).toList = intChars n := String.toList_ofList
  have digits : ofDigitChars (natChars n.natAbs) = n.natAbs := ofDigitChars_natChars _
  unfold intChars at chars
  rcases text with same | same
  · rw [same] at chars
    split at chars
    · cases chars
    · exact absurd chars.symm (natChars_ne_nil _)
  · rw [same] at chars
    split at chars
    · cases chars
    · rw [← chars] at digits
      have none : ofDigitChars "0".toList = 0 := rfl
      omega

/-- A default whose text is blank or a zero is zero. -/
theorem beq_zero_of_defaultText {x : Float} (blank : isInputText (defaultText x) = false) :
    (x == 0.0) = true := by
  unfold defaultText at blank
  split at blank
  next whole =>
    have finite : x.isFinite = true := (Bool.and_eq_true_iff.mp whole).1
    have zero := eq_zero_of_intText (isInputText_whole_eq_false_iff.mp blank)
    exact (beq_zero_iff_mantissa finite).mpr ((truncate_eq_zero_iff whole).mp zero)
  next =>
    rw [isInputText_plainText] at blank
    cases blank

/-! ## What the placeholder stands for -/

/-- What the fields of a tool hold where nothing counts as entered: every input is zero, and so is what
was entered for it, or else its default. -/
structure NothingEntered (room : Room) (t : Tool) (entered : Entered) (numbers : Entries String Float) : Prop where
  inputs : ∀ entry ∈ numbers, (entry.2 == 0.0) = true
  entries : ∀ i ∈ t.inputs, ∀ v, entered.lookup i.id = some v → ∀ x, readEntry room.entry v = .ok x →
    (x == 0.0) = true
  defaults : ∀ i ∈ t.inputs, entered.lookup i.id = none → ∀ x, t.defaultOf? i.id = some x → (x == 0.0) = true

/-- Where nothing counts as entered, nothing but zeros are hidden. -/
theorem nothingEntered (coerced : t.coerce room entered = .ok numbers)
    (looked : t.hasInput room entered = .ok false) : NothingEntered room t entered numbers := by
  have blank := hasInput_eq_false_iff.mp looked
  refine ⟨?_, ?_, ?_⟩
  · rintro ⟨name, x⟩ member
    obtain ⟨i, listed, rfl⟩ := List.mem_map.mp
      ((mem_keys_of_coerce coerced name).mp (List.mem_map_of_mem member))
    obtain ⟨x', number, found⟩ := readEntry_of_coerce coerced listed
    have here := Entries.get?_of_mem (nodup_keys_of_coerce coerced) member
    cases here.symm.trans found
    exact beq_zero_of_readEntry (blank i listed) number
  · intro i listed v value x number
    have content : fieldState (t.fieldStates entered) i = v := by
      rw [fieldState, get?_fieldStates listed, value]
      rfl
    exact beq_zero_of_readEntry (content ▸ blank i listed) number
  · intro i listed absent x default
    obtain ⟨last, found, default⟩ := Option.bind_eq_some_iff.mp default
    have content : fieldState (t.fieldStates entered) i = .string last.initialText := by
      rw [fieldState, get?_fieldStates listed, absent, Option.none_or,
        Entries.get?_map fun s : String => Json.string s, get?_initialTexts, found]
      rfl
    have text : last.initialText = defaultText x := by rw [Input.initialText, default]
    have state := blank i listed
    rw [content, text] at state
    exact beq_zero_of_defaultText (Except.ok.inj state)

/-! ## What a tool shows -/

/-- An output that is shown: its text is that of its value, and it is flagged negative exactly if its text
starts with a minus sign, which is so exactly if the value is negative and some digit of the text is not
zero. -/
structure Displayed (c : Computed) : Prop where
  text : c.formatted = display c.value c.output.format
  shown : c.formatted ≠ placeholder
  negative_iff : c.negative = true ↔ startsWithMinus c.formatted = true
  minus_iff : startsWithMinus c.formatted = true ↔ c.value < 0.0 ∧ ShowsNonzero c.formatted

theorem displayed_present (o : Output) {x : Float} (finite : x.isFinite = true) :
    Displayed (present true o x) := by
  have minus := startsWithMinus_display_iff o.format finite
  refine ⟨rfl, display_ne_placeholder o.format finite, ?_, minus⟩
  simp only [present, Bool.true_and, ↓reduceIte, Bool.and_eq_true, decide_eq_true_eq]
  exact and_iff_right_of_imp fun starts => (minus.mp starts).1

/-- A tool whose fields can be read shows all of its outputs or none.  It shows none exactly if nothing
counts as entered, and then only zeros are hidden.  A text and that of the negation differ in the sign,
unless the value shows as zero. -/
theorem compute_displayed (coerced : t.coerce room entered = .ok numbers) :
    ∃ shown computed, t.hasInput room entered = .ok shown ∧ t.compute room entered = .ok computed ∧
      (computed.map fun c => (c.output, c.value)) = resolve room.formula t.outputs (toVariables numbers) ∧
      (shown = false → NothingEntered room t entered numbers ∧
        ∀ c ∈ computed, c.formatted = placeholder ∧ c.negative = false) ∧
      (shown = true → ∀ c ∈ computed, Displayed c) ∧
      ∀ x : Float, x.isFinite = true → ∀ format, ShowsNonzero (display x format) →
        if x < 0.0 then display x format = "-" ++ display (-x) format
        else display (-x) format = "-" ++ display x format := by
  obtain ⟨shown, looked⟩ := exists_hasInput coerced
  have run : t.compute room entered =
      .ok ((resolve room.formula t.outputs (toVariables numbers)).map fun entry => present shown entry.1 entry.2) := by
    rw [compute, coerced, looked]
  refine ⟨shown, _, looked, run, ?_, ?_, ?_, ?_⟩
  · rw [List.map_map]
    exact List.map_id' _
  · rintro rfl
    refine ⟨nothingEntered coerced looked, List.forall_mem_map.mpr ?_⟩
    rintro ⟨o, x⟩ -
    exact ⟨rfl, rfl⟩
  · rintro rfl
    refine List.forall_mem_map.mpr ?_
    rintro ⟨o, x⟩ member
    exact displayed_present o (isFinite_of_mem_resolve member)
  · intro x finite format nonzero
    exact display_neg format finite nonzero

/-- A small negative number that was entered for the later of two inputs of one id counts as entered. -/
theorem compute_displayed_small :
    let t : Tool :=
      { inputs := [{ id := "a", default := some 7.0 }, { id := "a" }]
        outputs := [{ id := "x", formula := "a" }, { id := "y", formula := "a * 1000", format := .currency }] }
    t.coerce {} [("a", .string "-0.004")] = .ok [("a", -0.004)] ∧
      ∃ computed, t.compute {} [("a", .string "-0.004")] = .ok computed ∧
        computed.map (·.output.id) = ["x", "y"] ∧ ∀ c ∈ computed, Displayed c := by
  intro t
  have coerced : t.coerce {} [("a", .string "-0.004")] = .ok [("a", -0.004)] := rfl
  obtain ⟨shown, computed, looked, run, values, -, displayed, -⟩ := compute_displayed coerced
  have looked' : t.hasInput {} [("a", .string "-0.004")] = .ok true := rfl
  obtain rfl : true = shown := Except.ok.inj (looked'.symm.trans looked)
  refine ⟨coerced, computed, run, ?_, displayed rfl⟩
  have outputs := congrArg (List.map fun entry => entry.1.id) values
  rw [List.map_map] at outputs
  exact outputs

end LessonCalc.Tool
