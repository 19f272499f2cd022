import LessonCalc.CommandLine.Run
import LessonCalc.Proofs.Number.Written
import LessonCalc.Proofs.Tool.Placeholder

/-!
# Texts in the fields of a tool

A text in a field counts for the number at its front.  Every text that the program itself writes for a number
is read as that number again, so an input that nothing was entered for has its default.

* `readEntry_typed`: what is typed is read as the longest number at its front, or else as zero.
* `readEntry_plainText`, `readEntry_defaultText`, `readEntry_resultText`: the written forms of a number.
* `exists_coerce_iff`, `coerce_default`: an input that nothing was entered for has its default, if the fields
  can be read.
-/

namespace LessonCalc.Tool

open LessonCalc.Number LessonCalc.Text

variable {levels : Nat} {room : Room} {t : Tool} {entered : Entered} {s : String} {x : Float}

/-! ## What is typed -/

theorem readEntry_of_typed? {s : RawText} (read : typed? s.front = some x) (number : x.isNaN = false) :
    readEntry levels (.string s) = .ok x := by
  rw [readEntry, read, Option.getD_some, dropNaN, number, if_neg Bool.false_ne_true]

/-- What is typed is read, never with a fault, and as a number: as that of the longest number text at its
front, behind blanks, or as zero if there is none.  That text is a number as a whole, once infinity has its
short name.  Half of a character is part of none, so what counts is what stands before it. -/
theorem readEntry_typed (levels : Nat) (s : RawText) :
    ∃ x, readEntry levels (.string s) = .ok x ∧ x.isNaN = false ∧
      ((∃ used, IsLongest IsNumberText (dropBlanks s.front) used ∧ NumberText x used ∧
          floatText? (String.ofList (shortenInfinity used)) = some x) ∨
        (∀ used, used <+: dropBlanks s.front → ¬IsNumberText used) ∧ x = 0.0) := by
  by_cases some : ∃ used, used <+: dropBlanks s.front ∧ IsNumberText used
  · obtain ⟨used, longest⟩ := exists_isLongest some
    obtain ⟨x, text⟩ := longest.holds
    have read := typed?_of_isLongest longest text
    exact ⟨x, readEntry_of_typed? read text.isNaN, text.isNaN,
      .inl ⟨used, longest, text, floatText?_shortenInfinity text⟩⟩
  · have none : typed? s.front = none := by
      refine Option.eq_none_iff_forall_ne_some.mpr fun x read => ?_
      obtain ⟨used, front, text⟩ := exists_numberText_of_typed? read
      exact some ⟨used, front, x, text⟩
    refine ⟨0.0, ?_, rfl, .inr ⟨fun used front text => some ⟨used, front, text⟩, rfl⟩⟩
    rw [readEntry, none]
    rfl

/-! ## What is written -/

/-- The text of a number is read as that number. -/
theorem readEntry_of_numberText (text : NumberText x s.toList) : readEntry levels (.string s) = .ok x :=
  readEntry_of_typed? text.typed? text.isNaN

theorem readEntry_plainText (finite : x.isFinite = true) :
    readEntry levels (.string (plainText x)) = .ok x :=
  readEntry_of_numberText (numberText_plainText finite)

/-- A default is read as it was declared; only a zero has no sign. -/
theorem readEntry_defaultText (finite : x.isFinite = true) :
    readEntry levels (.string (defaultText x)) = .ok (unsignedZero x) := by
  unfold defaultText
  split
  next whole => exact readEntry_of_numberText (numberText_intText whole)
  next fraction =>
    have same : unsignedZero x = x :=
      unsignedZero_eq_self (by decide +kernel) (by decide +kernel) fraction
    rw [same]
    exact readEntry_plainText finite

/-- A result is read as it was computed; only a zero has no sign. -/
theorem readEntry_resultText (finite : x.isFinite = true) :
    readEntry levels (.string (CommandLine.resultText x)) = .ok (unsignedZero x) := by
  unfold CommandLine.resultText
  split
  next whole => exact readEntry_of_numberText (numberText_intText (Bool.and_eq_true_iff.mp whole).1)
  next other =>
    have same : unsignedZero x = x :=
      @unsignedZero_eq_self _ (fun y => isWhole y && decide (y.abs < 1e16)) (by decide +kernel)
        (by decide +kernel) other
    rw [same]
    exact readEntry_plainText finite

/-! ## Defaults -/

/-- The number that an input has where nothing was entered: its default without the sign of a zero, or
zero. -/
def Input.declared (i : Input) : Float :=
  unsignedZero (i.default.getD 0.0)

/-- The fields can be read unless what was entered for some input has a fault. -/
theorem exists_coerce_iff :
    (∃ numbers, t.coerce room entered = .ok numbers) ↔
      ∀ i ∈ t.inputs, (entered.lookup i.id).bind (entryFault? room.entry) = none := by
  rw [← List.findSome?_eq_none_iff, Option.eq_none_iff_forall_ne_some]
  simp only [ne_eq, ← coerce_eq_error_iff]
  cases t.coerce room entered <;> simp

section Absent

variable {i : Input} (finite : ∀ x, i.default = some x → x.isFinite = true)

include finite

theorem readEntry_initialText : readEntry levels (.string i.initialText) = .ok i.declared := by
  unfold Input.initialText Input.declared
  cases default : i.default with
  | none => rfl
  | some x => exact readEntry_defaultText (finite x default)

theorem beq_declared : (i.declared == i.default.getD 0.0) = true := by
  refine beq_unsignedZero ?_
  cases default : i.default with
  | none => rfl
  | some x => exact isNaN_of_isFinite (finite x default)

variable (distinct : (t.inputs.map (·.id)).Nodup) (listed : i ∈ t.inputs)
  (absent : entered.lookup i.id = none)

include distinct listed absent

/-- The field of an input that nothing was entered for holds the text of its default, and is read as that. -/
theorem readEntry_fieldState_of_absent :
    readEntry room.entry (fieldState (t.fieldStates entered) i) = .ok i.declared := by
  have started : t.initialTexts.get? i.id = some i.initialText := by
    refine Entries.get?_insertAll_of_mem ?_ (List.mem_map_of_mem listed)
    rwa [Entries.keys, List.map_map]
  have content : fieldState (t.fieldStates entered) i = .string i.initialText := by
    rw [fieldState, get?_fieldStates listed, absent, Option.none_or,
      Entries.get?_map fun s : String => Json.string s, started]
    rfl
  rw [content]
  exact readEntry_initialText finite

/-- So it has its default as its number, if the fields can be read. -/
theorem get?_of_coerce_of_absent {numbers : Entries String Float} (coerced : t.coerce room entered = .ok numbers) :
    numbers.get? i.id = some i.declared := by
  obtain ⟨x, number, found⟩ := readEntry_of_coerce coerced listed
  rw [readEntry_fieldState_of_absent finite distinct listed absent] at number
  cases number
  exact found

end Absent

/-- Each form in which a finite number is written is read as a number equal to it.  So in every tool whose
inputs have distinct ids and finite defaults, the field of an input that nothing was entered for is read as
its default, whatever was entered for others, and this is its number if the fields can be read.  They can
unless what was entered for some input has a fault. -/
theorem coerce_default (room : Room) (distinct : (t.inputs.map (·.id)).Nodup)
    (finite : ∀ i ∈ t.inputs, ∀ x, i.default = some x → x.isFinite = true) :
    (∀ x : Float, x.isFinite = true →
      readEntry room.entry (.string (plainText x)) = .ok x ∧
      readEntry room.entry (.string (defaultText x)) = .ok (unsignedZero x) ∧
      readEntry room.entry (.string (CommandLine.resultText x)) = .ok (unsignedZero x) ∧
      (unsignedZero x == x) = true) ∧
    ∀ entered : Entered,
      ((∃ numbers, t.coerce room entered = .ok numbers) ↔
        ∀ i ∈ t.inputs, (entered.lookup i.id).bind (entryFault? room.entry) = none) ∧
      ∀ i ∈ t.inputs, entered.lookup i.id = none →
        readEntry room.entry (fieldState (t.fieldStates entered) i) = .ok i.declared ∧
        (i.declared == i.default.getD 0.0) = true ∧
        ∀ numbers, t.coerce room entered = .ok numbers → numbers.get? i.id = some i.declared := by
  refine ⟨fun x finite => ⟨readEntry_plainText finite, readEntry_defaultText finite,
    readEntry_resultText finite, beq_unsignedZero (isNaN_of_isFinite finite)⟩,
    fun entered => ⟨exists_coerce_iff, fun i listed absent => ?_⟩⟩
  have finite' := finite i listed
  exact ⟨readEntry_fieldState_of_absent finite' distinct listed absent, beq_declared finite',
    fun numbers coerced => get?_of_coerce_of_absent finite' distinct listed absent coerced⟩

/-- Beside an entry that is only partly a number, an input without an entry has its default, and one without
a default is zero. -/
theorem coerce_default_partly :
    let t : Tool := { inputs := [{ id := "a", default := some 0.1 }, { id := "b" }, { id := "c" }] }
    let entered : Entered := [("b", .string "12abc")]
    ∃ numbers, t.coerce {} entered = .ok numbers ∧ numbers.get? "a" = some 0.1 ∧
      numbers.get? "c" = some 0.0 := by
  intro t entered
  have distinct : (t.inputs.map (·.id)).Nodup := by decide
  have listed : ∀ i ∈ t.inputs, i = { id := "a", default := some 0.1 } ∨ i = { id := "b" } ∨
      i = { id := "c" } := by
    simp [t]
  have finite : ∀ i ∈ t.inputs, ∀ x, i.default = some x → x.isFinite = true := by
    intro i member x default
    rcases listed i member with rfl | rfl | rfl <;> cases default
    rfl
  have faultless : ∀ i ∈ t.inputs, (entered.lookup i.id).bind (entryFault? 990) = none := by
    intro i member
    rcases listed i member with rfl | rfl | rfl <;> rfl
  obtain ⟨-, each⟩ := coerce_default {} distinct finite
  obtain ⟨read, absent⟩ := each entered
  obtain ⟨numbers, coerced⟩ := read.mpr faultless
  obtain ⟨-, -, a⟩ := absent { id := "a", default := some 0.1 } (by simp [t]) rfl
  obtain ⟨-, -, c⟩ := absent { id := "c" } (by simp [t]) rfl
  exact ⟨numbers, coerced, a numbers coerced, c numbers coerced⟩

/-- Beside an integer that is out of range, an input without an entry has no number. -/
theorem not_coerced_beside_large :
    let t : Tool := { inputs := [{ id := "a", default := some 5.0 }, { id := "b" }] }
    let large := Json.int (Int.ofNat (Nat.pow 10 400))
    List.lookup "a" [("b", large)] = none ∧ t.coerce {} [("b", large)] = .error .outOfRange := by
  intro t large
  have far : rangeBound ≤ Nat.pow 10 400 := by decide +kernel
  have fault : entryFault? 990 large = some .outOfRange := entryFault?_ofNat far
  clear_value large
  have absent : List.lookup "a" [("b", large)] = none := rfl
  have entered : List.lookup "b" [("b", large)] = some large := rfl
  exact ⟨absent, coerce_eq_error_iff.mpr (by simp [t, absent, entered, fault])⟩

end LessonCalc.Tool
