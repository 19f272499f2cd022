import LessonCalc.Proofs.Json.Numbers
import LessonCalc.Proofs.Json.Places
import LessonCalc.Proofs.Text.Lines

/-!
# The characters of written JSON

JSON on one line is printable ASCII, whatever the value holds: no character of it ends a line, and none
is lost when the text becomes bytes.

* `printable_escapeChar`: every character of a string is written by printable ones.
* `printable_lineChars`: so is every value, between separators that are printable.
* `line_object`: the line of an object has no blank at either end.
-/

namespace LessonCalc.Json

open LessonCalc.Text LessonCalc.Number

/-- A text that is given in full is printable by inspection. -/
theorem printable_of_all {cs : List Char} (all : cs.all (fun c => decide (Printable c)) = true) :
    ∀ c ∈ cs, Printable c :=
  fun c member => of_decide_eq_true (List.all_eq_true.mp all c member)

/-! ## Strings -/

theorem printable_hexDigitChar (n : Nat) : Printable (hexDigitChar n) := by
  have all : ∀ d < 16, Printable (hexDigitChar d) := by decide
  have reduced : hexDigitChar n = hexDigitChar (n % 16) := by
    simp only [hexDigitChar, Nat.mod_mod]
  rw [reduced]
  exact all _ (Nat.mod_lt _ (by decide))

theorem printable_hexDigits (width n : Nat) : ∀ c ∈ hexDigits width n, Printable c := by
  induction width generalizing n with
  | zero => exact List.forall_mem_nil _
  | succ width ih =>
      rw [hexDigits]
      exact List.forall_mem_append.mpr ⟨ih _, List.forall_mem_singleton.mpr (printable_hexDigitChar n)⟩

theorem printable_unitEscape (n : Nat) : ∀ c ∈ unitEscape n, Printable c :=
  List.forall_mem_cons.mpr ⟨by decide, List.forall_mem_cons.mpr ⟨by decide, printable_hexDigits 4 n⟩⟩

/-- A character of a string is written by printable ones. -/
theorem printable_escapeChar (c : Char) : ∀ d ∈ escapeChar c, Printable d := by
  unfold escapeChar
  split
  next => exact printable_of_all rfl
  split
  next => exact printable_of_all rfl
  split
  next => exact printable_of_all rfl
  split
  next => exact printable_of_all rfl
  split
  next => exact printable_of_all rfl
  split
  next => exact printable_of_all rfl
  split
  next => exact printable_of_all rfl
  split
  next printable => exact List.forall_mem_singleton.mpr printable
  split
  next => exact printable_unitEscape _
  next => exact List.forall_mem_append.mpr ⟨printable_unitEscape _, printable_unitEscape _⟩

theorem printable_escapeCode (c : Code) : ∀ d ∈ escapeCode c, Printable d := by
  cases c with
  | char c => exact printable_escapeChar c
  | half offset => exact printable_unitEscape _

theorem printable_stringChars (s : RawText) : ∀ c ∈ stringChars s, Printable c := by
  refine List.forall_mem_append.mpr ⟨List.forall_mem_cons.mpr ⟨by decide, fun d member => ?_⟩,
    printable_of_all rfl⟩
  obtain ⟨c, _, member⟩ := List.mem_flatMap.mp member
  exact printable_escapeCode c d member

/-! ## Numbers -/

theorem printable_of_isDigit {c : Char} (digit : isDigit c = true) : Printable c := by
  simp only [isDigit, Bool.and_eq_true, decide_eq_true_eq] at digit
  exact ⟨Nat.le_trans (by decide) digit.1, Nat.le_trans digit.2 (by decide)⟩

theorem printable_signChars (negative : Bool) : ∀ c ∈ signChars negative, Printable c := by
  cases negative <;> exact printable_of_all rfl

theorem printable_intChars (n : Int) : ∀ c ∈ intChars n, Printable c := by
  rw [intChars_eq]
  exact List.forall_mem_append.mpr ⟨printable_signChars _,
    fun c member => printable_of_isDigit (isDigit_of_mem_natChars member)⟩

theorem printable_numeral {t : Numeral} (proper : t.Proper) : ∀ c ∈ t.chars, Printable c := by
  obtain ⟨whole, fraction, exponent⟩ := t
  have digits : ∀ {cs : List Char}, (∀ c ∈ cs, isDigit c = true) → ∀ c ∈ cs, Printable c :=
    fun inside c member => printable_of_isDigit (inside c member)
  refine List.forall_mem_append.mpr ⟨digits proper.whole.inside, List.forall_mem_append.mpr ⟨?_, ?_⟩⟩
  · have inside := digits proper.fraction
    cases fraction with
    | nil => exact inside
    | cons d fraction => exact List.forall_mem_cons.mpr ⟨by decide, inside⟩
  · cases exponent with
    | none => exact List.forall_mem_nil _
    | some e =>
        obtain ⟨negative, power⟩ := e
        have inside := digits (proper.exponent _ rfl).2
        refine List.forall_mem_cons.mpr ⟨by decide, List.forall_mem_cons.mpr ⟨?_, inside⟩⟩
        cases negative <;> decide

theorem printable_floatChars (x : Float) : ∀ c ∈ floatChars x, Printable c := by
  unfold floatChars
  split
  next => exact printable_of_all rfl
  next number =>
    split
    next => split <;> exact printable_of_all rfl
    next bounded =>
      obtain ⟨t, text, proper, _⟩ := Layout.plain.exists_numeral (magnitude x).shortest
      rw [Layout.write, if_neg number, if_neg bounded, text]
      have inside := printable_numeral proper
      split
      next => exact List.forall_mem_cons.mpr ⟨by decide, inside⟩
      next => exact inside

/-! ## Values -/

section Values

variable {itemSep keySep : List Char} (items : ∀ c ∈ itemSep, Printable c)
  (keys : ∀ c ∈ keySep, Printable c)
include items

theorem printable_itemsChars {vs : List Json}
    (each : ∀ v ∈ vs, ∀ c ∈ lineChars itemSep keySep v, Printable c) :
    ∀ c ∈ itemsChars itemSep keySep vs, Printable c := by
  induction vs with
  | nil => exact List.forall_mem_nil _
  | cons v vs ih =>
      obtain ⟨first, others⟩ := List.forall_mem_cons.mp each
      simp only [itemsChars_cons, List.forall_mem_append]
      exact ⟨⟨items, first⟩, ih others⟩

include keys

theorem printable_entriesChars {es : List (RawText × Json)}
    (each : ∀ e ∈ es, ∀ c ∈ lineChars itemSep keySep e.2, Printable c) :
    ∀ c ∈ entriesChars itemSep keySep es, Printable c := by
  induction es with
  | nil => exact List.forall_mem_nil _
  | cons e es ih =>
      obtain ⟨k, v⟩ := e
      obtain ⟨first, others⟩ := List.forall_mem_cons.mp each
      simp only [entriesChars_cons, List.forall_mem_append]
      exact ⟨⟨⟨⟨items, printable_stringChars k⟩, keys⟩, first⟩, ih others⟩

/-- A value on one line is printable. -/
theorem printable_lineChars (v : Json) : ∀ c ∈ lineChars itemSep keySep v, Printable c := by
  induction v using Json.induct with
  | null => exact printable_of_all rfl
  | bool b => cases b <;> exact printable_of_all rfl
  | int n => exact printable_intChars n
  | float x => exact printable_floatChars x
  | string s => exact printable_stringChars s
  | array vs ih =>
      cases vs with
      | nil => exact printable_of_all rfl
      | cons v vs =>
          obtain ⟨first, others⟩ := List.forall_mem_cons.mp ih
          simp only [lineChars_array, List.forall_mem_append, List.forall_mem_cons]
          exact ⟨⟨⟨by decide, first⟩, printable_itemsChars items others⟩, by decide,
            List.forall_mem_nil _⟩
  | object es ih =>
      cases es with
      | nil => exact printable_of_all rfl
      | cons e es =>
          obtain ⟨k, v⟩ := e
          obtain ⟨first, others⟩ := List.forall_mem_cons.mp ih
          simp only [lineChars_object, List.forall_mem_append, List.forall_mem_cons]
          exact ⟨⟨⟨⟨⟨by decide, printable_stringChars k⟩, keys⟩, first⟩,
            printable_entriesChars items keys others⟩, by decide, List.forall_mem_nil _⟩

end Values

/-- The line of a value is printable. -/
theorem printable_line (v : Json) : ∀ c ∈ v.line.toList, Printable c := by
  rw [line, String.toList_ofList]
  exact printable_lineChars (printable_of_all rfl) (printable_of_all rfl) v

/-- The line of an object starts and ends with its braces. -/
theorem line_object (entries : List (RawText × Json)) :
    ∃ more, (object entries).line.toList = '\x7b' :: more ++ ['\x7d'] := by
  rw [line, String.toList_ofList]
  cases entries with
  | nil => exact ⟨[], rfl⟩
  | cons e es =>
      obtain ⟨k, v⟩ := e
      refine ⟨stringChars k ++ [':', ' '] ++ lineChars [',', ' '] [':', ' '] v ++
        entriesChars [',', ' '] [':', ' '] es, ?_⟩
      rw [lineChars_object]
      simp only [List.cons_append]

/-- The line of an object is not trimmed. -/
theorem strip_line_object (entries : List (RawText × Json)) :
    strip (object entries).line.toList = (object entries).line.toList := by
  obtain ⟨more, text⟩ := line_object entries
  rw [text]
  refine strip_of_edges ?_ ?_
  · rintro c ⟨rfl⟩
    rfl
  · intro c last
    rw [List.getLast?_append_of_ne_nil _ (List.cons_ne_nil _ _)] at last
    cases last
    rfl

end LessonCalc.Json
