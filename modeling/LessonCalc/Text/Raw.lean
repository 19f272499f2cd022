/-!
# Raw texts

Notations that spell a character by code units of sixteen bits can spell half of a pair of them,
which is no character.  A raw text may hold such halves.  One that holds none is whole, and is a
string; a torn one is kept code by code.
-/

namespace LessonCalc

/-! ## Codes -/

/-- What stands in a place of a raw text: a character, or one of the code units that are half of a
pair, by its offset among them. -/
inductive Code where
  | char (c : Char)
  | half (offset : Fin 0x800)
  deriving Repr, DecidableEq

namespace Code

/-- The number of a code. -/
def toNat : Code → Nat
  | char c => c.toNat
  | half offset => 0xD800 + offset

/-- The code of a number. -/
def ofNat (n : Nat) : Code :=
  if h : 0xD800 ≤ n ∧ n ≤ 0xDFFF then half ⟨n - 0xD800, by omega⟩ else char (Char.ofNat n)

/-- Whether a code is half of a pair. -/
def isHalf : Code → Bool
  | char _ => false
  | half _ => true

/-- A code where a character has to stand: a half is replaced. -/
def legible : Code → Char
  | char c => c
  | half _ => '\uFFFD'

end Code

/-! ## Texts -/

/-- A text that holds half of a pair, and so is no string. -/
structure Torn where
  codes : List Code
  torn : codes.any Code.isHalf = true
  deriving Repr, DecidableEq

/-- A text as notations spell it. -/
inductive RawText where
  | whole (text : String)
  | torn (text : Torn)
  deriving Repr, DecidableEq

namespace RawText

instance : Coe String RawText := ⟨whole⟩

instance : Inhabited RawText := ⟨whole ""⟩

/-- The codes of a text. -/
def codes : RawText → List Code
  | whole s => s.toList.map .char
  | torn t => t.codes

/-- The text of codes. -/
def ofCodes (codes : List Code) : RawText :=
  if h : codes.any Code.isHalf then torn ⟨codes, h⟩
  else whole (String.ofList (codes.map Code.legible))

/-- Whether a text is no string. -/
def isTorn : RawText → Bool
  | whole _ => false
  | torn _ => true

/-- The characters before the first half. -/
def front : RawText → List Char
  | whole s => s.toList
  | torn t => (t.codes.takeWhile fun c => !c.isHalf).map Code.legible

/-- A text in which each half is replaced. -/
def legible : RawText → String
  | whole s => s
  | torn t => String.ofList (t.codes.map Code.legible)

/-! ## Order -/

/-- The numbers of the codes of a text. -/
def numbers (s : RawText) : List Nat :=
  s.codes.map Code.toNat

/-- Whether a text comes no later than another, by the numbers of their codes. -/
def le (a b : RawText) : Bool :=
  !decide (b.numbers < a.numbers)

/-! ## Whole and torn texts -/

section

variable {s : RawText} {text : String} {codes : List Code}

@[simp] theorem codes_whole : (whole text).codes = text.toList.map .char := rfl

theorem isTorn_eq_false_iff : s.isTorn = false ↔ ∃ text : String, s = text := by
  cases s with
  | whole text => exact ⟨fun _ => ⟨text, rfl⟩, fun _ => rfl⟩
  | torn t => exact ⟨fun no => (nomatch no), fun ⟨_, same⟩ => (nomatch same)⟩

/-- Characters alone make a string. -/
theorem ofCodes_map_char (cs : List Char) : ofCodes (cs.map .char) = String.ofList cs := by
  have none : (cs.map Code.char).any Code.isHalf = false := by
    rw [List.any_map]
    exact List.any_eq_false.mpr fun _ _ => Bool.false_ne_true
  have back : (cs.map Code.char).map Code.legible = cs := by
    rw [List.map_map]
    exact List.map_id cs
  rw [ofCodes, dif_neg (by rw [none]; exact Bool.false_ne_true), back]

/-- The codes of a text make the text. -/
@[simp] theorem ofCodes_codes (s : RawText) : ofCodes s.codes = s := by
  cases s with
  | whole text => rw [codes_whole, ofCodes_map_char, String.ofList_toList]
  | torn t => exact dif_pos t.torn

/-- Codes are kept in a text. -/
@[simp] theorem codes_ofCodes (codes : List Code) : (ofCodes codes).codes = codes := by
  unfold ofCodes
  split
  · rfl
  · rename_i none
    have chars : ∀ c ∈ codes, Code.char c.legible = c := fun c member => by
      cases c with
      | char _ => rfl
      | half _ => exact absurd (List.any_eq_true.mpr ⟨_, member, rfl⟩) none
    rw [codes_whole, String.toList_ofList, List.map_map]
    exact (List.map_congr_left chars).trans (List.map_id codes)

/-- Texts are told by their codes. -/
theorem codes_inj {a b : RawText} : a.codes = b.codes ↔ a = b :=
  ⟨fun same => by rw [← ofCodes_codes a, same, ofCodes_codes], congrArg RawText.codes⟩

end

end RawText

end LessonCalc
