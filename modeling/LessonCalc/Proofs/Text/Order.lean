import LessonCalc.Text.Order
import LessonCalc.Text.Raw

/-!
# Texts in order

The order of texts as an order, and how it compares texts that start alike.

* `textLe_iff`, `pairwise_sortTexts`: sorted texts are in increasing order.
* `append_lt_append_iff`, `lt_append`: texts with a common front compare as what follows it.
* `append_lt_append_of_lt`: a text that is before another, and not its front, stays before it whatever
  follows the two.
* `RawText.le_antisymm`: different raw texts have different places in the order.
-/

namespace LessonCalc.Text

variable {a b : String}

theorem textLe_iff : textLe a b = true ↔ a ≤ b := by
  rw [textLe, Bool.not_eq_true', decide_eq_false_iff_not]
  exact Iff.rfl

theorem textLe_trans (a b c : String) (first : textLe a b = true) (second : textLe b c = true) :
    textLe a c = true :=
  textLe_iff.mpr (String.le_trans (textLe_iff.mp first) (textLe_iff.mp second))

theorem textLe_total (a b : String) : (textLe a b || textLe b a) = true := by
  rw [Bool.or_eq_true, textLe_iff, textLe_iff]
  exact String.le_total a b

theorem pairwise_sortTexts (texts : List String) : (sortTexts texts).Pairwise (· ≤ ·) :=
  (List.pairwise_mergeSort textLe_trans textLe_total texts).imp textLe_iff.mp

/-! ## Texts that start alike -/

/-- Texts with a common front compare as what follows it. -/
theorem append_lt_append_iff (front : String) : front ++ a < front ++ b ↔ a < b := by
  change (front ++ a).toList < (front ++ b).toList ↔ a.toList < b.toList
  rw [String.toList_append, String.toList_append]
  induction front.toList with
  | nil => exact Iff.rfl
  | cons c cs ih => rw [List.cons_append, List.cons_append, List.cons_lt_cons_self, ih]

theorem append_le_append_iff (front : String) : front ++ a ≤ front ++ b ↔ a ≤ b :=
  not_congr (append_lt_append_iff front)

/-- A text is before its continuations. -/
theorem lt_append {more : String} (nonempty : more ≠ "") : a < a ++ more := by
  have first : "" < more := by
    cases text : more.toList with
    | nil => exact absurd (String.toList_inj.mp text) nonempty
    | cons c cs =>
        change [] < more.toList
        rw [text]
        exact List.nil_lt_cons c cs
  have longer := (append_lt_append_iff a).mpr first
  rwa [String.append_empty] at longer

/-- A list that is before another, and no prefix of it, stays before it whatever follows the two. -/
theorem lt_of_not_prefix {cs ds : List Char} (before : cs < ds) (apart : ¬cs <+: ds)
    (xs ys : List Char) : cs ++ xs < ds ++ ys := by
  induction cs generalizing ds with
  | nil => exact absurd List.nil_prefix apart
  | cons c cs ih =>
      cases ds with
      | nil => cases before
      | cons d ds =>
          rw [List.cons_append, List.cons_append, List.cons_lt_cons_iff]
          rcases List.cons_lt_cons_iff.mp before with first | ⟨rfl, rest⟩
          · exact .inl first
          · exact .inr ⟨rfl, ih rest fun front => apart (List.cons_prefix_cons.mpr ⟨rfl, front⟩)⟩

/-- A text that is before another, and not its front, stays before it whatever follows the two. -/
theorem append_lt_append_of_lt (before : a < b) (apart : ∀ more, b ≠ a ++ more) (x y : String) :
    a ++ x < b ++ y := by
  have lists : ¬a.toList <+: b.toList := by
    rintro ⟨more, same⟩
    refine apart (String.ofList more) (String.toList_inj.mp ?_)
    rw [String.toList_append, String.toList_ofList, same]
  change (a ++ x).toList < (b ++ y).toList
  rw [String.toList_append, String.toList_append]
  exact lt_of_not_prefix before lists x.toList y.toList

end LessonCalc.Text

/-! ## Raw texts -/

namespace LessonCalc

/-- Codes are told by their numbers: no character has the number of a half. -/
theorem Code.toNat_inj {x y : Code} : x.toNat = y.toNat ↔ x = y := by
  refine ⟨fun same => ?_, congrArg Code.toNat⟩
  cases x with
  | char c =>
      have valid : c.toNat < 0xD800 ∨ (0xDFFF < c.toNat ∧ c.toNat < 0x110000) := c.valid
      cases y with
      | char d => exact congrArg Code.char (Char.toNat_inj.mp same)
      | half j =>
          simp only [Code.toNat] at same
          omega
  | half i =>
      cases y with
      | char d =>
          have valid : d.toNat < 0xD800 ∨ (0xDFFF < d.toNat ∧ d.toNat < 0x110000) := d.valid
          simp only [Code.toNat] at same
          omega
      | half j => exact congrArg Code.half (Fin.ext (Nat.add_left_cancel same))

namespace RawText

variable {a b : RawText}

theorem numbers_inj : a.numbers = b.numbers ↔ a = b :=
  (List.map_inj_right fun _ _ => Code.toNat_inj.mp).trans codes_inj

theorem le_iff : a.le b = true ↔ ¬b.numbers < a.numbers := by
  rw [le, Bool.not_eq_true', decide_eq_false_iff_not]

theorem le_trans (a b c : RawText) (first : a.le b = true) (second : b.le c = true) : a.le c = true :=
  le_iff.mpr (List.not_lt.mpr
    (List.le_trans (List.not_lt.mp (le_iff.mp first)) (List.not_lt.mp (le_iff.mp second))))

theorem le_total (a b : RawText) : (a.le b || b.le a) = true := by
  rw [Bool.or_eq_true, le_iff, le_iff, List.not_lt, List.not_lt]
  exact List.le_total _ _

/-- Different raw texts have different places in the order. -/
theorem le_antisymm (first : a.le b = true) (second : b.le a = true) : a = b :=
  numbers_inj.mp (List.le_antisymm (List.not_lt.mp (le_iff.mp first)) (List.not_lt.mp (le_iff.mp second)))

end RawText

end LessonCalc
