/-!
# Blank characters

The characters that count as blank wherever the library skips or trims white space.  A *space* is a
white space character of the Unicode standard; a *blank* is a space or one of the four information
separators among the control characters.  `strip` trims the blanks at both ends of a text.
-/

namespace LessonCalc.Text

/-- A white space character of the Unicode standard. -/
def isSpace (c : Char) : Bool :=
  let n := c.toNat
  (0x09 ≤ n && n ≤ 0x0D) || n == 0x20 || n == 0x85 || n == 0xA0 || n == 0x1680 ||
    (0x2000 ≤ n && n ≤ 0x200A) || n == 0x2028 || n == 0x2029 || n == 0x202F || n == 0x205F ||
    n == 0x3000

/-- A space, or one of the control characters that separate files, groups, records and units. -/
def isBlank (c : Char) : Bool :=
  isSpace c || (0x1C ≤ c.toNat && c.toNat ≤ 0x1F)

/-- A text without the characters of a class at both ends. -/
def trimBoth (p : Char → Bool) (cs : List Char) : List Char :=
  ((cs.dropWhile p).reverse.dropWhile p).reverse

/-- A text without its leading blanks. -/
def dropBlanks (cs : List Char) : List Char :=
  cs.dropWhile isBlank

/-- A text without its leading and trailing blanks. -/
def strip (cs : List Char) : List Char :=
  trimBoth isBlank cs

/-- A text without its leading and trailing spaces. -/
def trimSpaces (cs : List Char) : List Char :=
  trimBoth isSpace cs

/-- A text holds nothing but blanks exactly if no character is left once they are dropped. -/
theorem dropBlanks_eq_nil_iff {cs : List Char} :
    dropBlanks cs = [] ↔ ∀ c ∈ cs, isBlank c = true := by
  induction cs with
  | nil => simp [dropBlanks]
  | cons c cs ih =>
    unfold dropBlanks at ih ⊢
    by_cases h : isBlank c = true
    · rw [List.dropWhile_cons_of_pos h, ih, List.forall_mem_cons]
      simp only [h, true_and]
    · rw [List.dropWhile_cons_of_neg h, List.forall_mem_cons]
      simp only [h, reduceCtorEq, Bool.false_eq_true, false_and]

end LessonCalc.Text
