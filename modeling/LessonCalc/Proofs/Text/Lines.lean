import LessonCalc.Text.Blank
import LessonCalc.Text.Lines
import LessonCalc.Text.Utf8

/-!
# Lines of text

Lines that hold printable ASCII only, each ended by a line feed, are what bytes, lines and trimming give
back.  Whatever the bytes, a line feed among them parts both their text and its lines.

* `Printable`: the printable characters of ASCII.
* `decodeUtf8Lossy_append`: ASCII text is decoded to itself, whatever follows it.
* `splitLines_flatMap`: lines of printable text, each with its end, are split into the lines.
* `decodeUtf8Lossy_lineFeed`: bytes before and behind a line feed are decoded apart.
* `splitLinesFrom_lineFeed`: lines before and behind a line feed are split apart.
* `strip_of_edges`: a text with no blank at either end is not trimmed.
-/

namespace LessonCalc.Text

/-! ## Printable characters -/

/-- A printable character of ASCII. -/
def Printable (c : Char) : Prop :=
  ' ' ≤ c ∧ c ≤ '~'

instance : DecidablePred Printable :=
  fun c => inferInstanceAs (Decidable (' ' ≤ c ∧ c ≤ '~'))

theorem Printable.bounds {c : Char} (printable : Printable c) : 0x20 ≤ c.toNat ∧ c.toNat ≤ 0x7E :=
  printable

/-- A printable character ends no line. -/
theorem Printable.not_boundary {c : Char} (printable : Printable c) : isLineBoundary c = false := by
  obtain ⟨low, high⟩ := printable.bounds
  simp only [isLineBoundary, Bool.or_eq_false_iff, Bool.and_eq_false_iff, decide_eq_false_iff_not,
    beq_eq_false_iff_ne]
  omega

/-! ## Bytes -/

theorem decodeUtf8Lossy_of_ok {b : UInt8} {c : Char} {bytes left : List UInt8}
    (read : readChar b bytes = .ok (c, left)) :
    decodeUtf8Lossy (b :: bytes) = c :: decodeUtf8Lossy left := by
  rw [decodeUtf8Lossy]
  split
  next read' =>
    cases read.symm.trans read'
    rfl
  next read' => cases read.symm.trans read'

theorem decodeUtf8Lossy_of_error {b : UInt8} {bytes left : List UInt8}
    (read : readChar b bytes = .error left) :
    decodeUtf8Lossy (b :: bytes) = '\uFFFD' :: decodeUtf8Lossy left := by
  rw [decodeUtf8Lossy]
  split
  next read' => cases read.symm.trans read'
  next read' =>
    cases read.symm.trans read'
    rfl

/-- A character of ASCII is one byte. -/
theorem utf8EncodeChar_of_ascii {c : Char} (ascii : c.toNat < 0x80) :
    String.utf8EncodeChar c = [UInt8.ofNat c.toNat] :=
  if_pos (Nat.le_of_lt_succ ascii)

/-- ASCII text is decoded to itself, whatever bytes follow it. -/
theorem decodeUtf8Lossy_append {cs : List Char} (ascii : ∀ c ∈ cs, c.toNat < 0x80)
    (rest : List UInt8) :
    decodeUtf8Lossy (cs.flatMap String.utf8EncodeChar ++ rest) = cs ++ decodeUtf8Lossy rest := by
  induction cs with
  | nil => rfl
  | cons c cs ih =>
      have small := ascii c List.mem_cons_self
      have byte : (UInt8.ofNat c.toNat).toNat = c.toNat := by
        rw [UInt8.toNat_ofNat']
        omega
      have read : readChar (UInt8.ofNat c.toNat) (cs.flatMap String.utf8EncodeChar ++ rest) =
          .ok (c, cs.flatMap String.utf8EncodeChar ++ rest) := by
        rw [readChar, byte, if_pos small, Char.ofNat_toNat]
      rw [List.flatMap_cons, utf8EncodeChar_of_ascii small, List.singleton_append, List.cons_append,
        decodeUtf8Lossy_of_ok read, ih fun d member => ascii d (.tail _ member), List.cons_append]

/-! ## Lines -/

/-- A line of printable text ends at its line feed. -/
theorem splitLinesFrom_append {line done : List Char} (printable : ∀ c ∈ line, Printable c)
    (opened : Bool) (rest : List Char) :
    splitLinesFrom done opened (line ++ '\n' :: rest) = (done.reverse ++ line) :: splitLines rest := by
  induction line generalizing done opened with
  | nil =>
      rw [List.nil_append, List.append_nil]
      rfl
  | cons c line ih =>
      have first := printable c List.mem_cons_self
      have notReturn : c ≠ '\r' := by
        rintro rfl
        exact absurd first.1 (by decide)
      rw [List.cons_append, splitLinesFrom, first.not_boundary, if_neg Bool.false_ne_true,
        ih (fun d member => printable d (.tail _ member)), List.reverse_cons, List.append_assoc,
        List.singleton_append]
      rintro more same _
      exact notReturn same

/-- Lines of printable text, each with its end, are split into the lines. -/
theorem splitLines_flatMap {lines : List (List Char)}
    (printable : ∀ line ∈ lines, ∀ c ∈ line, Printable c) :
    splitLines (lines.flatMap (· ++ ['\n'])) = lines := by
  induction lines with
  | nil => rfl
  | cons line lines ih =>
      rw [List.flatMap_cons, List.append_assoc, List.singleton_append, splitLines,
        splitLinesFrom_append (printable line List.mem_cons_self),
        ih fun other member => printable other (.tail _ member), List.reverse_nil, List.nil_append]

/-! ## A line feed among any bytes -/

/-- The second byte of a character is no ASCII. -/
theorem low_of_leadByte? {b : Nat} {lead : LeadByte} (found : leadByte? b = some lead) :
    0x80 ≤ lead.low := by
  unfold leadByte? at found
  grind

/-- A line feed is no part of a character that has begun before it, so reading the rest of a character
does not depend on what comes from the line feed on. -/
theorem readTail_lineFeed {low : Nat} (least : 0x80 ≤ low) (tail value high : Nat)
    (bytes more : List UInt8) :
    readTail tail value low high (bytes ++ 0x0A :: more) =
      match readTail tail value low high bytes with
      | .ok (n, left) => .ok (n, left ++ 0x0A :: more)
      | .error left => .error (left ++ 0x0A :: more) := by
  induction tail generalizing value low high bytes with
  | zero => rfl
  | succ tail ih =>
      cases bytes with
      | nil =>
          have short : ¬low ≤ (0x0A : UInt8).toNat :=
            Nat.not_le.mpr (Nat.lt_of_lt_of_le (by decide) least)
          simp only [List.nil_append, readTail, short, false_and, if_false]
      | cons b bytes =>
          rw [List.cons_append, readTail, readTail]
          split
          next => exact ih (Nat.le_refl _) _ _ bytes
          next => rfl

/-- Nor does reading a whole character. -/
theorem readChar_lineFeed (b : UInt8) (bytes more : List UInt8) :
    readChar b (bytes ++ 0x0A :: more) =
      match readChar b bytes with
      | .ok (c, left) => .ok (c, left ++ 0x0A :: more)
      | .error left => .error (left ++ 0x0A :: more) := by
  unfold readChar
  split
  next => rfl
  next =>
    split
    next => rfl
    next lead found =>
      rw [readTail_lineFeed (low_of_leadByte? found)]
      cases readTail lead.tail lead.bits lead.low lead.high bytes <;> rfl

/-- What stands before a line feed and what stands behind it are decoded apart. -/
theorem decodeUtf8Lossy_lineFeed (bytes more : List UInt8) :
    decodeUtf8Lossy (bytes ++ 0x0A :: more) =
      decodeUtf8Lossy bytes ++ '\n' :: decodeUtf8Lossy more := by
  induction bytes using decodeUtf8Lossy.induct with
  | case1 =>
      have feed : readChar 0x0A more = .ok ('\n', more) := rfl
      rw [List.nil_append, decodeUtf8Lossy_of_ok feed, decodeUtf8Lossy]
      rfl
  | case2 b bytes c left read ih =>
      have longer := readChar_lineFeed b bytes more
      rw [read] at longer
      rw [List.cons_append, decodeUtf8Lossy_of_ok longer, decodeUtf8Lossy_of_ok read, ih,
        List.cons_append]
  | case3 b bytes left read ih =>
      have longer := readChar_lineFeed b bytes more
      rw [read] at longer
      rw [List.cons_append, decodeUtf8Lossy_of_error longer, decodeUtf8Lossy_of_error read, ih,
        List.cons_append]

/-- A line feed ends the line before it, whatever comes behind. -/
theorem splitLinesFrom_lineFeed (line : List Char) (opened : Bool) (before rest : List Char) :
    splitLinesFrom line opened (before ++ '\n' :: rest) =
      splitLinesFrom line opened (before ++ ['\n']) ++ splitLines rest := by
  induction line, opened, before using splitLinesFrom.induct with
  | case1 line => rfl
  | case2 line => rfl
  | case3 line opened before ih => simp only [List.cons_append, splitLinesFrom, ih]
  | case4 line opened c before notPair boundary ih =>
      by_cases alone : c = '\r' ∧ before = []
      · -- a carriage return just before the line feed is one boundary with it
        obtain ⟨rfl, rfl⟩ := alone
        rfl
      · have still : ∀ behind more, c = '\r' → before ++ '\n' :: behind = '\n' :: more → False := by
          intro behind more same next
          cases before with
          | nil => exact alone ⟨same, rfl⟩
          | cons d before => exact notPair before same (by rw [(List.cons.inj next).1])
        rw [List.cons_append, List.cons_append, splitLinesFrom, splitLinesFrom, if_pos boundary,
          if_pos boundary, ih, List.cons_append]
        · exact still _
        · exact still _
  | case5 line opened c before notPair inner ih =>
      have still : c ≠ '\r' := by
        rintro rfl
        exact inner (by decide)
      rw [List.cons_append, List.cons_append, splitLinesFrom, splitLinesFrom, if_neg inner,
        if_neg inner, ih]
      · exact fun _ same _ => still same
      · exact fun _ same _ => still same

/-! ## Trimming -/

theorem dropWhile_of_head? {p : Char → Bool} {cs : List Char}
    (first : ∀ c, cs.head? = some c → p c = false) : cs.dropWhile p = cs := by
  cases cs with
  | nil => rfl
  | cons c cs => exact List.dropWhile_cons_of_neg (Bool.eq_false_iff.mp (first c rfl))

/-- A text with no blank at either end is not trimmed. -/
theorem strip_of_edges {cs : List Char} (first : ∀ c, cs.head? = some c → isBlank c = false)
    (last : ∀ c, cs.getLast? = some c → isBlank c = false) : strip cs = cs := by
  rw [← List.head?_reverse] at last
  rw [strip, trimBoth, dropWhile_of_head? first, dropWhile_of_head? last, List.reverse_reverse]

end LessonCalc.Text
