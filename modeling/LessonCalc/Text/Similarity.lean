import LessonCalc.Text.Order
import LessonCalc.Text.Quoted

/-!
# Similar words

How much two words have in common: the longest run of characters that stands in both, and on each
side of it again the longest such run.  A mistyped word is answered by the known words that have
enough in common with it.
-/

namespace LessonCalc.Text

/-- How many characters two texts have in common at their front. -/
def commonFront : List Char → List Char → Nat
  | a :: as, b :: bs => if a = b then commonFront as bs + 1 else 0
  | _, _ => 0

/-- A run of characters that stands in two words, by its two places and its length. -/
structure SharedRun where
  left : Nat := 0
  right : Nat := 0
  length : Nat := 0
  deriving Repr, DecidableEq

/-- The longer of two runs, and of two equally long ones the first. -/
def SharedRun.longer (a b : SharedRun) : SharedRun :=
  if a.length < b.length then b else a

/-- The longest run that two words share: the one that starts first in the left word, and then in
the right word. -/
def longestShared (as bs : List Char) : SharedRun :=
  let places := (List.range as.length).flatMap fun i =>
    (List.range bs.length).map fun j => (i, j)
  places.foldl (fun best (i, j) =>
    best.longer ⟨i, j, commonFront (as.drop i) (bs.drop j)⟩) {}

/-- How many characters two words share, in at most `depth` levels of runs. -/
def sharedWithin : Nat → List Char → List Char → Nat
  | 0, _, _ => 0
  | depth + 1, as, bs =>
    let run := longestShared as bs
    if run.length = 0 then 0
    else
      run.length + sharedWithin depth (as.take run.left) (bs.take run.right) +
        sharedWithin depth (as.drop (run.left + run.length)) (bs.drop (run.right + run.length))

/-- How many characters two words share. -/
def shared (a b : String) : Nat :=
  sharedWithin (a.length + 1) a.toList b.toList

/-- How much a known word has in common with a given one: the shared characters out of all
characters of both. -/
structure Likeness where
  word : String
  shared : Nat
  total : Nat
  deriving Repr, DecidableEq

/-- The likeness of a known word to a given one. -/
def likeness (given word : String) : Likeness :=
  ⟨word, shared word given, word.length + given.length⟩

/-- Whether at least three fifths of all characters are shared ones, where each counts twice. -/
def Likeness.isClose (l : Likeness) : Bool :=
  3 * l.total ≤ 10 * l.shared

/-- Whether a likeness comes no later than another: the greater share first, and of equal shares the
greater word. -/
def Likeness.le (a b : Likeness) : Bool :=
  if a.shared * b.total = b.shared * a.total then !decide (a.word < b.word)
  else b.shared * a.total < a.shared * b.total

/-- The most words that are suggested. -/
def suggestionLimit : Nat := 3

/-- The known words that are close to a given one, in increasing order. -/
def closeWords (given : String) (known : List String) : List String :=
  let close := ((known.map (likeness given)).filter Likeness.isClose).mergeSort Likeness.le
  sortTexts ((close.take suggestionLimit).map Likeness.word)

/-- A message with the words that may have been meant. -/
def withSuggestions (message : String) (words : List String) : String :=
  match words with
  | [] => message
  | [word] => s!"{message} Did you mean {quote word}?"
  | words =>
    let listed := String.intercalate ", " (words.map quote)
    s!"{message} (Did you mean one of: {listed}?)"

end LessonCalc.Text
