/-!
# Parts of a text

A text is cut at a character, which belongs to no part: at every place where it stands, or at the
first of them.
-/

namespace LessonCalc.Text

/-- The parts of a text between the places where a character stands.  There is one part more than
there are such places. -/
def splitAll (mark : Char) : List Char → List (List Char)
  | [] => [[]]
  | c :: cs =>
    if c = mark then [] :: splitAll mark cs
    else
      match splitAll mark cs with
      | part :: parts => (c :: part) :: parts
      | [] => [[c]]

/-- The parts of a text before and behind the first place where a character stands.  Without such a
place all of the text comes before it. -/
def cutFirst (mark : Char) : List Char → List Char × Option (List Char)
  | [] => ([], none)
  | c :: cs =>
    if c = mark then ([], some cs)
    else
      let (before, behind) := cutFirst mark cs
      (c :: before, behind)

end LessonCalc.Text
