/-!
# The order of texts

Texts are ordered by the code points of their characters, a text before its continuations.
-/

namespace LessonCalc.Text

/-- Whether a text comes no later than another. -/
def textLe (a b : String) : Bool :=
  !decide (b < a)

/-- Texts in increasing order. -/
def sortTexts (texts : List String) : List String :=
  texts.mergeSort textLe

end LessonCalc.Text
