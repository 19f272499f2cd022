/-!
# The program

How the program calls itself where it answers.
-/

namespace LessonCalc

/-- The name of the program. -/
def programName : String := "calcblocks"

/-- The version of the program. -/
def version : String := "0.4.0"

end LessonCalc
