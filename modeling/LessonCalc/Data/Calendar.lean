import LessonCalc.Number.Layout

/-!
# The calendar

Years, months and days, and the text of a moment.  A moment is counted in microseconds of universal
time from the start of the year 1970.
-/

namespace LessonCalc.Calendar

open LessonCalc.Number

/-! ## Dates -/

/-- Whether a year has a leap day. -/
def isLeap (year : Nat) : Bool :=
  year % 4 == 0 && (year % 100 != 0 || year % 400 == 0)

/-- How many days a month has. -/
def daysIn (year month : Nat) : Nat :=
  if month = 2 then (if isLeap year then 29 else 28)
  else if month = 4 ∨ month = 6 ∨ month = 9 ∨ month = 11 then 30
  else 31

/-- A day of a month of a year. -/
structure Date where
  year : Nat
  month : Nat
  day : Nat
  deriving Repr, DecidableEq

/-- The days of four hundred years, after which the calendar starts over. -/
def cycleDays : Nat := 146097

/-- The days from the first of March of the year 0 to the start of the year 1970. -/
def daysBefore1970 : Nat := 719468

/-- The date of a day, counted from the start of the year 1970.  Years are taken to start in March,
so that a leap day is the last day of its year. -/
def dateOfDay (day : Nat) : Date :=
  let count := day + daysBefore1970
  let rest := count % cycleDays
  let years := (rest - rest / 1460 + rest / 36524 - rest / 146096) / 365
  let dayOfYear := rest - (365 * years + years / 4 - years / 100)
  let march := (5 * dayOfYear + 2) / 153
  let month := if march < 10 then march + 3 else march - 9
  let year := 400 * (count / cycleDays) + years
  { year := if month ≤ 2 then year + 1 else year
    month
    day := dayOfYear - (153 * march + 2) / 5 + 1 }

/-- The number of a day, counted from the first of March of the year 0. -/
def Date.number (d : Date) : Nat :=
  let year := if d.month ≤ 2 then d.year - 1 else d.year
  let march := (d.month + 9) % 12
  365 * year + year / 4 - year / 100 + year / 400 + (153 * march + 2) / 5 + (d.day - 1)

/-! ## Texts -/

/-- A number with leading zeros up to a width. -/
def padded (width n : Nat) : String :=
  String.ofList (padZeros width (natChars n))

/-- A date as text. -/
def Date.text (d : Date) : String :=
  padded 4 d.year ++ "-" ++ padded 2 d.month ++ "-" ++ padded 2 d.day

/-- The time of a day in seconds, as text. -/
def clockText (seconds : Nat) : String :=
  padded 2 (seconds / 3600) ++ ":" ++ padded 2 (seconds / 60 % 60) ++ ":" ++ padded 2 (seconds % 60)

/-- A moment as text. -/
def momentText (micros : Nat) : String :=
  let seconds := micros / 1000000
  (dateOfDay (seconds / 86400)).text ++ "T" ++ clockText (seconds % 86400) ++ "." ++
    padded 6 (micros % 1000000) ++ "Z"

end LessonCalc.Calendar
