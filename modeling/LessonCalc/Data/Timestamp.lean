import LessonCalc.Data.Calendar
import LessonCalc.Text.Digit

/-!
# Dates and times

A date is written as year, month and day; a time of the day, a fraction of a second and the distance
to universal time may follow.  Two times that tell their distance to universal time are the same if
they name the same moment; all others are the same only if they are written alike.
-/

namespace LessonCalc

open LessonCalc.Text LessonCalc.Number LessonCalc.Calendar

/-- The time of a day.  The distance to universal time is in minutes. -/
structure ClockTime where
  hour : Nat
  minute : Nat
  second : Nat
  micros : Nat := 0
  distance? : Option Int := none
  deriving Repr, DecidableEq

/-- A date, and the time of the day if it is told. -/
structure Timestamp where
  year : Nat
  month : Nat
  day : Nat
  clock? : Option ClockTime := none
  deriving Repr, DecidableEq

namespace Timestamp

/-- The date. -/
def date (t : Timestamp) : Date :=
  ⟨t.year, t.month, t.day⟩

/-! ## Reading -/

/-- A space or tab. -/
def isSpaceOrTab (c : Char) : Bool :=
  c == ' ' || c == '\t'

/-- Reads digits, as many as there are but within the given counts. -/
def digits? (least most : Nat) (cs : List Char) : Option (Nat × List Char) :=
  let run := (cs.takeWhile Char.isDigit).take most
  if run.length < least then none
  else some (run.foldl (fun n d => n * 10 + (asciiDigit? d).getD 0) 0, cs.drop run.length)

/-- Reads a character. -/
def mark? (x : Char) : List Char → Option (List Char)
  | c :: cs => if c = x then some cs else none
  | [] => none

/-- Reads a fraction of a second, of which six digits count. -/
def fraction (cs : List Char) : Nat × List Char :=
  match cs with
  | '.' :: rest =>
    let run := rest.takeWhile Char.isDigit
    let six := (run ++ List.replicate 6 '0').take 6
    (six.foldl (fun n d => n * 10 + (asciiDigit? d).getD 0) 0, rest.drop run.length)
  | _ => (0, cs)

/-- Reads the distance to universal time, which ends the text. -/
def readDistance? (cs : List Char) : Option (Option Int) :=
  match cs.dropWhile isSpaceOrTab with
  | [] => if cs.isEmpty then some none else none
  | ['Z'] => some (some 0)
  | sign :: rest => do
    let factor : Int ← if sign = '+' then some 1 else if sign = '-' then some (-1) else none
    let (hours, rest) ← digits? 1 2 rest
    match rest with
    | [] => some (some (factor * (hours * 60)))
    | ':' :: rest =>
      let (minutes, rest) ← digits? 2 2 rest
      if rest.isEmpty then some (some (factor * (hours * 60 + minutes))) else none
    | _ => none

/-- Reads the time of a day, which ends the text. -/
def readClock? (cs : List Char) : Option ClockTime := do
  let (hour, cs) ← digits? 1 2 cs
  let (minute, cs) ← digits? 2 2 (← mark? ':' cs)
  let (second, cs) ← digits? 2 2 (← mark? ':' cs)
  let (micros, cs) := fraction cs
  let distance? ← readDistance? cs
  return { hour, minute, second, micros, distance? }

/-- Reads a date with or without a time. -/
def ofText? (cs : List Char) : Option Timestamp := do
  let (year, cs) ← digits? 4 4 cs
  let (month, cs) ← digits? 1 2 (← mark? '-' cs)
  let (day, cs) ← digits? 1 2 (← mark? '-' cs)
  match cs with
  | [] => some { year, month, day }
  | c :: rest =>
    if c = 'T' ∨ c = 't' then
      let clock ← readClock? rest
      return { year, month, day, clock? := some clock }
    else if isSpaceOrTab c then
      let clock ← readClock? (rest.dropWhile isSpaceOrTab)
      return { year, month, day, clock? := some clock }
    else none

/-! ## Checking -/

/-- A length of time in minutes as it is told in messages. -/
def durationText (minutes : Int) : String :=
  let days := minutes.fdiv 1440
  let seconds := minutes.fmod 1440 * 60
  let parts :=
    (if days = 0 then [] else ["days=" ++ intText days]) ++
      (if seconds = 0 then [] else ["seconds=" ++ intText seconds])
  "datetime.timedelta(" ++ (if parts.isEmpty then "0" else String.intercalate ", " parts) ++ ")"

/-- Why there is no such date or time. -/
def fault? (t : Timestamp) : Option String :=
  let distance := (t.clock?.bind (·.distance?)).getD 0
  if distance ≤ -1440 ∨ 1440 ≤ distance then
    some ("offset must be a timedelta strictly between -timedelta(hours=24) and " ++
      "timedelta(hours=24), not " ++ durationText distance ++ ".")
  else if t.year = 0 then some "year 0 is out of range"
  else if t.month = 0 ∨ 12 < t.month then some "month must be in 1..12"
  else if t.day = 0 ∨ daysIn t.year t.month < t.day then some "day is out of range for month"
  else
    match t.clock? with
    | none => none
    | some c =>
      if 23 < c.hour then some "hour must be in 0..23"
      else if 59 < c.minute then some "minute must be in 0..59"
      else if 59 < c.second then some "second must be in 0..59"
      else none

/-! ## Comparing -/

/-- The microseconds from the start of the calendar to the time of a day, in universal time. -/
def moment (date : Date) (clock : ClockTime) (distance : Int) : Int :=
  let minutes : Int := (date.number * 24 + clock.hour) * 60 + clock.minute
  ((minutes - distance) * 60 + clock.second) * 1000000 + clock.micros

/-- Whether two dates or times are the same. -/
def isSame (s t : Timestamp) : Bool :=
  match s.clock?, t.clock? with
  | some c, some d =>
    match c.distance?, d.distance? with
    | some m, some n => moment s.date c m == moment t.date d n
    | _, _ => s == t
  | _, _ => s == t

/-! ## Writing -/

/-- The distance to universal time as text. -/
def distanceText (minutes : Int) : String :=
  let sign := if minutes < 0 then "-" else "+"
  sign ++ padded 2 (minutes.natAbs / 60) ++ ":" ++ padded 2 (minutes.natAbs % 60)

/-- A date or time as text. -/
def text (t : Timestamp) : String :=
  match t.clock? with
  | none => t.date.text
  | some c =>
    let fraction := if c.micros = 0 then "" else "." ++ padded 6 c.micros
    let distance := match c.distance? with
      | some minutes => distanceText minutes
      | none => ""
    t.date.text ++ " " ++ padded 2 c.hour ++ ":" ++ padded 2 c.minute ++ ":" ++
      padded 2 c.second ++ fraction ++ distance

end Timestamp

end LessonCalc
