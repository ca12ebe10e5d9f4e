/-
Reading dates, times of the day and whole instants from text. A reader takes
characters from the front and answers with what it has read and the rest.
-/
import DetectionPlan.Calendar.Instant
import DetectionPlan.Text.Number

namespace DetectionPlan.Calendar

/-- A fixed number of decimal digits. -/
def fixedDigits (count : Nat) (cs : List Char) : Option (Nat × List Char) :=
  let taken := cs.take count
  if taken.length < count || !taken.all Char.isDigit then none
  else some (digitsValue taken, cs.drop count)

/-- A number of two digits within bounds. -/
def twoDigits (low high : Nat) (cs : List Char) : Option (Nat × List Char) := do
  let (n, rest) ← fixedDigits 2 cs
  if low ≤ n && n ≤ high then some (n, rest) else none

/-- A character that has to stand here. -/
def expect (c : Char) : List Char → Option (List Char)
  | d :: rest => if d == c then some rest else none
  | [] => none

/-- A date of the calendar with a year of four digits. -/
def readDate (cs : List Char) : Option (Date × List Char) := do
  let (year, rest) ← fixedDigits 4 cs
  let (month, rest) ← twoDigits 1 12 (← expect '-' rest)
  let (day, rest) ← twoDigits 1 (monthLength year (month - 1)) (← expect '-' rest)
  return ({ year, month := month - 1, day }, rest)

/-- The time of the day in whole seconds. A minute may have a sixty-first
second. -/
structure ClockTime where
  hour : Nat
  minute : Nat
  second : Nat
deriving DecidableEq, Repr

def readClock (cs : List Char) : Option (ClockTime × List Char) := do
  let (hour, rest) ← twoDigits 0 23 cs
  let (minute, rest) ← twoDigits 0 59 (← expect ':' rest)
  let (second, rest) ← twoDigits 0 60 (← expect ':' rest)
  return ({ hour, minute, second }, rest)

/-- Hours and minutes of an offset from UTC. -/
def readHours (cs : List Char) : Option ((Nat × Nat) × List Char) := do
  let (hour, rest) ← twoDigits 0 23 cs
  let (minute, rest) ← twoDigits 0 59 (← expect ':' rest)
  return ((hour, minute), rest)

/-- The digits of a fraction after its point; none when there is no fraction. -/
def readFraction : List Char → Option (List Char × List Char)
  | '.' :: rest =>
    match rest.span Char.isDigit with
    | ([], _) => none
    | (digits, rest) => some (digits, rest)
  | cs => some ([], cs)

/-- An offset from UTC in minutes. -/
def readOffset : List Char → Option (Int × List Char)
  | c :: rest =>
    if c == 'Z' || c == 'z' then some (0, rest)
    else if c == '+' then
      (readHours rest).map fun ((h, m), rest) => ((h : Int) * 60 + m, rest)
    else if c == '-' || c == '\u2212' then
      (readHours rest).map fun ((h, m), rest) => (-((h : Int) * 60 + m), rest)
    else none
  | [] => none

/-- The milliseconds of a fraction of a second, rounded down. -/
def fractionMillis (digits : List Char) : Nat :=
  digitsValue ((digits ++ ['0', '0', '0']).take 3)

/-- An instant written as date and time with an offset from UTC, in milliseconds
since the epoch. -/
def readInstant? (text : String) : Option Int := do
  let (date, rest) ← readDate text.toList
  let (clock, rest) ← match rest with
    | c :: rest => if c == 'T' || c == 't' || c == ' ' then readClock rest else none
    | [] => none
  let (fraction, rest) ← readFraction rest
  let (offset, rest) ← readOffset rest
  if rest.isEmpty then
    let seconds : Int := clock.hour * 3600 + clock.minute * 60 + clock.second
    some (date.toDays * dayMillis + seconds * secondMillis + fractionMillis fraction -
      offset * minuteMillis)
  else none

end DetectionPlan.Calendar
