/-
Dates of the proleptic Gregorian calendar and their number of days since
1970-01-01. Years before year 1 count down through 0.
-/

namespace DetectionPlan

/-- Whether a year has a 29th of February. -/
def isLeapYear (year : Int) : Bool :=
  year % 4 == 0 && (year % 100 != 0 || year % 400 == 0)

/-- The lengths of the months of a year. -/
def monthLengths (year : Int) : List Nat :=
  [31, if isLeapYear year then 29 else 28, 31, 30, 31, 30, 31, 31, 30, 31, 30, 31]

/-- The length of a month counted from 0. -/
def monthLength (year : Int) (month : Nat) : Nat := (monthLengths year).getD month 0

/-- The days from 0001-01-01 to the first day of a year. -/
def daysBeforeYear (year : Int) : Int :=
  let y := year - 1
  365 * y + y / 4 - y / 100 + y / 400

/-- The days from 0001-01-01 to 1970-01-01. -/
def daysBeforeEpoch : Int := 719162

/-- The days from the start of a year to the first day of a month counted
from 0. -/
def daysBeforeMonth (year : Int) (month : Nat) : Nat :=
  ((monthLengths year).take month).foldl (· + ·) 0

/-- A date. The month counts from 0 and the day from 1. -/
structure Date where
  year : Int
  month : Nat
  day : Nat
deriving DecidableEq, Repr, Inhabited

namespace Date

/-- The number of days since 1970-01-01. -/
def toDays (d : Date) : Int :=
  daysBeforeYear d.year + daysBeforeMonth d.year d.month + d.day - 1 - daysBeforeEpoch

/-- The year that a day counted from 0001-01-01 falls into. The guess by the
mean length of a year is off by at most one. -/
def yearOfDay (n : Int) : Int :=
  let guess := n * 400 / 146097 + 1
  if n < daysBeforeYear guess then guess - 1
  else if daysBeforeYear (guess + 1) ≤ n then guess + 1
  else guess

/-- Walk the months until one holds the day. Answers month and day, both
counted from 0. -/
def monthOfDay : List Nat → Nat → Nat × Nat
  | [], n => (0, n)
  | length :: rest, n =>
    if n < length then (0, n)
    else
      let (month, day) := monthOfDay rest (n - length)
      (month + 1, day)

/-- The date of a number of days since 1970-01-01. -/
def ofDays (days : Int) : Date :=
  let n := days + daysBeforeEpoch
  let year := yearOfDay n
  let (month, day) := monthOfDay (monthLengths year) (n - daysBeforeYear year).toNat
  ⟨year, month, day + 1⟩

/-- The same day some months later or earlier; a day that the month does not
have becomes its last. -/
def addMonths (d : Date) (months : Int) : Date :=
  let index := d.year * 12 + d.month + months
  let year := index / 12
  let month := (index % 12).toNat
  ⟨year, month, min d.day (monthLength year month)⟩

/-- The day of the week counted from Monday as 0. -/
def weekday (d : Date) : Nat := ((d.toDays + 3) % 7).toNat

end Date

end DetectionPlan
