/-
Instants: milliseconds since 1970-01-01T00:00 in UTC. The calendar reaches from
the first day of year -262143 to the last millisecond of year 262142; instants
outside it exist as numbers and have no date.
-/
import DetectionPlan.Calendar.Date
import DetectionPlan.Text.Number

namespace DetectionPlan

def secondMillis : Int := 1000
def minuteMillis : Int := 60 * secondMillis
def hourMillis : Int := 60 * minuteMillis
def dayMillis : Int := 24 * hourMillis
def weekMillis : Int := 7 * dayMillis

/-- The first instant that has a date. -/
def firstInstant : Int := -8334601228800000

/-- The last instant that has a date. -/
def lastInstant : Int := 8210266876799999

/-- Whether an instant has a date. -/
def hasDate (millis : Int) : Bool := firstInstant ≤ millis && millis ≤ lastInstant

/-- Date and time of day of an instant. -/
structure Moment where
  date : Date
  /-- Milliseconds since midnight. -/
  time : Nat
deriving DecidableEq, Repr

namespace Moment

def ofMillis (millis : Int) : Moment :=
  ⟨Date.ofDays (millis / dayMillis), (millis % dayMillis).toNat⟩

def toMillis (m : Moment) : Int := m.date.toDays * dayMillis + m.time

def hour (m : Moment) : Nat := m.time / 3600000
def minute (m : Moment) : Nat := m.time / 60000 % 60
def second (m : Moment) : Nat := m.time / 1000 % 60
def millisecond (m : Moment) : Nat := m.time % 1000

end Moment

/-- Date and time of an instant within the calendar. -/
def moment? (millis : Int) : Option Moment :=
  if hasDate millis then some (Moment.ofMillis millis) else none

/-- Four digits for a year from 0 to 9999; any other year has a sign and at
least four digits. -/
def yearText (year : Int) : String :=
  if 0 ≤ year && year ≤ 9999 then padZeros 4 year.toNat
  else (if year < 0 then "-" else "+") ++ padZeros 4 year.natAbs

/-- An instant as date and time with offset. Milliseconds show only when there
are any. -/
def Moment.text (m : Moment) : String :=
  let fraction := if m.millisecond == 0 then "" else "." ++ padZeros 3 m.millisecond
  yearText m.date.year ++ "-" ++ padZeros 2 (m.date.month + 1) ++ "-" ++ padZeros 2 m.date.day ++
    "T" ++ padZeros 2 m.hour ++ ":" ++ padZeros 2 m.minute ++ ":" ++ padZeros 2 m.second ++
    fraction ++ "+00:00"

end DetectionPlan
