/-
Periods of time as a number of each unit. Weeks and the units below them have a
fixed length; months and years go along the calendar.
-/
import DetectionPlan.Error
import DetectionPlan.Calendar.Instant

namespace DetectionPlan

/-- A period: how many of each unit. -/
structure Period where
  years : UInt32 := 0
  months : UInt32 := 0
  weeks : UInt32 := 0
  days : UInt32 := 0
  hours : UInt32 := 0
  minutes : UInt32 := 0
  seconds : UInt32 := 0
  millis : UInt32 := 0
deriving DecidableEq, Repr, Inhabited

namespace Period

/-- The period of no length. -/
def zero : Period := {}

def isZero (p : Period) : Bool := p == zero

/-- Whether the period goes along the calendar. -/
def isCalendar (p : Period) : Bool := 0 < p.years || 0 < p.months

/-- The length of the units that have one. -/
def fixedPart (p : Period) : Int :=
  p.weeks.toNat * weekMillis + p.days.toNat * dayMillis + p.hours.toNat * hourMillis +
    p.minutes.toNat * minuteMillis + p.seconds.toNat * secondMillis + p.millis.toNat

/-- The length of a period that does not go along the calendar. -/
def fixedMillis? (p : Period) : Option Int := if p.isCalendar then none else some p.fixedPart

/-- One unit of the period's text, when there are any. -/
def unitText (n : UInt32) (unit : String) : String :=
  if 0 < n then toString n.toNat ++ unit else ""

/-- Whether the period has units below a day. -/
def hasTime (p : Period) : Bool := 0 < p.hours || 0 < p.minutes || 0 < p.seconds || 0 < p.millis

/-- Seconds with their thousandths, which show only when there are any. -/
def secondsText (p : Period) : String :=
  if 0 < p.millis then toString p.seconds.toNat ++ "." ++ padZeros 3 p.millis.toNat ++ "S"
  else unitText p.seconds "S"

/-- The text of a period: the units it has, from the largest down. -/
def text (p : Period) : String :=
  if p.isZero then "P0D"
  else
    "P" ++ unitText p.years "Y" ++ unitText p.months "M" ++ unitText p.weeks "W" ++
      unitText p.days "D" ++
      (if p.hasTime then
        "T" ++ unitText p.hours "H" ++ unitText p.minutes "M" ++ p.secondsText
      else "")

/-- The number of months that the calendar units come to, which a 32-bit word
has to hold. -/
def calendarMonths (p : Period) : Outcome Nat :=
  let months := p.years.toNat * 12 + p.months.toNat
  if months ≤ maxWord32 then .ok months else .error (.invalidPeriod p.text .tooManyMonths)

end Period

end DetectionPlan
