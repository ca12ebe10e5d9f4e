/-
Shifting instants by a period and rounding them to its buckets.

Buckets of a fixed length are the multiples of the length since the epoch;
those of whole weeks start on Mondays. Buckets of months start on the first day
of a month and those of years alone on the first day of a year, however many
the period has.
-/
import DetectionPlan.Period.Basic

namespace DetectionPlan.Period

/-- An instant that has a date, or the failure for one that has none. -/
def withDate (millis : Int) : Outcome Moment :=
  match moment? millis with
  | some m => .ok m
  | none => .error (.timeOutOfRange millis)

/-- Move a moment by months, which a signed 32-bit word has to hold, and then by
milliseconds. Both steps stay within the calendar. -/
def shift? (m : Moment) (months : Int) (millis : Int) : Option Int :=
  if months.natAbs < 2147483648 then
    let date := if months == 0 then m.date else m.date.addMonths months
    let moved := (Moment.mk date m.time).toMillis
    let shifted := moved + millis
    if hasDate moved && hasDate shifted then some shifted else none
  else none

/-- `millis` later by the period. -/
def addTo (p : Period) (millis : Int) : Outcome Int := do
  let m ← withDate millis
  let months ← p.calendarMonths
  match shift? m months p.fixedPart with
  | some shifted => .ok shifted
  | none => .error (.timeOutOfRange millis)

/-- `millis` earlier by the period. -/
def subtractFrom (p : Period) (millis : Int) : Outcome Int := do
  let m ← withDate millis
  let months ← p.calendarMonths
  match shift? m (-months) (-p.fixedPart) with
  | some shifted => .ok shifted
  | none => .error (.timeOutOfRange millis)

/-- The first Monday after the epoch, where buckets of whole weeks start. -/
def firstMonday : Int := 4 * dayMillis

/-- A bucket start of a period of fixed length. -/
def origin (p : Period) : Int :=
  if 0 < p.weeks && p.fixedPart % weekMillis == 0 then firstMonday else 0

/-- The start of the month of a date, or of its year when the period has years
alone. -/
def calendarFloor (p : Period) (d : Date) : Date :=
  { year := d.year, month := if p.months == 0 then 0 else d.month, day := 1 }

/-- The start of the bucket that an instant falls into. -/
def floor (p : Period) (millis : Int) : Outcome Int := do
  if p.isZero then throw (.invalidPeriod p.text .emptyBucket)
  if p.isCalendar then
    let m ← withDate millis
    .ok (Moment.mk (p.calendarFloor m.date) 0).toMillis
  else
    let length := p.fixedPart
    let floored := (int64? (millis - p.origin)).bind fun shifted =>
      (int64? (shifted / length * length)).bind fun multiple => int64? (multiple + p.origin)
    match floored with
    | some start => .ok start
    | none => .error (.timeOutOfRange millis)

/-- The first bucket start that is not before an instant. -/
def firstBucketAtOrAfter (p : Period) (millis : Int) : Outcome Int := do
  let floored ← p.floor millis
  if floored == millis then .ok millis else p.addTo floored

/-- The last bucket start before an instant. -/
def lastBucketBefore (p : Period) (millis : Int) : Outcome Int := do
  let floored ← p.floor millis
  if floored == millis then p.subtractFrom millis else .ok floored

end DetectionPlan.Period
