/-
Date patterns: runs of letters that stand for parts of a date, and literal text
around them. Text between single quotes is literal whatever it holds, and two
quotes side by side are one literal quote.
-/
import DetectionPlan.Period.Bucket

namespace DetectionPlan

/-- The parts of a date that are written as plain numbers. -/
inductive DatePart where
  | month | day | hour
  /-- The hour on the face of a clock, from 1 to 12. -/
  | clockHour
  | minute | second
deriving DecidableEq, Repr, Inhabited

/-- What a pattern writes. -/
inductive PatternItem where
  | text (c : Char)
  | year
  /-- The last two digits of the year. -/
  | shortYear
  | number (part : DatePart) (padded : Bool)
  | millis
  | monthName (full : Bool)
  | weekdayName (full : Bool)
  /-- Which half of the day it is. -/
  | halfDay
  /-- How far the time is from UTC, which it never is. -/
  | offset (colon : Bool)
deriving DecidableEq, Repr, Inhabited

namespace PatternItem

def monthNames : List String := [
  "January", "February", "March", "April", "May", "June", "July", "August", "September",
  "October", "November", "December"]

def weekdayNames : List String := [
  "Monday", "Tuesday", "Wednesday", "Thursday", "Friday", "Saturday", "Sunday"]

/-- A name in full, or its first three letters. -/
def nameText (names : List String) (i : Nat) (full : Bool) : String :=
  let name := names.getD i ""
  if full then name else (name.take 3).toString

/-- The hour on the face of a clock. -/
def clockHour (hour : Nat) : Nat := if hour % 12 == 0 then 12 else hour % 12

/-- The value of a part of a date. -/
def partValue (m : Moment) : DatePart → Nat
  | .month => m.date.month + 1
  | .day => m.date.day
  | .hour => m.hour
  | .clockHour => clockHour m.hour
  | .minute => m.minute
  | .second => m.second

/-- What an item writes for a moment. -/
def render (m : Moment) : PatternItem → String
  | text c => c.toString
  | year => yearText m.date.year
  | shortYear => padZeros 2 (m.date.year % 100).toNat
  | number part padded =>
    if padded then padZeros 2 (partValue m part) else toString (partValue m part)
  | millis => padZeros 3 m.millisecond
  | monthName full => nameText monthNames m.date.month full
  | weekdayName full => nameText weekdayNames m.date.weekday full
  | halfDay => if m.hour < 12 then "AM" else "PM"
  | offset colon => if colon then "+00:00" else "+0000"

end PatternItem

/-- How fine a letter of a pattern tells time, from years at 0 to thousandths
of a second at 6. -/
def fineness? : Char → Option (Nat × Period)
  | 'y' => some (0, { years := 1 })
  | 'M' => some (1, { months := 1 })
  | 'd' => some (2, { days := 1 })
  | 'H' | 'h' => some (3, { hours := 1 })
  | 'm' => some (4, { minutes := 1 })
  | 's' => some (5, { seconds := 1 })
  | 'S' => some (6, { millis := 1 })
  | _ => none

/-- A pattern: what it writes, and the finest part of a date among it. -/
structure DatePattern where
  items : List PatternItem
  resolution : Period
deriving DecidableEq, Repr, Inhabited

namespace DatePattern

/-- What a run of some number of one letter writes. -/
def field? (letter : Char) (count : Nat) : Option PatternItem :=
  match letter with
  | 'y' => some (if count == 2 then .shortYear else .year)
  | 'M' =>
    some (if count ≤ 2 then .number .month (count == 2) else .monthName (count != 3))
  | 'd' => some (.number .day (count != 1))
  | 'H' => some (.number .hour (count != 1))
  | 'h' => some (.number .clockHour (count != 1))
  | 'm' => some (.number .minute (count != 1))
  | 's' => some (.number .second (count != 1))
  | 'S' => some .millis
  | 'a' => some .halfDay
  | 'E' => some (.weekdayName (3 < count))
  | 'Z' => some (.offset (count != 1))
  | _ => none

/-- The finer of two resolutions; of equals the first. -/
def finer : Option (Nat × Period) → Option (Nat × Period) → Option (Nat × Period)
  | none, b => b
  | a, none => a
  | some a, some b => if a.1 < b.1 then some b else some a

/-- What a pattern writes and its finest part, read in at most `steps` steps.
Every step takes a character off the pattern. -/
def readIn : (steps : Nat) → List Char →
    Except String (List PatternItem × Option (Nat × Period))
  | _, [] => .ok ([], none)
  | 0, _ => .ok ([], none)
  | steps + 1, c :: rest => do
    if c == '\x27' then
      let literal := rest.takeWhile (· != '\x27')
      match rest.dropWhile (· != '\x27') with
      | [] => throw "unterminated quote"
      | _ :: rest =>
        let (items, finest) ← readIn steps rest
        let shown := if literal.isEmpty then ['\x27'] else literal
        return (shown.map .text ++ items, finest)
    else if c.isAlpha then
      let count := (rest.takeWhile (· == c)).length + 1
      match field? c count with
      | none => throw s!"unsupported field '{c}'"
      | some field =>
        let (items, finest) ← readIn steps (rest.dropWhile (· == c))
        return (field :: items, finer (fineness? c) finest)
    else
      let (items, finest) ← readIn steps rest
      return (.text c :: items, finest)

/-- Read a pattern. It has to tell some part of a date or time. -/
def parse (pattern : String) : Outcome DatePattern :=
  let refuse (what : String) : Failure :=
    .expressionBuilder ("date pattern '" ++ pattern ++ "': " ++ what)
  match readIn pattern.length pattern.toList with
  | .error what => .error (refuse what)
  | .ok (_, none) => .error (refuse "no date or time field")
  | .ok (items, some (_, resolution)) => .ok ⟨items, resolution⟩

/-- What a pattern writes for a moment. -/
def render (p : DatePattern) (m : Moment) : String := String.join (p.items.map (·.render m))

/-- What a pattern writes for the first instant it can tell that is not before
another. -/
def format (p : DatePattern) (millis : Int) : Outcome String := do
  let rounded ← p.resolution.firstBucketAtOrAfter millis
  match moment? rounded with
  | some m => .ok (p.render m)
  | none => .error (.expressionBuilder s!"timestamp out of range: {rounded}")

end DatePattern

end DetectionPlan
