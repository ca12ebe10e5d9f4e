/-
How a column stores time: as a number of units since the epoch, or as a date
written by a pattern.
-/
import DetectionPlan.TimeFormat.Pattern
import DetectionPlan.Text.Blank
import DetectionPlan.Text.Doubling
import DetectionPlan.Text.Parts

namespace DetectionPlan

/-- The units of numbers since the epoch. -/
inductive EpochUnit where
  | milliseconds | seconds | minutes | hours | days
deriving DecidableEq, Repr, Inhabited

namespace EpochUnit

def name : EpochUnit → String
  | milliseconds => "MILLISECONDS"
  | seconds => "SECONDS"
  | minutes => "MINUTES"
  | hours => "HOURS"
  | days => "DAYS"

def all : List EpochUnit := [milliseconds, seconds, minutes, hours, days]

def ofName? (name : String) : Option EpochUnit := all.find? (·.name == name)

/-- The length of a unit. -/
def millis : EpochUnit → Int
  | milliseconds => 1
  | seconds => secondMillis
  | minutes => minuteMillis
  | hours => hourMillis
  | days => dayMillis

end EpochUnit

/-- How a column stores time. -/
inductive TimeFormat where
  | epoch (unit : EpochUnit)
  | date (pattern : String)
deriving DecidableEq, Repr, Inhabited

namespace TimeFormat

/-- The word that introduces a date pattern. -/
def patternWord : String := "SIMPLE_DATE_FORMAT:"

/-- Whether a size and a unit stand before the word that introduces a pattern. -/
def isSizeAndUnit (before : List Char) : Bool :=
  before.getLast? == some ':' &&
    match partsAt ':' (before.reverse.dropWhile (· == ':')).reverse with
    | [size, unit] => isDigits size && !unit.isEmpty && unit.all Char.isUpper
    | _ => false

/-- The pattern after the word that introduces one. -/
def pattern? (format : List Char) : Option (List Char) :=
  match cutAt? patternWord.toList format with
  | some ([], pattern) => some pattern
  | some (before, pattern) => if isSizeAndUnit before then some pattern else none
  | none => none

/-- A format of three parts that says it counts since the epoch. -/
def epochForm? (format : String) : Option (Outcome TimeFormat) :=
  match partsAt ':' format.toList with
  | [size, unit, word] =>
    if word == "EPOCH".toList then
      match EpochUnit.ofName? (String.ofList unit) with
      | none => some (.error (.expressionBuilder s!"unknown epoch unit in '{format}'"))
      | some unit =>
        if size == ['1'] then some (.ok (epoch unit))
        else
          some (.error (.expressionBuilder
            s!"only single-unit epoch formats are supported, got '{format}'"))
    else none
  | _ => none

/-- Read a format. What is no known form is taken as a date pattern. -/
def parse (text : String) : Outcome TimeFormat :=
  let format := trim text
  if format == "" then .error (.expressionBuilder "empty time column format")
  else if format == "EPOCH_MILLIS" then .ok (epoch .milliseconds)
  else if format == "EPOCH" then .ok (epoch .seconds)
  else match pattern? format.toList with
    | some [] =>
      .error (.expressionBuilder s!"time format '{format}' has no date pattern")
    | some pattern => .ok (date (String.ofList pattern))
    | none => (epochForm? format).getD (.ok (date format))

def isEpoch : TimeFormat → Bool
  | epoch _ => true
  | date _ => false

/-- The full form of a format. -/
def canonical : TimeFormat → String
  | epoch unit => "1:" ++ unit.name ++ ":EPOCH"
  | date pattern => "1:DAYS:" ++ patternWord ++ pattern

/-- The least number of units that is no less than a number of milliseconds. -/
def ceilDiv (millis unit : Int) : Int :=
  if millis % unit == 0 then millis / unit else millis / unit + 1

/-- A text as a string literal. -/
def stringLiteral (text : String) : String :=
  String.ofList ('\x27' :: (doubleChar '\x27' text.toList ++ ['\x27']))

/-- The first value of a column, as a literal, whose time is not before an
instant. -/
def filterBound (f : TimeFormat) (millis : Int) : Outcome String :=
  match f with
  | epoch unit => .ok (toString (ceilDiv millis unit.millis))
  | date pattern => do
    let p ← DatePattern.parse pattern
    return stringLiteral (← p.format millis)

end TimeFormat

end DetectionPlan
