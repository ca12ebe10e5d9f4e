/-
Time by the functions of Apache Pinot, which round in a time zone and know
date patterns.
-/
import DetectionPlan.TimeExpression.Basic

namespace DetectionPlan.TimeExpressions

open TimeFormat (stringLiteral)

/-- A granularity of a single unit of fixed length, as a number and the unit. -/
def pinotGranularity (p : Period) : Outcome String :=
  if 0 < p.years || 0 < p.months || 0 < p.weeks then
    .error (.expressionBuilder ("Pinot cannot round to calendar granularity " ++ p.text))
  else
    let units := [(p.days, "DAYS"), (p.hours, "HOURS"), (p.minutes, "MINUTES"),
      (p.seconds, "SECONDS"), (p.millis, "MILLISECONDS")]
    match units.filter (0 < ·.1) with
    | [] => .error (.expressionBuilder "cannot bucket by an empty granularity")
    | [(n, unit)] => .ok s!"{n.toNat}:{unit}"
    | _ =>
      .error (.expressionBuilder ("Pinot granularity must use a single unit, got " ++ p.text))

/-- The periods of exactly one unit, and the name of the unit. -/
def truncationUnits : List (Period × String) := [
  ({ years := 1 }, "year"), ({ months := 1 }, "month"), ({ weeks := 1 }, "week"),
  ({ days := 1 }, "day"), ({ hours := 1 }, "hour"), ({ minutes := 1 }, "minute"),
  ({ seconds := 1 }, "second"), ({ millis := 1 }, "millisecond")]

/-- The pattern that carries a time zone through a conversion. -/
def zonedPattern : String := "yyyy-MM-dd HH:mm:ss.SSSZ"

/-- A column rounded in UTC. -/
def utcGroup (column : String) (format : TimeFormat) (granularity : Period) : Outcome String := do
  let step ← pinotGranularity granularity
  return "DATETIMECONVERT(" ++ column ++ ", " ++ stringLiteral format.canonical ++
    ", '1:MILLISECONDS:EPOCH', '" ++ step ++ "')"

/-- A column rounded in a time zone. Columns since the epoch are truncated when
the granularity is one unit; all else is converted to text in the zone and back. -/
def zonedGroup (column : String) (format : TimeFormat) (granularity : Period) (zone : String) :
    Outcome String :=
  match format, truncationUnits.lookup granularity with
  | .epoch unit, some truncation =>
    .ok ("DATETRUNC('" ++ truncation ++ "', " ++ column ++ ", '" ++ unit.name ++ "', " ++
      stringLiteral zone ++ ", 'MILLISECONDS')")
  | _, _ => do
    let step ← pinotGranularity granularity
    let target := "1:DAYS:SIMPLE_DATE_FORMAT:" ++ zonedPattern ++ " tz(" ++ zone ++ ")"
    return "FromDateTime(DATETIMECONVERT(" ++ column ++ ", " ++ stringLiteral format.canonical ++
      ", " ++ stringLiteral target ++ ", '" ++ step ++ "'), '" ++ zonedPattern ++ "')"

/-- Time by the functions of Pinot, for columns that store it in a format. -/
def pinot (format : TimeFormat) : TimeExpressions where
  filter column start stop := timeRange column start stop format
  group column format granularity zone := do
    let format ← TimeFormat.parse format
    match zone.filter (!isUtc ·) with
    | some zone => zonedGroup column format granularity zone
    | none => utcGroup column format granularity

end DetectionPlan.TimeExpressions
