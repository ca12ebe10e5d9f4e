/-
Time by arithmetic and rounding alone, which any data source can do. Buckets
have to be of a fixed length and start at the epoch in UTC.
-/
import DetectionPlan.TimeExpression.Basic

namespace DetectionPlan.TimeExpressions

/-- A column since the epoch, in milliseconds. -/
def millisOf (column : String) : TimeFormat → Outcome String
  | .epoch .milliseconds => .ok column
  | .epoch unit => .ok s!"{column} * {unit.millis}"
  | .date pattern =>
    .error (.expressionBuilder
      s!"ANSI datasources cannot bucket date strings ('{pattern}'), store time as epoch")

/-- A column rounded down to its bucket. -/
def floorGroup (column format : String) (granularity : Period) (zone : Option String) :
    Outcome String := do
  match zone with
  | some zone =>
    unless isUtc zone do
      throw (.expressionBuilder s!"ANSI datasources only bucket in UTC, got timezone '{zone}'")
  | none => pure ()
  let millis ← millisOf column (← TimeFormat.parse format)
  if granularity.isZero then .ok millis
  else match granularity.fixedMillis? with
    | some bucket => .ok s!"FLOOR({millis} / {bucket}) * {bucket}"
    | none =>
      .error (.expressionBuilder
        ("ANSI datasources cannot bucket by calendar granularity " ++ granularity.text))

/-- Time by arithmetic, for columns that store it in a format. -/
def ansi (format : TimeFormat) : TimeExpressions where
  filter column start stop := timeRange column start stop format
  group := floorGroup

end DetectionPlan.TimeExpressions
