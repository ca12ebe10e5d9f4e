/-
How a kind of data source expresses time in a query: conditions that keep a
column within an interval, and columns rounded down to buckets.
-/
import DetectionPlan.TimeFormat.Basic
import DetectionPlan.Text.Casing

namespace DetectionPlan

/-- The condition that a column in a format is not before one instant and
before another. -/
def timeRange (column : String) (start stop : Int) (format : TimeFormat) : Outcome String := do
  let low ← format.filterBound start
  let high ← format.filterBound stop
  return column ++ " >= " ++ low ++ " AND " ++ column ++ " < " ++ high

/-- How a kind of data source expresses time. -/
structure TimeExpressions where
  /-- The condition that a column is not before one instant and before another. -/
  filter : (column : String) → (start stop : Int) → Outcome String
  /-- The same for a column that is known to store time in a format. -/
  filterIn : (column : String) → (start stop : Int) → TimeFormat → Outcome String := timeRange
  /-- A column in a format, rounded down to the start of its bucket in a time
  zone and given in milliseconds since the epoch. -/
  group : (column format : String) → (granularity : Period) → (zone : Option String) →
    Outcome String

/-- The time zones that are UTC under another name. -/
def utcZones : List String := ["UTC", "GMT", "Etc/UTC", "Etc/GMT", "Z", "+00:00"]

/-- Whether a time zone is UTC, in any case of its letters. -/
def isUtc (zone : String) : Bool := utcZones.any fun z => asciiLower z == asciiLower zone

end DetectionPlan
