/-
Detectors: what judges the rows of a table, alone or beside a baseline, and how
the verdicts inside a window become anomalies.
-/
import DetectionPlan.Plan.Spec
import DetectionPlan.Table.Basic
import DetectionPlan.Anomaly.Basic
import DetectionPlan.Interval
import DetectionPlan.Text.Casing

namespace DetectionPlan

/-- The verdict on one row of a table. -/
structure Verdict where
  time : Int
  current : Option Float
  baseline : Option Float := none
  upper : Option Float := none
  lower : Option Float := none
  isAnomaly : Bool
deriving Inhabited

/-- A detector: from the current table and perhaps a baseline one verdict for
each row of the current table, in the order of time. -/
abbrev Detector := (current : DataTable) → (baseline : Option DataTable) → Outcome (List Verdict)

/-- What makes a detector from the parameters of a node. -/
abbrev DetectorMaker := NodeSpec → Outcome Detector

/-- Makers of detectors by the name of the detector in capitals. -/
abbrev DetectorRegistry := Keyed String DetectorMaker

namespace DetectorRegistry

/-- Add a maker under a name. -/
def register (r : DetectorRegistry) (name : String) (maker : DetectorMaker) : DetectorRegistry :=
  r.insert (asciiUpper name) maker

/-- The maker under a name, in whatever case the name is written. -/
def find? (r : DetectorRegistry) (name : String) : Option DetectorMaker :=
  r.get? (asciiUpper name)

end DetectorRegistry

/-- The columns that a detector reads. -/
structure MetricColumns where
  timestamp : String := "timestamp"
  metric : String := "value"
deriving DecidableEq, Repr

namespace MetricColumns

def shape : RecordShape MetricColumns where
  title := "Columns"
  initial := {}
  slots := [
    .optional "timestamp" Json.decodeString fun v c => { c with timestamp := v },
    .optional "metric" Json.decodeString fun v c => { c with metric := v }]

end MetricColumns

/-- The values of a metric by instant, in rising order of the instants; values
of one instant keep their order. -/
def DataTable.series (t : DataTable) (columns : MetricColumns) :
    Outcome (List (Int × Option Float)) := do
  let times ← t.longs columns.timestamp
  let values ← t.doubles columns.metric
  return (times.zip values).mergeSort fun a b => a.1 ≤ b.1

namespace Verdict

/-- What verdicts were based on. A bound is given when every verdict has it and
there is a verdict. -/
def timeSeries (verdicts : List Verdict) : TimeSeries where
  timestamps := verdicts.map (·.time)
  current := verdicts.map (·.current)
  baseline := verdicts.map (·.baseline)
  upperBound := bound (·.upper)
  lowerBound := bound (·.lower)
where
  bound (pick : Verdict → Option Float) : Option (List Float) :=
    if verdicts.isEmpty then none else verdicts.mapM pick

/-- Marks that every anomaly of a detection gets. -/
structure Subject where
  metric : Option String := none
  dataset : Option String := none
  source : Option String := none
deriving DecidableEq, Repr

/-- The anomaly that a verdict stands for, up to an instant. -/
def anomalyUntil (v : Verdict) (subject : Subject) (stop : Int) : Anomaly where
  start := v.time
  stop
  current := v.current
  baseline := v.baseline
  metric := subject.metric
  dataset := subject.dataset
  source := subject.source

/-- The anomalies among verdicts. Each lasts until the next verdict, the last
one for one period. -/
def anomalies (subject : Subject) (granularity : Period) : List Verdict → Outcome (List Anomaly)
  | [] => .ok []
  | v :: rest =>
    if v.isAnomaly then do
      let stop ← match rest with
        | next :: _ => .ok next.time
        | [] => granularity.addTo v.time
      return v.anomalyUntil subject stop :: (← anomalies subject granularity rest)
    else anomalies subject granularity rest

/-- The detection that verdicts amount to within a window. -/
def detection (subject : Subject) (granularity : Period) (window : Interval)
    (verdicts : List Verdict) : Outcome Detection := do
  let inside := verdicts.filter fun v => window.contains v.time
  return {
    anomalies := ← anomalies subject granularity inside
    timeSeries := some (timeSeries inside) }

end Verdict

end DetectionPlan
