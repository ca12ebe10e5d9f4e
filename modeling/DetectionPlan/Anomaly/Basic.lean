/-
Anomalies, the series of values a detector compared, and both together as the
outcome of a detection.
-/
import DetectionPlan.Json.Decode

namespace DetectionPlan

/-- A mark on an anomaly. Anomalies with a mark that says `ignore` are not
notified. -/
structure AnomalyLabel where
  name : String
  ignore : Bool := false
deriving DecidableEq, Repr, Inhabited

/-- An anomaly over the window from `start`, which is included, to `stop`, which
is not. -/
structure Anomaly where
  start : Int
  stop : Int
  current : Option Float := none
  baseline : Option Float := none
  metric : Option String := none
  dataset : Option String := none
  source : Option String := none
  labels : List AnomalyLabel := []
deriving Inhabited

/-- What a detector compared at each instant. -/
structure TimeSeries where
  timestamps : List Int
  current : List (Option Float)
  baseline : List (Option Float)
  upperBound : Option (List Float) := none
  lowerBound : Option (List Float) := none
deriving Inhabited

/-- The outcome of a detection. -/
structure Detection where
  anomalies : List Anomaly
  timeSeries : Option TimeSeries := none
deriving Inhabited

namespace AnomalyLabel

def shape : RecordShape AnomalyLabel where
  title := "AnomalyLabel"
  initial := { name := "" }
  slots := [
    .needed "name" Json.decodeString fun v l => { l with name := v },
    .optional "ignore" Json.decodeBool fun v l => { l with ignore := v }]

def toJson (l : AnomalyLabel) : Json :=
  .object [("name", .string l.name), ("ignore", .bool l.ignore)]

end AnomalyLabel

namespace Anomaly

/-- Whether a mark keeps the anomaly from being notified. -/
def isIgnored (a : Anomaly) : Bool := a.labels.any (·.ignore)

def shape : RecordShape Anomaly where
  title := "Anomaly"
  initial := { start := 0, stop := 0 }
  slots :=
    let number := Json.decodeOption Json.decodeDouble
    let text := Json.decodeOption Json.decodeString
    [.needed "start_millis" Json.decodeInt64 fun v a => { a with start := v },
      .needed "end_millis" Json.decodeInt64 fun v a => { a with stop := v },
      .optional "current" number fun v a => { a with current := v },
      .optional "baseline" number fun v a => { a with baseline := v },
      .optional "metric" text fun v a => { a with metric := v },
      .optional "dataset" text fun v a => { a with dataset := v },
      .optional "source" text fun v a => { a with source := v },
      .optional "labels" (Json.decodeList AnomalyLabel.shape.decode)
        fun v a => { a with labels := v }]

def toJson (a : Anomaly) : Json :=
  .object <|
    [("start_millis", .int a.start), ("end_millis", .int a.stop),
      ("current", Json.ofOption .double a.current),
      ("baseline", Json.ofOption .double a.baseline)] ++
    Json.memberOf "metric" .string a.metric ++
    Json.memberOf "dataset" .string a.dataset ++
    Json.memberOf "source" .string a.source ++
    (if a.labels.isEmpty then [] else [("labels", .array (a.labels.map AnomalyLabel.toJson))])

end Anomaly

namespace TimeSeries

def shape : RecordShape TimeSeries where
  title := "TimeSeries"
  initial := { timestamps := [], current := [], baseline := [] }
  slots :=
    let values := Json.decodeList (Json.decodeOption Json.decodeDouble)
    let bounds := Json.decodeOption (Json.decodeList Json.decodeDouble)
    [.needed "timestamps" (Json.decodeList Json.decodeInt64) fun v s => { s with timestamps := v },
      .needed "current" values fun v s => { s with current := v },
      .needed "baseline" values fun v s => { s with baseline := v },
      .optional "upper_bound" bounds fun v s => { s with upperBound := v },
      .optional "lower_bound" bounds fun v s => { s with lowerBound := v }]

def toJson (s : TimeSeries) : Json :=
  let doubles (xs : List Float) : Json := .array (xs.map .double)
  .object <|
    [("timestamps", .array (s.timestamps.map Json.int)),
      ("current", .array (s.current.map (Json.ofOption .double))),
      ("baseline", .array (s.baseline.map (Json.ofOption .double)))] ++
    Json.memberOf "upper_bound" doubles s.upperBound ++
    Json.memberOf "lower_bound" doubles s.lowerBound

end TimeSeries

namespace Detection

def shape : RecordShape Detection where
  title := "DetectionResult"
  initial := { anomalies := [] }
  slots := [
    .needed "anomalies" (Json.decodeList Anomaly.shape.decode) fun v d => { d with anomalies := v },
    .optional "time_series" (Json.decodeOption TimeSeries.shape.decode)
      fun v d => { d with timeSeries := v }]

def toJson (d : Detection) : Json :=
  .object [("anomalies", .array (d.anomalies.map Anomaly.toJson)),
    ("time_series", Json.ofOption TimeSeries.toJson d.timeSeries)]

end Detection

end DetectionPlan
