/-
The builtin detectors: fixed thresholds, and the change against a baseline.
-/
import DetectionPlan.Detector.Basic

namespace DetectionPlan

/-- Values below `min` or above `max` are anomalies; a bound may be absent. -/
structure Threshold where
  columns : MetricColumns := {}
  min : Option Float := none
  max : Option Float := none

namespace Threshold

def shape : RecordShape Threshold where
  title := "Params"
  initial := {}
  slots :=
    let bound := Json.decodeOption Json.decodeDouble
    [.optional "min" bound fun v t => { t with min := v },
      .optional "max" bound fun v t => { t with max := v }]

def decode (j : Json) : Decoded Threshold := do
  let t ← shape.decode j
  return { t with columns := ← MetricColumns.shape.decode j }

/-- Whether a value is outside the thresholds. -/
def isCrossed (t : Threshold) (value : Float) : Bool :=
  t.min.any (value < ·) || t.max.any (value > ·)

def detector (t : Threshold) : Detector := fun current _ => do
  return (← current.series t.columns).map fun (time, value) => {
    time
    current := value
    upper := t.max
    lower := t.min
    isAnomaly := value.any t.isCrossed }

/-- The lower threshold must not be above the upper one. -/
def make : DetectorMaker := fun node => do
  let t ← node.readParams decode
  match t.min, t.max with
  | some min, some max =>
    if min > max then
      .error <| node.invalid <| "threshold min " ++ DoubleFormat.plain.text min ++
        " is above max " ++ DoubleFormat.plain.text max
    else .ok t.detector
  | _, _ => .ok t.detector

end Threshold

/-- The direction of a change that is an anomaly. -/
inductive ChangePattern where
  | up | down | upOrDown
deriving DecidableEq, Repr

namespace ChangePattern

def decode : Json → Decoded ChangePattern :=
  Json.decodeVariant [("UP", up), ("DOWN", down), ("UP_OR_DOWN", upOrDown)]

def flagsUp : ChangePattern → Bool
  | up | upOrDown => true
  | down => false

def flagsDown : ChangePattern → Bool
  | down | upOrDown => true
  | up => false

end ChangePattern

/-- Values that differ from the baseline of the same instant by more than a
fraction of it are anomalies. -/
structure PercentageChange where
  columns : MetricColumns := {}
  /-- The fraction: 0.1 for ten percent. -/
  change : Float
  pattern : ChangePattern := .upOrDown

namespace PercentageChange

def shape : RecordShape PercentageChange where
  title := "Params"
  initial := { change := 0 }
  slots := [
    .needed "percentageChange" Json.decodeDouble fun v p => { p with change := v },
    .optional "pattern" ChangePattern.decode fun v p => { p with pattern := v }]

def decode (j : Json) : Decoded PercentageChange := do
  let p ← shape.decode j
  return { p with columns := ← MetricColumns.shape.decode j }

/-- The bounds around a value of the baseline, the upper one first. -/
def bounds (p : PercentageChange) (base : Float) : Float × Float :=
  let margin := (base * p.change).abs
  (base + margin, base - margin)

/-- Whether a value leaves the bounds in a direction that counts. -/
def isCrossed (p : PercentageChange) (upper lower value : Float) : Bool :=
  (p.pattern.flagsUp && value > upper) || (p.pattern.flagsDown && value < lower)

/-- The verdict on a value beside the value of the baseline. -/
def verdict (p : PercentageChange) (time : Int) (value base : Option Float) : Verdict :=
  match base with
  | none => { time, current := value, isAnomaly := false }
  | some b =>
    let (upper, lower) := p.bounds b
    { time, current := value, baseline := some b, upper := some upper, lower := some lower
      isAnomaly := value.any (p.isCrossed upper lower) }

/-- The value of the baseline at an instant: the last one of that instant that
is not null. -/
def baselineAt (series : List (Int × Option Float)) (time : Int) : Option Float :=
  (series.reverse.find? fun p => p.1 == time && p.2.isSome).bind (·.2)

def detector (p : PercentageChange) : Detector := fun current baseline => do
  match baseline with
  | none => .error (.detector "PERCENTAGE_CHANGE needs a baseline input")
  | some table => do
    let base ← table.series p.columns
    return (← current.series p.columns).map fun (time, value) =>
      p.verdict time value (baselineAt base time)

/-- The fraction must be a finite number that is not negative. -/
def make : DetectorMaker := fun node => do
  let p ← node.readParams decode
  if !p.change.isFinite || p.change < 0 then
    .error <| node.invalid <|
      "percentageChange must be a non-negative fraction, got " ++ DoubleFormat.plain.text p.change
  else .ok p.detector

end PercentageChange

/-- The detectors that every run knows. -/
def DetectorRegistry.builtin : DetectorRegistry :=
  let all : DetectorRegistry := .empty
  let all := all.register "THRESHOLD" Threshold.make
  all.register "PERCENTAGE_CHANGE" PercentageChange.make

end DetectionPlan
