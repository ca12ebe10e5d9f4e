/-
What is done with anomalies once they are found: marking the ones whose change
is too small to matter, and putting those of several detections together.
-/
import DetectionPlan.Anomaly.Basic

namespace DetectionPlan

/-- The change from which on an anomaly matters. -/
structure ChangeFloor where
  absolute : Option Float := none
  /-- A fraction of the baseline: 0.05 for five percent. -/
  relative : Option Float := none
  labelName : String := "below threshold"

namespace ChangeFloor

def shape : RecordShape ChangeFloor where
  title := "Params"
  initial := {}
  slots :=
    let number := Json.decodeOption Json.decodeDouble
    [.optional "minAbsoluteChange" number fun v f => { f with absolute := v },
      .optional "minRelativeChange" number fun v f => { f with relative := v },
      .optional "labelName" Json.decodeString fun v f => { f with labelName := v }]

/-- Whether a change from the baseline is too small to matter. A baseline of
zero has no relative change. -/
def isBelow (f : ChangeFloor) (current baseline : Float) : Bool :=
  let change := (current - baseline).abs
  f.absolute.any (change < ·) ||
    f.relative.any fun floor => baseline != 0 && change / baseline.abs < floor

/-- Whether an anomaly has both values and their difference is too small. -/
def isMinor (f : ChangeFloor) (a : Anomaly) : Bool :=
  match a.current, a.baseline with
  | some current, some baseline => f.isBelow current baseline
  | _, _ => false

/-- Mark a minor anomaly as one to ignore. -/
def label (f : ChangeFloor) (a : Anomaly) : Anomaly :=
  if f.isMinor a then { a with labels := a.labels ++ [⟨f.labelName, true⟩] } else a

/-- Mark the minor anomalies of a detection. -/
def labelAll (f : ChangeFloor) (d : Detection) : Detection :=
  { d with anomalies := d.anomalies.map f.label }

end ChangeFloor

/-- The anomalies of several detections in the order of their starts; those of
one start stay in the order of the detections. Series are not kept. -/
def Detection.combine (ds : List Detection) : Detection where
  anomalies := (ds.flatMap (·.anomalies)).mergeSort fun a b => a.start ≤ b.start

end DetectionPlan
