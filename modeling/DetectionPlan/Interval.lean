/-
Half-open windows of time, `start` included and `stop` not.
-/
import DetectionPlan.Period.Bucket

namespace DetectionPlan

/-- A window of time in milliseconds since the epoch. -/
structure Interval where
  start : Int
  stop : Int
  start_le_stop : start ≤ stop
deriving DecidableEq, Repr

namespace Interval

/-- The window between two instants, of which the first must not be later. -/
def make (start stop : Int) : Outcome Interval :=
  if h : start ≤ stop then .ok ⟨start, stop, h⟩ else .error (.invalidInterval start stop)

def contains (i : Interval) (millis : Int) : Bool := i.start ≤ millis && millis < i.stop

/-- The length of the window in a 64-bit word. -/
def duration (i : Interval) : Int := wrapInt64 (i.stop - i.start)

/-- The window with each bound moved back by a period of its own. -/
def withLookback (i : Interval) (fromStart fromStop : Period) : Outcome Interval := do
  make (← fromStart.subtractFrom i.start) (← fromStop.subtractFrom i.stop)

/-- The window as text: dates when both bounds have one, numbers otherwise. -/
def text (i : Interval) : String :=
  match moment? i.start, moment? i.stop with
  | some a, some b => "[" ++ a.text ++ ", " ++ b.text ++ ")"
  | _, _ => s!"[{i.start}, {i.stop})"

def toJson (i : Interval) : Json := .object [("start", .int i.start), ("end", .int i.stop)]

end Interval

end DetectionPlan
