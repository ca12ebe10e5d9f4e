/-
Completing a table to one row for each bucket of a period. Rows that do not
start a bucket are dropped, buckets without a row get one of nulls, and nulls
can be replaced from the rows around them. No value crosses the start of the
window: what lies before it is filled on its own.
-/
import DetectionPlan.Table.Basic
import DetectionPlan.Interval
import DetectionPlan.Period.Parser

namespace DetectionPlan

/-- What replaces the nulls of a bucket. -/
inductive NullFilling where
  | keep | zeroes | forward | backward
deriving DecidableEq, Repr, Inhabited

namespace NullFilling

def decode : Json → Decoded NullFilling :=
  Json.decodeVariant [("KEEP_NULL", keep), ("FILL_WITH_ZEROES", zeroes),
    ("FILL_FORWARD", forward), ("FILL_BACKWARD", backward)]

/-- The zero of a column type that has one. -/
def zero? : ColumnType → Option Cell
  | .long => some (.long 0)
  | .double => some (.double 0)
  | .string | .boolean => none

/-- Replace each null of a column by a cell. -/
def replace (column : Nat) (value : Cell) (rows : List Row) : List Row :=
  rows.map fun row => if (DataTable.cellOf row column).isNull then row.set column value else row

/-- Replace each null of a column by the last cell before it that is not null,
where `last` stands before the first row. -/
def carry (column : Nat) (last : Cell) : List Row → List Row
  | [] => []
  | row :: rest =>
    let c := DataTable.cellOf row column
    if c.isNull then row.set column last :: carry column last rest
    else row :: carry column c rest

/-- Replace the nulls of a column. -/
def apply (filling : NullFilling) (column : Nat) (type : ColumnType) (rows : List Row) : List Row :=
  match filling with
  | keep => rows
  | zeroes => match zero? type with
    | some zero => replace column zero rows
    | none => rows
  | forward => carry column .null rows
  | backward => (carry column .null rows.reverse).reverse

end NullFilling

/-- Where one end of the buckets comes from. -/
inductive LimitInference where
  | fromData | fromWindow | fromWindowWithLookback
deriving DecidableEq, Repr, Inhabited

def LimitInference.decode : Json → Decoded LimitInference :=
  Json.decodeVariant [("FROM_DATA", fromData), ("FROM_DETECTION_TIME", fromWindow),
    ("FROM_DETECTION_TIME_WITH_LOOKBACK", fromWindowWithLookback)]

/-- How a table is completed. -/
structure TimeIndex where
  timestamp : String := "timestamp"
  granularity : Option Period := none
  nulls : NullFilling := .keep
  lookback : Option Period := none
  lower : Option LimitInference := none
  upper : Option LimitInference := none

namespace TimeIndex

def shape : RecordShape TimeIndex where
  title := "Params"
  initial := {}
  slots :=
    let period := Json.decodeOption Period.decode
    let limit := Json.decodeOption LimitInference.decode
    [.optional "timestamp" Json.decodeString fun v x => { x with timestamp := v },
      .optional "monitoringGranularity" period fun v x => { x with granularity := v },
      .optional "fillNullMethod" NullFilling.decode fun v x => { x with nulls := v },
      .optional "lookback" period fun v x => { x with lookback := v },
      .optional "minTimeInference" limit fun v x => { x with lower := v },
      .optional "maxTimeInference" limit fun v x => { x with upper := v }]

/-- Whether an end of the buckets asks for the lookback. -/
def wantsLookback (x : TimeIndex) : Bool :=
  x.lower == some .fromWindowWithLookback || x.upper == some .fromWindowWithLookback

/-- What keeps a completion from being of use with any table. -/
def defect? (x : TimeIndex) : Option String :=
  if x.wantsLookback && x.lookback.all (·.isZero) then
    some "FROM_DETECTION_TIME_WITH_LOOKBACK needs a non-zero lookback"
  else if x.granularity.any (·.isZero) then some "monitoringGranularity must not be zero"
  else none

/-- The period of the buckets: the one asked for, or the one in the properties
of the table unless it is empty. -/
def granularityFor (x : TimeIndex) (t : DataTable) : Option Period :=
  match x.granularity with
  | some p => some p
  | none => ((t.properties.find? .granularity).bind fun text =>
      (Period.parse text).toOption).filter (!·.isZero)

/-- The instants in the properties of a table between which it was queried. -/
def queriedLimits? (t : DataTable) : Option (Int × Int) := do
  let low ← readInt64? (← t.properties.find? .minTimeMillis)
  let high ← readInt64? (← t.properties.find? .maxTimeMillis)
  return (low, high)

/-- The instants between which buckets are made, from the instants of the rows.
The instant after the last row is taken in a 64-bit word. -/
def limitsFrom (x : TimeIndex) (window : Interval) (times : List Int) : Outcome (Int × Int) := do
  let low ← match x.lower.getD .fromData with
    | .fromData => .ok (times.min?.getD window.start)
    | .fromWindow => .ok window.start
    | .fromWindowWithLookback => (x.lookback.getD {}).subtractFrom window.start
  let high := match x.upper.getD .fromWindow with
    | .fromData => (times.max?.map fun t => wrapInt64 (t + 1)).getD window.stop
    | .fromWindow | .fromWindowWithLookback => window.stop
  return (low, high)

/-- The instants between which buckets are made. Unless an end says where it
comes from, they are those between which the table was queried. -/
def limits (x : TimeIndex) (t : DataTable) (window : Interval) (times : List Int) :
    Outcome (Int × Int) :=
  match x.lower, x.upper, queriedLimits? t with
  | none, none, some known => .ok known
  | _, _, _ => x.limitsFrom window times

/-- The bucket starts from `t` to `last`. A step that leads nowhere ends them. -/
def bucketsFrom (p : Period) (t last : Int) : Outcome (List Int) :=
  if t ≤ last then do
    let next ← p.addTo t
    if t < next then return t :: (← bucketsFrom p next last) else return [t]
  else .ok []
termination_by (last + 1 - t).toNat
decreasing_by omega

/-- The bucket starts from `low`, which is included, to `high`, which is not. -/
def buckets (p : Period) (low high : Int) : Outcome (List Int) :=
  if low < high then do
    let first ← p.firstBucketAtOrAfter low
    let last ← p.lastBucketBefore high
    bucketsFrom p first last
  else .ok []

/-- A row that has an instant and nothing else. -/
def emptyRow (width column : Nat) (t : Int) : Row :=
  (List.replicate width .null).set column (.long t)

/-- The first row of each bucket, or one that has nothing but the bucket's
start. -/
def rowsOf (width column : Nat) (rows : List (Int × Row)) (buckets : List Int) : List Row :=
  buckets.map fun t => (rows.lookup t).getD (emptyRow width column t)

/-- Replace the nulls of all columns but that of the instants. -/
def fillNulls (x : TimeIndex) (types : List ColumnType) (timeColumn : Nat) (rows : List Row) :
    List Row :=
  ((List.range types.length).filter (· != timeColumn)).foldl
    (fun rows column => x.nulls.apply column (types.getD column default) rows) rows

/-- Replace the nulls before the window and those in it apart. -/
def fillSegments (x : TimeIndex) (types : List ColumnType) (timeColumn : Nat) (start : Int)
    (buckets : List Int) (rows : List Row) : List Row :=
  let split := (buckets.takeWhile (· < start)).length
  x.fillNulls types timeColumn (rows.take split) ++ x.fillNulls types timeColumn (rows.drop split)

/-- Complete a table to one row for each bucket of a period. -/
def fill (x : TimeIndex) (granularity : Period) (window : Interval) (t : DataTable) :
    Outcome DataTable := do
  let column ← t.columnIndex x.timestamp
  let times ← t.longs x.timestamp
  let (low, high) ← x.limits t window times
  let buckets ← buckets granularity low high
  let rows := rowsOf t.width column (times.zip t.rows) buckets
  return { t with
    rows := x.fillSegments t.types column window.start buckets rows
    properties := t.properties.put .granularity granularity.text }

end TimeIndex

end DetectionPlan
