/-
The builtin operators: each reads its parameters from the node and applies an
operation on tables or detections to the inputs.
-/
import DetectionPlan.Anomaly.Triage
import DetectionPlan.Operator.Basic
import DetectionPlan.Table.Join
import DetectionPlan.Table.TimeIndex

namespace DetectionPlan

namespace Operator

/-- Publishes its inputs, or the parameter `echo` when it has none. -/
def echo : Operator where
  outputs := .perInput (some "output")
  prepare t := do
    let value := (t.node.params.lookup "echo").getD .null
    return { outcome := .ok <|
      if t.inputs.isEmpty then [("output", .echo value)] else t.inputs.entries }

/-- What to fetch from which source. -/
structure FetchParams where
  source : String
  query : String
  /-- The dataset whose time column the query is about. -/
  dataset : Option String := none
  predicates : List Predicate := []

def FetchParams.shape : RecordShape FetchParams where
  title := "Params"
  initial := { source := "", query := "" }
  slots := [
    .needed "dataSource" Json.decodeString fun v p => { p with source := v },
    .needed "query" Json.decodeString fun v p => { p with query := v },
    .optional "tableName" (Json.decodeOption Json.decodeString) fun v p => { p with dataset := v },
    .optional "predicates" (Json.decodeList Predicate.shape.decode)
      fun v p => { p with predicates := v }]

/-- The table a source yields for a request, with the properties of the request
written over its own. -/
def fetchTable (source : DataSource) (request : PreparedRequest) : Outcome DataTable := do
  let table ← source.fetch request
  return { table with properties := table.properties.insertAll request.properties.entries }

/-- Fetch a table. A query that cannot be prepared is not sent. -/
def FetchParams.job (p : FetchParams) (source : DataSource) (t : Task) : Job :=
  let dataset := p.dataset.map fun name => (source.dataset? name).getD { name }
  match source.prepare t.interval dataset t.scope.strict p.query p.predicates with
  | .error e => { outcome := .error e }
  | .ok request => {
      sent := [⟨source.name, request.sql⟩]
      outcome := (fetchTable source request).map fun table => [("currentData", .table table)] }

/-- Fetches a table from a data source. -/
def dataFetcher : Operator where
  outputs := .fixed ["currentData"]
  prepare t := do
    let p ← t.node.readParams FetchParams.shape.decode
    match t.scope.sources.get? p.source with
    | some source => return p.job source t
    | none => throw (.unknownDataSource t.node.name p.source)

/-- Which detector judges a table, and what its anomalies are about. -/
structure DetectParams where
  detector : String
  granularity : Option Period := none
  subject : Verdict.Subject := {}

def DetectParams.shape : RecordShape DetectParams where
  title := "Params"
  initial := { detector := "" }
  slots :=
    let text := Json.decodeOption Json.decodeString
    [.needed "type" Json.decodeString fun v p => { p with detector := v },
      .optional "monitoringGranularity" (Json.decodeOption Period.decode)
        fun v p => { p with granularity := v },
      .optional "anomaly.metric" text
        fun v p => { p with subject := { p.subject with metric := v } },
      .optional "anomaly.dataset" text
        fun v p => { p with subject := { p.subject with dataset := v } },
      .optional "anomaly.source" text
        fun v p => { p with subject := { p.subject with source := v } }]

/-- How long the last anomaly lasts: the period asked for, or the one in the
properties of the table. -/
def DetectParams.granularityFor (p : DetectParams) (table : DataTable) : Option Period :=
  match p.granularity with
  | some g => some g
  | none => (table.properties.find? .granularity).bind fun text => (Period.parse text).toOption

/-- Judge the input `current`, beside the input `baseline` if there is one. -/
def DetectParams.detect (p : DetectParams) (detector : Detector) (t : Task) :
    Outcome Detection := do
  let current ← t.table "current"
  let baseline ← if t.inputs.contains "baseline" then some <$> t.table "baseline" else pure none
  match p.granularityFor current with
  | none => throw (t.node.invalid
      "monitoringGranularity is not set and the current table has no granularity")
  | some granularity =>
    Verdict.detection p.subject granularity t.interval (← detector current baseline)

/-- Turns the verdicts of a detector into anomalies. -/
def anomalyDetector : Operator where
  outputs := .fixed ["output_AnomalyDetectorResult"]
  prepare t := do
    let p ← t.node.readParams DetectParams.shape.decode
    match t.scope.detectors.find? p.detector with
    | none => throw (.unknownDetector t.node.name p.detector)
    | some make => do
      let detector ← make t.node
      return { outcome := (p.detect detector t).map fun d =>
        [("output_AnomalyDetectorResult", .detection d)] }

/-- Completes each input table to one row for each bucket. -/
def timeIndexFiller : Operator where
  outputs := .perInput none
  prepare t := do
    let x ← t.node.readParams TimeIndex.shape.decode
    match x.defect? with
    | some reason => throw (t.node.invalid reason)
    | none => return { outcome := t.forEachInput fun property => do
        let table ← t.table property
        match x.granularityFor table with
        | none => throw (t.node.invalid
            "monitoringGranularity is not set and the table has no granularity")
        | some granularity => return .table (← x.fill granularity t.interval table) }

/-- Puts the anomalies of its inputs together. -/
def combiner : Operator where
  outputs := .fixed ["output_CombinerResult"]
  prepare t := return { outcome := do
    let detections ← t.inputs.keys.mapM t.detection
    return [("output_CombinerResult", .detection (Detection.combine detections))] }

/-- Which inputs are joined, and on which column. -/
structure JoinParams where
  key : String
  left : String := "left"
  right : String := "right"

def JoinParams.shape : RecordShape JoinParams where
  title := "Params"
  initial := { key := "" }
  slots := [
    .needed "key" Json.decodeString fun v p => { p with key := v },
    .optional "left" Json.decodeString fun v p => { p with left := v },
    .optional "right" Json.decodeString fun v p => { p with right := v }]

/-- Joins two different inputs. -/
def join : Operator where
  outputs := .fixed ["output_JoinResult"]
  prepare t := do
    let p ← t.node.readParams JoinParams.shape.decode
    if p.left == p.right then
      throw <| t.node.invalid ("left and right both read input '" ++ p.left ++ "'")
    return { outcome := do
      let left ← t.table p.left
      let right ← t.table p.right
      return [("output_JoinResult", .table (← left.innerJoin right p.key))] }

/-- Marks the anomalies of its inputs whose change is too small. -/
def anomalyLabeler : Operator where
  outputs := .perInput none
  prepare t := do
    let f ← t.node.readParams ChangeFloor.shape.decode
    if f.absolute.isNone && f.relative.isNone then
      throw (t.node.invalid "set minAbsoluteChange and/or minRelativeChange")
    return { outcome := t.forEachInput fun property =>
      return .detection (f.labelAll (← t.detection property)) }

end Operator

/-- The operators that every plan can use. -/
def OperatorRegistry.builtin : OperatorRegistry := .ofList [
  ("Echo", .echo),
  ("DataFetcher", .dataFetcher),
  ("AnomalyDetector", .anomalyDetector),
  ("TimeIndexFiller", .timeIndexFiller),
  ("Combiner", .combiner),
  ("Join", .join),
  ("AnomalyLabeler", .anomalyLabeler)]

end DetectionPlan
