/-
Running a compiled plan. A run goes through stages: the single nodes in their
order, or the levels of nodes that can run at the same time. All nodes of a
stage see what the stages before it have published, and a stage in which a node
fails is the last one.

What a run leaves behind is the list of its attempts. Results, reports and the
failure are read off it.
-/
import DetectionPlan.Plan.Compile

namespace DetectionPlan

/-- What is published in a run. -/
abbrev Results := Keyed OutputKey PlanResult

/-- One node that was started in a run. -/
structure Attempt where
  node : NodeSpec
  sent : List SentQuery
  outcome : Outcome NamedResults

namespace Attempt

def isFailed (a : Attempt) : Bool :=
  match a.outcome with
  | .ok _ => false
  | .error _ => true

/-- The failure of a node, which names the node. -/
def failure? (a : Attempt) : Option Failure :=
  match a.outcome with
  | .ok _ => none
  | .error e => some (.executionFailed a.node.name e)

/-- What a node has published; a failed one nothing. -/
def published (a : Attempt) : List (OutputKey × PlanResult) :=
  match a.outcome with
  | .ok outputs => outputs.entries.map fun e => (a.node.key e.1, e.2)
  | .error _ => []

end Attempt

namespace CompiledNode

/-- The value that an input names. -/
def fetchInput (n : CompiledNode) (results : Results) (b : InputBinding) :
    Outcome (String × PlanResult) :=
  match results.get? b.source with
  | some r => .ok (b.property, r)
  | none => .error (.missingInput n.spec.name b.property)

/-- The values of a node's inputs. -/
def gather (n : CompiledNode) (results : Results) : Outcome NamedResults :=
  (n.spec.inputs.mapM (n.fetchInput results)).map Keyed.ofList

/-- Of what an operator has published, the outputs that the node promises. Each
value is handed out once. -/
def collect (n : CompiledNode) (published : NamedResults) : Outcome NamedResults :=
  (go n.spec.outputs published.entries).map Keyed.ofList
where
  go : List String → List (String × PlanResult) → Outcome (List (String × PlanResult))
    | [], _ => .ok []
    | output :: rest, left =>
      match left.lookup output with
      | none => .error (.missingOutput n.spec.name output)
      | some r => (go rest (left.filter (·.1 != output))).map ((output, r) :: ·)

/-- What a node publishes once its inputs are there. -/
def perform (n : CompiledNode) (interval : Interval) (scope : RunScope) (inputs : NamedResults) :
    Attempt :=
  match n.operator.prepare { node := n.spec, interval, inputs, scope } with
  | .error e => { node := n.spec, sent := [], outcome := .error e }
  | .ok job => {
      node := n.spec
      sent := job.sent
      outcome := do n.collect (Keyed.ofList (← job.outcome)) }

/-- Start a node. -/
def attempt (n : CompiledNode) (interval : Interval) (scope : RunScope) (results : Results) :
    Attempt :=
  match n.gather results with
  | .error e => { node := n.spec, sent := [], outcome := .error e }
  | .ok inputs => n.perform interval scope inputs

end CompiledNode

/-- How a plan is run. -/
structure RunSettings where
  /-- Whether the nodes of a level run at the same time. -/
  parallel : Bool := false
  /-- The most nodes that run at the same time; zero for no limit of its own. -/
  maxParallelism : Nat := 0
deriving DecidableEq, Repr

/-- The stages of a run. -/
def CompiledPlan.stages (p : CompiledPlan) (settings : RunSettings) : List (List CompiledNode) :=
  if settings.parallel then p.levels else p.order.map ([·])

/-- The trace of a run: the nodes that were started, in order. -/
structure Trace where
  attempts : List Attempt := []

namespace Trace

/-- What has been published, in order. -/
def results (t : Trace) : Results := Keyed.ofList (t.attempts.flatMap (·.published))

/-- The first failure. -/
def failure? (t : Trace) : Option Failure := t.attempts.findSome? (·.failure?)

/-- The node of the first failure. -/
def failedNode? (t : Trace) : Option String :=
  (t.attempts.find? (·.isFailed)).map (·.node.name)

/-- The queries that sources have received, in order. -/
def sent (t : Trace) : List SentQuery := t.attempts.flatMap (·.sent)

end Trace

/-- Start the nodes of one stage after the other until one fails. -/
def runStages (interval : Interval) (scope : RunScope) :
    List (List CompiledNode) → Trace → Trace
  | [], done => done
  | stage :: rest, done =>
    let attempts := stage.map (·.attempt interval scope done.results)
    let done := { attempts := done.attempts ++ attempts }
    if attempts.any (·.isFailed) then done else runStages interval scope rest done

/-- A plan with all it takes to run it, and the trace of its run once it has been
run. A plan runs at most once. -/
structure Execution where
  plan : CompiledPlan
  interval : Interval
  scope : RunScope
  settings : RunSettings := {}
  trace : Option Trace := none

namespace Execution

def results (x : Execution) : Results := (x.trace.map Trace.results).getD .empty

/-- Run the plan. -/
def execute (x : Execution) : Outcome Results × Execution :=
  match x.trace with
  | some _ => (.error .alreadyExecuted, x)
  | none =>
    let trace := runStages x.interval x.scope (x.plan.stages x.settings) {}
    let outcome := match trace.failure? with
      | some e => .error e
      | none => .ok trace.results
    (outcome, { x with trace })

end Execution

/-- What is reported about a node that succeeded. -/
structure NodeReport where
  node : String
  type : String
  outputs : List String
  anomalies : Nat
deriving DecidableEq, Repr

namespace NodeReport

/-- The report about an attempt that succeeded. -/
def ofAttempt? (a : Attempt) : Option NodeReport :=
  match a.outcome with
  | .ok outputs => some {
      node := a.node.name
      type := a.node.type
      outputs := outputs.keys
      anomalies := (outputs.values.map PlanResult.anomalyCount).foldl (· + ·) 0 }
  | .error _ => none

def toJson (r : NodeReport) : Json :=
  .object [("node", .string r.node), ("node_type", .string r.type),
    ("outputs", .array (r.outputs.map Json.string)), ("anomalies", .int r.anomalies)]

end NodeReport

/-- What is reported about a run. -/
structure RunReport where
  interval : Interval
  parallel : Bool
  nodes : List NodeReport
  failedNode : Option String
deriving Repr

/-- The report about an execution. Before the run nothing is reported. -/
def Execution.report (x : Execution) : RunReport :=
  match x.trace with
  | none => { interval := x.interval, parallel := false, nodes := [], failedNode := none }
  | some trace => {
      interval := x.interval
      parallel := x.settings.parallel
      nodes := trace.attempts.filterMap NodeReport.ofAttempt?
      failedNode := trace.failedNode? }

def RunReport.toJson (r : RunReport) : Json :=
  .object [("interval", r.interval.toJson), ("parallel", .bool r.parallel),
    ("nodes", .array (r.nodes.map NodeReport.toJson)),
    ("failed_node", .ofOption .string r.failedNode)]

end DetectionPlan
