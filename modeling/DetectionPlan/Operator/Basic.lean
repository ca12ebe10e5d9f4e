/-
Operators: what does the work of a node. An operator first looks at its task and
refuses it or turns it into a job; the job then yields what the node publishes.
-/
import DetectionPlan.Detector.Builtin
import DetectionPlan.Plan.Result
import DetectionPlan.Source

namespace DetectionPlan

/-- Values by the name of an input or an output. -/
abbrev NamedResults := Keyed String PlanResult

/-- What all nodes of a run share. -/
structure RunScope where
  sources : DataSources := .empty
  detectors : DetectorRegistry := .builtin
  /-- Whether an expansion that is no expression is a failure. -/
  strict : Bool := false

/-- What an operator is asked to do. -/
structure Task where
  node : NodeSpec
  interval : Interval
  inputs : NamedResults := .empty
  scope : RunScope := {}

namespace Task

/-- The value of an input. -/
def input (t : Task) (property : String) : Outcome PlanResult :=
  match t.inputs.get? property with
  | some r => .ok r
  | none => .error (.missingInput t.node.name property)

/-- The failure for an input of another kind than the one expected. -/
def wrongKind (t : Task) (property expected : String) (actual : PlanResult) : Failure :=
  .inputType t.node.name property expected actual.kind

/-- An input that has to be a table, and a rectangular one. -/
def table (t : Task) (property : String) : Outcome DataTable := do
  match ← t.input property with
  | .table table =>
    table.validate
    return table
  | other => throw (t.wrongKind property "table" other)

/-- An input that has to be a detection. -/
def detection (t : Task) (property : String) : Outcome Detection := do
  match ← t.input property with
  | .detection d => return d
  | other => throw (t.wrongKind property "detection" other)

/-- One output for each input, under the same name. -/
def forEachInput (t : Task) (work : (property : String) → Outcome PlanResult) :
    Outcome (List (String × PlanResult)) :=
  t.inputs.keys.mapM fun property => return (property, ← work property)

end Task

/-- The work of a node: what it asks of data sources, and what it publishes. -/
structure Job where
  sent : List SentQuery := []
  outcome : Outcome (List (String × PlanResult))

/-- The outputs of a node that names none. -/
inductive OutputRule where
  | fixed (names : List String)
  /-- One output for each input, under its name, or a single output for a node
  without inputs. -/
  | perInput (fallback : Option String)
deriving DecidableEq, Repr

/-- The names of the outputs. -/
def OutputRule.resolve (rule : OutputRule) (node : NodeSpec) : List String :=
  match rule with
  | fixed names => names
  | perInput fallback =>
    if node.inputs.isEmpty then fallback.toList else node.inputs.map (·.property)

/-- A kind of node. -/
structure Operator where
  outputs : OutputRule
  /-- Refuse a task or turn it into a job. -/
  prepare : Task → Outcome Job

/-- Operators by the name of the kind. -/
abbrev OperatorRegistry := Keyed String Operator

/-- An operator at work: the job of the last task it accepted, and what it has
published since. -/
structure Worker where
  operator : Operator
  job : Option Job := none
  published : NamedResults := .empty

namespace Worker

/-- Take on a task. A task that is refused leaves everything as it was. -/
def take (w : Worker) (t : Task) : Outcome Worker := do
  return { w with job := some (← w.operator.prepare t), published := .empty }

/-- Do the job. What it yields is published only if all of it succeeds. -/
def work (w : Worker) : Outcome Worker := do
  match w.job with
  | none => throw .notInitialized
  | some job => return { w with published := w.published.insertAll (← job.outcome) }

/-- Hand over what has been published. -/
def handOver (w : Worker) : NamedResults × Worker :=
  (w.published, { w with published := .empty })

end Worker

end DetectionPlan
