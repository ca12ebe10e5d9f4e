/-
What a node of a plan publishes under one output: a table, the outcome of a
detection, or a document passed through.
-/
import DetectionPlan.Table.Basic
import DetectionPlan.Anomaly.Basic

namespace DetectionPlan

/-- A published value. -/
inductive PlanResult where
  | table (t : DataTable)
  | detection (d : Detection)
  | echo (j : Json)
deriving Inhabited

namespace PlanResult

/-- The kind of a published value. -/
def kind : PlanResult → String
  | table _ => "table"
  | detection _ => "detection"
  | echo _ => "echo"

def isTable : PlanResult → Bool
  | table _ => true
  | _ => false

/-- The number of anomalies of a detection; nothing else has any. -/
def anomalyCount : PlanResult → Nat
  | detection d => d.anomalies.length
  | _ => 0

/-- The readers of the content of each kind. -/
def readers : List (String × (Json → Decoded PlanResult)) := [
  ("table", fun j => (DataTable.decode j).map table),
  ("detection", fun j => (Detection.shape.decode j).map detection),
  ("echo", fun j => .ok (echo j))]

/-- A published value in a document has its kind in `kind` and its content in
`data`, or is a list of the two. -/
def decode : Json → Decoded PlanResult
  | .object members => do
    match members.lookup "kind" with
    | none => .error (.missingField "kind")
    | some k => do
      let read ← Json.decodeVariant readers k
      match members.lookup "data" with
      | none => .error (.missingField "data")
      | some j => read j
  | .array items => do
    match items with
    | [] => .error (.invalidLength 0 wanted)
    | k :: rest => do
      let read ← Json.decodeVariant readers k
      match rest with
      | [] => .error (.invalidLength 1 wanted)
      | [j] => read j
      | j :: _ => do
        discard <| read j
        .error (.invalidLength items.length "fewer elements in array")
  | j => j.mistyped wanted
where
  wanted : String := "adjacently tagged enum PipelineResult"

/-- A published value as a document, properties of tables written by
`properties`. -/
def toJsonWith (properties : Properties → Json) (r : PlanResult) : Json :=
  .object [("kind", .string r.kind),
    ("data", match r with
      | table t => t.toJsonWith properties
      | detection d => d.toJson
      | echo j => j)]

def toJson : PlanResult → Json := toJsonWith Properties.toJson

end PlanResult

end DetectionPlan
