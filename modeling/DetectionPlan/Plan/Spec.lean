/-
Plans as they are written down: nodes of a kind with parameters, and bindings
that feed what one node publishes into another.
-/
import DetectionPlan.Json.Reader
import DetectionPlan.Error
import DetectionPlan.Json.Decode

namespace DetectionPlan

/-- What a node publishes under an output. -/
structure OutputKey where
  node : String
  output : String
deriving DecidableEq, Repr, Inhabited

/-- The name of a published value in a document. -/
def OutputKey.text (k : OutputKey) : String := k.node ++ "." ++ k.output

/-- An input of a node: the value that `source` names, under the name
`property`. -/
structure InputBinding where
  property : String
  source : OutputKey
deriving DecidableEq, Repr, Inhabited

namespace InputBinding

def shape : RecordShape InputBinding where
  title := "InputBinding"
  initial := { property := "", source := ⟨"", ""⟩ }
  slots := [
    .needed "targetProperty" Json.decodeString fun v b => { b with property := v },
    (Slot.needed "sourceNode" Json.decodeString
      fun v b => { b with source := { b.source with node := v } }).orNamed "sourceNodeName",
    .needed "sourceOutputKey" Json.decodeString
      fun v b => { b with source := { b.source with output := v } }]

def toJson (b : InputBinding) : Json :=
  .object [("targetProperty", .string b.property), ("sourceNode", .string b.source.node),
    ("sourceOutputKey", .string b.source.output)]

end InputBinding

/-- A node as a plan describes it. -/
structure NodeSpec where
  name : String
  /-- The name of the operator that does the node's work. -/
  type : String
  params : List (String × Json) := []
  inputs : List InputBinding := []
  /-- The outputs the node promises; none for those its operator promises. -/
  outputs : List String := []
deriving Inhabited

namespace NodeSpec

/-- The parameters of a node are sorted by name. -/
def decodeParams (j : Json) : Decoded (List (String × Json)) :=
  (Json.decodeMap (fun v => .ok v.canonical) j).map Json.canonicalMembers

def shape : RecordShape NodeSpec where
  title := "PlanNodeSpec"
  initial := { name := "", type := "" }
  slots := [
    .needed "name" Json.decodeString fun v n => { n with name := v },
    .needed "type" Json.decodeString fun v n => { n with type := v },
    .optional "params" decodeParams fun v n => { n with params := v },
    .optional "inputs" (Json.decodeList InputBinding.shape.decode)
      fun v n => { n with inputs := v },
    .optional "outputs" (Json.decodeList Json.decodeString) fun v n => { n with outputs := v }]

def toJson (n : NodeSpec) : Json :=
  .object [("name", .string n.name), ("type", .string n.type), ("params", .object n.params),
    ("inputs", .array (n.inputs.map InputBinding.toJson)),
    ("outputs", .array (n.outputs.map Json.string))]

/-- What is published under an output of the node. -/
def key (n : NodeSpec) (output : String) : OutputKey := ⟨n.name, output⟩

/-- The parameters do not suit the operator. -/
def invalid (n : NodeSpec) (reason : String) : Failure := .invalidParams n.name reason

/-- The parameters as an operator reads them. -/
def readParams (n : NodeSpec) (decode : Json → Decoded α) : Outcome α :=
  (decode (.object n.params)).mapError fun e => n.invalid e.message

end NodeSpec

/-- A plan. -/
structure Plan where
  nodes : List NodeSpec := []
deriving Inhabited

namespace Plan

def shape : RecordShape Plan where
  title := "Plan"
  initial := {}
  slots := [.optional "nodes" (Json.decodeList NodeSpec.shape.decode) fun v _ => { nodes := v }]

def toJson (p : Plan) : Json := .object [("nodes", .array (p.nodes.map NodeSpec.toJson))]

end Plan

end DetectionPlan
