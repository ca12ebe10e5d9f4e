/-
Checking a plan and fixing when its nodes run. A plan compiles when its names
are distinct, its operators are known, every input names an output that exists,
and no node waits for itself.
-/
import DetectionPlan.Operator.Builtin
import DetectionPlan.Plan.Schedule

namespace DetectionPlan

/-- A node with its operator and all outputs it promises. -/
structure CompiledNode where
  spec : NodeSpec
  operator : Operator

/-- A plan that can be run. -/
structure CompiledPlan where
  nodes : List CompiledNode
  /-- The nodes in the order in which they run one after the other. -/
  order : List CompiledNode
  /-- The nodes in groups that can run at the same time. -/
  levels : List (List CompiledNode)

namespace Plan

/-- The first name that has occurred before. -/
def firstRepeat? (seen : List String) : List String → Option String
  | [] => none
  | name :: rest => if seen.contains name then some name else firstRepeat? (name :: seen) rest

/-- A node with its operator and, if it names no outputs, those of the
operator. -/
def resolve (registry : OperatorRegistry) (spec : NodeSpec) : Outcome CompiledNode :=
  match registry.get? spec.type with
  | none => .error (.unknownOperatorType spec.name spec.type)
  | some operator =>
    let outputs := if spec.outputs.isEmpty then operator.outputs.resolve spec else spec.outputs
    .ok { spec := { spec with outputs }, operator }

/-- The place of the node that an input names and that promises the output. -/
def sourceOf (nodes : List CompiledNode) (reader : NodeSpec) (b : InputBinding) : Outcome Nat :=
  match nodes.findIdx? (·.spec.name == b.source.node) with
  | none => .error (.unknownSourceNode reader.name b.source.node)
  | some place =>
    if (nodes[place]?.any fun n => n.spec.outputs.contains b.source.output) then .ok place
    else .error (.unknownSourceOutput reader.name b.source.node b.source.output)

/-- The places of the nodes that inputs name, each once. No two inputs may have
one name. -/
def sourcesOf (nodes : List CompiledNode) (reader : NodeSpec) :
    (seen : List String) → (found : List Nat) → List InputBinding → Outcome (List Nat)
  | _, found, [] => .ok found
  | seen, found, b :: rest =>
    if seen.contains b.property then .error (.duplicateInput reader.name b.property)
    else do
      let place ← sourceOf nodes reader b
      let found := if found.contains place then found else found ++ [place]
      sourcesOf nodes reader (b.property :: seen) found rest

/-- For each node the nodes it reads from. -/
def dependencies (nodes : List CompiledNode) : Outcome Dependencies :=
  nodes.mapM fun n => sourcesOf nodes n.spec [] [] n.spec.inputs

/-- The nodes at some places. -/
def pick (nodes : List CompiledNode) (places : List Nat) : List CompiledNode :=
  places.filterMap (nodes[·]?)

/-- The names of the nodes that are stuck on a cycle. -/
def cycleText (nodes : List CompiledNode) (stuck : List Nat) : String :=
  "cycle detected among nodes: " ++
    String.intercalate " -> " ((pick nodes stuck).map (·.spec.name))

/-- Check the nodes of a plan and fix when they run. -/
def compile (registry : OperatorRegistry) (specs : List NodeSpec) : Outcome CompiledPlan := do
  match firstRepeat? [] (specs.map (·.name)) with
  | some name => throw (.duplicateNode name)
  | none =>
    let nodes ← specs.mapM (resolve registry)
    let deps ← dependencies nodes
    match deps.order with
    | .error stuck => throw (.circularDependency (cycleText nodes stuck))
    | .ok order => return {
        nodes
        order := pick nodes order
        levels := (deps.levels order).map (pick nodes) }

end Plan

/-- All that the nodes of a plan promise. -/
def CompiledPlan.promised (p : CompiledPlan) : List OutputKey :=
  p.nodes.flatMap fun n => n.spec.outputs.map n.spec.key

end DetectionPlan
