/-
Values of a structured document. Integers and doubles stay apart, and the
members of an object keep the order and the repetitions of the text they were
read from.
-/

namespace DetectionPlan

/-- A value of a structured document. -/
inductive Json where
  | null
  | bool (b : Bool)
  | int (n : Int)
  | double (x : Float)
  | string (s : String)
  | array (items : List Json)
  | object (members : List (String × Json))
deriving Inhabited

namespace Json

/-- Keep the last member of each name, in rising order of names. -/
def canonicalMembers (members : List (String × Json)) : List (String × Json) :=
  let last := members.foldl
    (fun kept m => if kept.any (·.1 == m.1) then kept.map fun k => if k.1 == m.1 then m else k
      else kept ++ [m]) []
  last.mergeSort fun a b => a.1 ≤ b.1

mutual

/-- The value with the members of every object sorted by name, each name once
with its last value, and null for doubles that no text stands for. -/
def canonical : Json → Json
  | .double x => if x.isFinite then .double x else .null
  | .array items => .array (canonicalItems items)
  | .object members => .object (canonicalMembers (canonicalEach members))
  | j => j

def canonicalItems : List Json → List Json
  | [] => []
  | j :: rest => j.canonical :: canonicalItems rest

def canonicalEach : List (String × Json) → List (String × Json)
  | [] => []
  | (name, j) :: rest => (name, j.canonical) :: canonicalEach rest

end

/-- An optional value, null when it is absent. -/
def ofOption (toJson : α → Json) (v : Option α) : Json := v.elim null toJson

/-- The member for an optional value, none when it is absent. -/
def memberOf (name : String) (toJson : α → Json) (v : Option α) : List (String × Json) :=
  v.elim [] fun a => [(name, toJson a)]

/-- The member of a name; of several the last. -/
def get? (name : String) : Json → Option Json
  | .object members => (members.reverse.find? (·.1 == name)).map (·.2)
  | _ => none

end Json

end DetectionPlan
