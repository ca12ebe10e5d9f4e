/-
Properties of a table or a request: named texts in the order in which the names
were first written.
-/
import DetectionPlan.Keyed
import DetectionPlan.Json.Decode

namespace DetectionPlan

/-- Named texts in order. -/
abbrev Properties := Keyed String String

/-- The properties that describe how a table was queried. -/
inductive PropertyKey where
  | timeColumn | minTimeMillis | maxTimeMillis | granularity
deriving DecidableEq, Repr

namespace PropertyKey

/-- The name under which a property is stored. -/
def name : PropertyKey → String
  | timeColumn => "timeColumn"
  | minTimeMillis => "minTimeMillis"
  | maxTimeMillis => "maxTimeMillis"
  | granularity => "granularity"

def all : List PropertyKey := [timeColumn, minTimeMillis, maxTimeMillis, granularity]

/-- The property with a name. -/
def ofName? (name : String) : Option PropertyKey := all.find? (·.name == name)

end PropertyKey

namespace Properties

def decode (j : Json) : Decoded Properties :=
  (Json.decodeMap Json.decodeString j).map Keyed.ofList

def toJson (p : Properties) : Json := .object (p.entries.map fun e => (e.1, .string e.2))

/-- The text of a well-known property. -/
def find? (p : Properties) (key : PropertyKey) : Option String := p.get? key.name

/-- Write a well-known property. -/
def put (p : Properties) (key : PropertyKey) (value : String) : Properties :=
  p.insert key.name value

end Properties

end DetectionPlan
