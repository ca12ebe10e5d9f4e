/-
Cells of a table and the readings of a cell as an integer, a double or a truth
value.
-/
import DetectionPlan.Json.Decode

namespace DetectionPlan

/-- A cell. -/
inductive Cell where
  | null
  | bool (b : Bool)
  | long (n : Int)
  | double (x : Float)
  | string (s : String)
deriving Inhabited

namespace Cell

def isNull : Cell → Bool
  | null => true
  | _ => false

/-- An integer: the cell itself, a double without fraction, cut to the range of
a 64-bit word, or a text that spells one. -/
def asLong : Cell → Option Int
  | long n => some n
  | double x => (wholeValue? x).map clampInt64
  | string s => readInt64? s
  | _ => none

/-- A double: the cell itself, the one nearest to an integer, or a text that
spells one. -/
def asDouble : Cell → Option Float
  | long n => some (doubleOfInt n)
  | double x => some x
  | string s => readDouble? s
  | _ => none

/-- A truth value: the cell itself, whether an integer differs from zero, or a
text that spells one. -/
def asBool : Cell → Option Bool
  | bool b => some b
  | long n => some (n != 0)
  | string s => if s == "true" then some true else if s == "false" then some false else none
  | _ => none

/-- The text of a cell in messages and keys. -/
def text : Cell → String
  | null => "null"
  | bool b => if b then "true" else "false"
  | long n => toString n
  | double x => DoubleFormat.plain.text x
  | string s => s

/-- The kind of a cell. -/
def kind : Cell → String
  | null => "Null"
  | bool _ => "Bool"
  | long _ => "Long"
  | double _ => "Double"
  | string _ => "String"

/-- A cell in a document. Integers beyond a signed 64-bit word are read as
doubles. -/
def decode : Json → Decoded Cell
  | .null => .ok null
  | .bool b => .ok (bool b)
  | .int n => .ok (if fitsInt64 n then long n else double (doubleOfInt n))
  | .double x => .ok (double x)
  | .string s => .ok (string s)
  | _ => .error (.noVariant "Value")

def toJson : Cell → Json
  | null => .null
  | bool b => .bool b
  | long n => .int n
  | double x => .double x
  | string s => .string s

end Cell

/-- The type of a column. -/
inductive ColumnType where
  | long | double | string | boolean
deriving DecidableEq, Repr, Inhabited

namespace ColumnType

def name : ColumnType → String
  | long => "LONG"
  | double => "DOUBLE"
  | string => "STRING"
  | boolean => "BOOLEAN"

def all : List ColumnType := [long, double, string, boolean]

def decode : Json → Decoded ColumnType := Json.decodeVariant (all.map fun t => (t.name, t))

end ColumnType

end DetectionPlan
