/-
Drill-down predicates: a column compared with one or more values. Three of the
comparisons can be added to a query; the others can be described, so that they
are refused by name.
-/
import DetectionPlan.Json.Decode

namespace DetectionPlan

/-- A comparison of a predicate. -/
inductive FilterOperator where
  | eq | neq | isIn | lt | lte | gt | gte | like
deriving DecidableEq, Repr, Inhabited

namespace FilterOperator

/-- The name of a comparison. -/
def name : FilterOperator → String
  | eq => "EQ"
  | neq => "NEQ"
  | isIn => "IN"
  | lt => "LT"
  | lte => "LTE"
  | gt => "GT"
  | gte => "GTE"
  | like => "LIKE"

def all : List FilterOperator := [eq, neq, isIn, lt, lte, gt, gte, like]

/-- Whether predicates with this comparison can be added to a query. -/
def isInjectable : FilterOperator → Bool
  | eq | neq | isIn => true
  | _ => false

def decode : Json → Decoded FilterOperator :=
  Json.decodeVariant (all.map fun op => (op.name, op))

end FilterOperator

/-- A column, optionally of a named dataset, compared with values. -/
structure Predicate where
  dataset : Option String := none
  column : String
  operator : FilterOperator
  values : List String
deriving DecidableEq, Repr, Inhabited

namespace Predicate

/-- The column equals a value. -/
def equals (column value : String) : Predicate :=
  { column, operator := .eq, values := [value] }

/-- The column differs from a value. -/
def differs (column value : String) : Predicate :=
  { column, operator := .neq, values := [value] }

/-- The column is one of some values. -/
def oneOf (column : String) (values : List String) : Predicate :=
  { column, operator := .isIn, values }

/-- The same predicate about a column of a named dataset. -/
def ofDataset (p : Predicate) (dataset : String) : Predicate := { p with dataset := some dataset }

/-- A predicate as a line of text. -/
def text (p : Predicate) : String :=
  (match p.dataset with | some d => d ++ "." | none => "") ++
    p.column ++ " " ++ p.operator.name ++ " [" ++ String.intercalate ", " p.values ++ "]"

def shape : RecordShape Predicate where
  title := "QueryPredicate"
  initial := { column := "", operator := .eq, values := [] }
  slots := [
    .optional "dataset" (Json.decodeOption Json.decodeString) fun v p => { p with dataset := v },
    .needed "column" Json.decodeString fun v p => { p with column := v },
    .needed "operator" FilterOperator.decode fun v p => { p with operator := v },
    .needed "values" (Json.decodeList Json.decodeString) fun v p => { p with values := v }]

def toJson (p : Predicate) : Json :=
  .object <|
    Json.memberOf "dataset" .string p.dataset ++
    [("column", .string p.column), ("operator", .string p.operator.name),
      ("values", .array (p.values.map Json.string))]

end Predicate

end DetectionPlan
