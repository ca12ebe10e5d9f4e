/-
The selection that a query comes down to. A query may wrap it in named queries,
an order and bounds, and once more in parentheses, where only one of the two
levels may name queries.
-/
import DetectionPlan.Sql.Printer
import DetectionPlan.Error
import DetectionPlan.Text.Blank

namespace DetectionPlan.Sql

namespace Body

/-- Why a body that is no selection is not supported. -/
def refusal : Body → String
  | .combined .. => "set operations (UNION, INTERSECT, EXCEPT) are not supported"
  | b => "unsupported query body '" ++ b.text ++ "'"

end Body

namespace Query

/-- Change the selection that a query comes down to. -/
def mapSelect (f : Select → Outcome Select) (q : Query) : Outcome Query :=
  match q.body with
  | .select s => (f s).map fun s => { q with body := .select s }
  | .query inner =>
    if q.hasNamed && inner.hasNamed then
      .error (.unsupportedQueryShape "nested WITH clauses are not supported")
    else match inner.body with
      | .select s => (f s).map fun s => { q with body := .query { inner with body := .select s } }
      | _ => .error (.unsupportedQueryShape "more than one level of query nesting")
  | other => .error (.unsupportedQueryShape other.refusal)

/-- The selection that a query comes down to. -/
def select? (q : Query) : Option Select :=
  match q.body with
  | .select s => some s
  | .query inner =>
    if q.hasNamed && inner.hasNamed then none
    else match inner.body with
      | .select s => some s
      | _ => none
  | _ => none

end Query

namespace Statement

/-- The first word of a statement, in capitals. -/
def kind (s : Statement) : String :=
  toUpperCase (String.ofList ((s.text.toList.dropWhile isBlank).takeWhile (!isBlank ·)))

/-- Change the selection that a statement comes down to. -/
def mapSelect (f : Select → Outcome Select) : Statement → Outcome Statement
  | .query q => (q.mapSelect f).map .query
  | other =>
    .error (.unsupportedQueryShape s!"expected a SELECT query, found '{other.kind}'")

/-- The name of the first table that a statement selects from. -/
def firstTable? : Statement → Option String
  | .query q => do
    match (← q.select?).tables with
    | ⟨.named name _, _⟩ :: _ => some (nameText name)
    | _ => none
  | _ => none

end Statement

end DetectionPlan.Sql
