/-
Adding predicates to a query: each is a further condition of its selection,
which has to have one already. A condition that is an alternative at its top
gets parentheses, so that it stays one operand of the conjunction.
-/
import DetectionPlan.Sql.Parser.Statement
import DetectionPlan.Sql.Shape
import DetectionPlan.Predicate

namespace DetectionPlan

namespace Predicate

open Sql (Expr Ident Literal)

/-- The column of a predicate. -/
def columnExpr (p : Predicate) : Expr :=
  match p.dataset with
  | some dataset => .name [⟨dataset, none⟩, ⟨p.column, none⟩]
  | none => .name [⟨p.column, none⟩]

/-- A value of a predicate. Values are strings, whatever they look like. -/
def valueExpr (value : String) : Expr := .literal (.string .single value)

/-- A comparison with the only value of a predicate. -/
def comparison (p : Predicate) (op : Sql.BinaryOp) : Outcome Expr :=
  match p.values with
  | [value] => .ok (.binary p.columnExpr op (valueExpr value))
  | values =>
    .error (.invalidPredicate p.column
      s!"{p.operator.name} takes exactly one value, got {values.length}")

/-- The condition that a predicate stands for. -/
def expr (p : Predicate) : Outcome Expr :=
  match p.operator with
  | .eq => p.comparison .eq
  | .neq => p.comparison .notEq
  | .isIn =>
    if p.values.isEmpty then .error (.invalidPredicate p.column "IN needs at least one value")
    else .ok (.inList p.columnExpr false (p.values.map valueExpr))
  | operator => .error (.unsupportedFilterOperator p.column operator)

/-- The predicate with its names in the case that a dialect stores them in. -/
def normalized (r : Sql.RenderSettings) (p : Predicate) : Predicate :=
  { p with
    dataset := p.dataset.map r.normalizeIdentifier
    column := r.normalizeIdentifier p.column }

end Predicate

namespace Sql

/-- An expression as an operand of a conjunction. -/
def Expr.asConjunct : Expr → Expr
  | .binary left .or right => .nested (.binary left .or right)
  | .binary left .xor right => .nested (.binary left .xor right)
  | e => e

/-- A condition together with further ones. -/
def Expr.conjoin (existing : Expr) (conditions : List Expr) : Expr :=
  conditions.foldl (fun all condition => .binary all .and (.nested condition)) existing.asConjunct

/-- A selection with further conditions. -/
def Select.withConditions (conditions : List Expr) (s : Select) : Outcome Select :=
  match s.filter with
  | some existing => .ok { s with filter := some (existing.conjoin conditions) }
  | none => .error .missingWhereClause

/-- The conditions that predicates stand for in a dialect. Predicates that
cannot be added to a query are refused before any is looked at. -/
def conditionsOf (d : DialectSettings) (predicates : List Predicate) : Outcome (List Expr) :=
  match predicates.find? (!·.operator.isInjectable) with
  | some p => .error (.unsupportedFilterOperator p.column p.operator)
  | none => predicates.mapM fun p => (p.normalized d.render).expr

/-- The query with each predicate added to its conditions. -/
def addPredicates (d : DialectSettings) (query : String) (predicates : List Predicate) :
    Outcome String := do
  let conditions ← conditionsOf d predicates
  let statement ← d.parser.parseStatement query
  if conditions.isEmpty then .ok statement.text
  else return (← statement.mapSelect (·.withConditions conditions)).text

end Sql

end DetectionPlan
