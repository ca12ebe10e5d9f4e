/-
Preparing a query: the calls of placeholder functions are replaced from the
inside out by what they expand to. An expansion that is no expression is an
error in a strict request; otherwise the call stays.
-/
import DetectionPlan.Expansion.Builtin
import DetectionPlan.Sql.Parser.Statement
import DetectionPlan.Sql.Replacement
import DetectionPlan.Sql.Shape

namespace DetectionPlan

open Sql

/-- A query ready to be sent. -/
structure PreparedRequest where
  sql : String
  /-- The name of the dataset, or the first table the query selects from. -/
  table : Option String
  properties : Properties
deriving DecidableEq, Repr, Inhabited

/-- How the calls in a query are expanded. -/
structure Expansion where
  parser : ParserSettings
  registry : PlaceholderRegistry
  scope : RequestScope
  strict : Bool := false

namespace Expansion

/-- An argument as the text that a placeholder function gets: the content of a
string, and the text of anything else, cut out of the quotes around it. -/
def argumentText (r : RenderSettings) : Argument → String
  | .positional (.literal (.string .single s)) => s
  | .positional (.literal (.string .double s)) => s
  | .positional (.star table) => (Expr.star table).text
  | .positional e => r.unquoteLiteral e.text
  | a => a.text

/-- The arguments of a call as texts. -/
def argumentTexts (x : Expansion) (name : String) : Arguments → Outcome (List String)
  | .absent => .ok []
  | .list _ items => .ok (items.map (argumentText x.scope.render))
  | .query _ => .error (.callArgument name "a subquery cannot be a macro argument")

/-- An expansion as one operand, whatever stands around it. -/
def asOperand (e : Expr) : Expr :=
  match e with
  | .name _ | .literal _ | .nested _ | .call _ => e
  | _ => .nested e

/-- The placeholder function that a call is to. -/
def callee? (x : Expansion) (c : Call) : Option (String × Placeholder) := do
  let last ← c.name.getLast?
  let p ← x.registry.get? last.text
  return (last.text, p)

/-- Replace an expression that is a call of a placeholder function. -/
def step (x : Expansion) (e : Expr) : Preparing Expr :=
  match e with
  | .call c =>
    match x.callee? c with
    | none => return e
    | some (name, p) => do
      let arguments ← x.argumentTexts name c.arguments
      let text ← p.expand x.scope arguments
      match x.parser.parseExpr text with
      | .ok expansion => return asOperand expansion
      | .error fault => if x.strict then throw (.invalidExpansion name text fault) else return e
  | _ => return e

/-- Replace all calls of placeholder functions in a statement. -/
def expand (x : Expansion) (s : Statement) : Outcome (Statement × Properties) :=
  (s.replace x.step).run .empty

/-- Prepare a query. -/
def prepare (x : Expansion) (query : String) : Outcome PreparedRequest := do
  let (statement, properties) ← x.expand (← x.parser.parseStatement query)
  let table := match x.scope.dataset with
    | some d => some d.name
    | none => statement.firstTable?
  return { sql := statement.text, table, properties }

end Expansion

end DetectionPlan
