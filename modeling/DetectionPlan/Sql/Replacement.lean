/-
Replacing the expressions of a statement from the inside out: the parts of an
expression before the expression, and the clauses of a query in the order in
which the tree holds them. Of a case all conditions come before all results.
-/
import DetectionPlan.Sql.Syntax

namespace DetectionPlan.Sql

variable {m : Type → Type} [Monad m] (f : Expr → m Expr)

mutual

/-- Replace an expression, its parts first. -/
def Expr.replace : Expr → m Expr
  | .name parts => f (.name parts)
  | .star table => f (.star table)
  | .literal value => f (.literal value)
  | .nested e => do f (.nested (← e.replace))
  | .tuple items => do f (.tuple (← replaceExprs items))
  | .unary op e => do f (.unary op (← e.replace))
  | .binary left op right => do
    let left ← left.replace
    f (.binary left op (← right.replace))
  | .test e negated what => do f (.test (← e.replace) negated what)
  | .distinct left negated right => do
    let left ← left.replace
    f (.distinct left negated (← right.replace))
  | .inList e negated items => do
    let e ← e.replace
    f (.inList e negated (← replaceExprs items))
  | .inQuery e negated q => do
    let e ← e.replace
    f (.inQuery e negated (← q.replace))
  | .between e negated low high => do
    let e ← e.replace
    let low ← low.replace
    f (.between e negated low (← high.replace))
  | .like e negated caseless pattern escape => do
    let e ← e.replace
    f (.like e negated caseless (← pattern.replace) escape)
  | .case operand branches otherwise => do
    let operand ← replaceOption operand
    let conditions ← replaceConditions branches
    let results ← replaceResults branches
    f (.case operand (conditions.zip results) (← replaceOption otherwise))
  | .cast style e type => do f (.cast style (← e.replace) type)
  | .rounding upward e places => do f (.rounding upward (← e.replace) places)
  | .exists negated q => do f (.exists negated (← q.replace))
  | .query q => do f (.query (← q.replace))
  | .call c => do f (.call (← c.replace))

def replaceExprs : List Expr → m (List Expr)
  | [] => pure []
  | e :: rest => do
    let e ← e.replace
    return e :: (← replaceExprs rest)

def replaceConditions : List (Expr × Expr) → m (List Expr)
  | [] => pure []
  | (condition, _) :: rest => do
    let condition ← condition.replace
    return condition :: (← replaceConditions rest)

def replaceResults : List (Expr × Expr) → m (List Expr)
  | [] => pure []
  | (_, result) :: rest => do
    let result ← result.replace
    return result :: (← replaceResults rest)

def replaceOption : Option Expr → m (Option Expr)
  | none => pure none
  | some e => do return some (← e.replace)

def Call.replace : Call → m Call
  | ⟨name, arguments⟩ => do return ⟨name, ← arguments.replace⟩

def Arguments.replace : Arguments → m Arguments
  | .absent => pure .absent
  | .list quantifier items => do return .list quantifier (← replaceArguments items)
  | .query q => do return .query (← q.replace)

def replaceArguments : List Argument → m (List Argument)
  | [] => pure []
  | a :: rest => do
    let a ← a.replace
    return a :: (← replaceArguments rest)

def Argument.replace : Argument → m Argument
  | .positional e => do return .positional (← e.replace)
  | .named name mark e => do return .named name mark (← e.replace)

/-- Replace the expressions of a query. -/
def Query.replace : Query → m Query
  | ⟨isRecursive, named, body, order, limit, offset, offsetUnit, settings⟩ => do
    let named ← replaceNamed named
    let body ← body.replace
    let order ← replaceOrder order
    let limit ← replaceOption limit
    return ⟨isRecursive, named, body, order, limit, ← replaceOption offset, offsetUnit, settings⟩

def replaceNamed : List NamedQuery → m (List NamedQuery)
  | [] => pure []
  | n :: rest => do
    let n ← n.replace
    return n :: (← replaceNamed rest)

def NamedQuery.replace : NamedQuery → m NamedQuery
  | ⟨label, query⟩ => do return ⟨label, ← query.replace⟩

def Body.replace : Body → m Body
  | .select s => do return .select (← s.replace)
  | .query q => do return .query (← q.replace)
  | .combined left op quantifier right => do
    let left ← left.replace
    return .combined left op quantifier (← right.replace)
  | .values marked rows => do return .values marked (← replaceRows rows)

def replaceRows : List (List Expr) → m (List (List Expr))
  | [] => pure []
  | row :: rest => do
    let row ← replaceExprs row
    return row :: (← replaceRows rest)

def Select.replace : Select → m Select
  | ⟨isDistinct, items, tables, filter, groups, having⟩ => do
    let items ← replaceItems items
    let tables ← replaceTables tables
    let filter ← replaceOption filter
    let groups ← groups.replace
    return ⟨isDistinct, items, tables, filter, groups, ← replaceOption having⟩

def replaceItems : List SelectItem → m (List SelectItem)
  | [] => pure []
  | i :: rest => do
    let i ← i.replace
    return i :: (← replaceItems rest)

def SelectItem.replace : SelectItem → m SelectItem
  | ⟨value, label⟩ => do return ⟨← value.replace, label⟩

def Grouping.replace : Grouping → m Grouping
  | .all => pure .all
  | .by items => do return .by (← replaceExprs items)

def replaceTables : List TableJoins → m (List TableJoins)
  | [] => pure []
  | t :: rest => do
    let t ← t.replace
    return t :: (← replaceTables rest)

def TableJoins.replace : TableJoins → m TableJoins
  | ⟨table, joins⟩ => do
    let table ← table.replace
    return ⟨table, ← replaceJoins joins⟩

def Table.replace : Table → m Table
  | .named name label => pure (.named name label)
  | .derived q label => do return .derived (← q.replace) label
  | .joined t label => do return .joined (← t.replace) label

def replaceJoins : List Join → m (List Join)
  | [] => pure []
  | j :: rest => do
    let j ← j.replace
    return j :: (← replaceJoins rest)

def Join.replace : Join → m Join
  | ⟨kind, table, condition⟩ => do
    let table ← table.replace
    return ⟨kind, table, ← condition.replace⟩

def JoinCondition.replace : JoinCondition → m JoinCondition
  | .on e => do return .on (← e.replace)
  | .using columns => pure (.using columns)
  | .natural => pure .natural
  | .none => pure .none

def replaceOrder : List OrderItem → m (List OrderItem)
  | [] => pure []
  | o :: rest => do
    let o ← o.replace
    return o :: (← replaceOrder rest)

def OrderItem.replace : OrderItem → m OrderItem
  | ⟨value, descending, nulls⟩ => do return ⟨← value.replace, descending, nulls⟩

end

/-- Replace an optional query. -/
def replaceSource : Option Query → m (Option Query)
  | none => pure none
  | some q => do return some (← q.replace f)

def ColumnOption.replace : ColumnOption → m ColumnOption
  | .default e => do return .default (← e.replace f)
  | o => pure o

def ColumnDefinition.replace (c : ColumnDefinition) : m ColumnDefinition := do
  return { c with options := ← c.options.mapM (·.replace f) }

/-- Replace the expressions of a statement. -/
def Statement.replace : Statement → m Statement
  | .query q => do return .query (← q.replace f)
  | .insert into table columns source => do
    return .insert into table columns (← source.replace f)
  | .update table assignments source filter => do
    let table ← table.replace f
    let assignments ← assignments.mapM fun (column, e) => return (column, ← e.replace f)
    let source ← match source with
      | none => pure none
      | some t => some <$> t.replace f
    return .update table assignments source (← replaceOption f filter)
  | .delete fromMarked tables filter => do
    let tables ← replaceTables f tables
    return .delete fromMarked tables (← replaceOption f filter)
  | .createTable replacing temporary mayExist name columns source => do
    let columns ← columns.mapM (·.replace f)
    return .createTable replacing temporary mayExist name columns (← replaceSource f source)
  | .dropTable ifExists names rule => pure (.dropTable ifExists names rule)
  | .explain word analyzing verbose s => do
    return .explain word analyzing verbose (← s.replace)
  | .explainTable word name => pure (.explainTable word name)

end DetectionPlan.Sql
