/-
Queries: selections, sets of rows and their combinations, with the queries they
name, their order and their bounds.
-/
import DetectionPlan.Sql.Parser.Expression

namespace DetectionPlan.Sql.Parser

variable (s : ParserSettings) (inner : Inner)

/-! ## Tables and joins -/

/-- The kind of the join that comes first. A join without a kind is an inner
one. -/
def joinKind : Parser (Option JoinKind) := do
  match ← peekWord with
  | some .INNER | some .JOIN =>
    discard <| skipWord .INNER
    expectWord .JOIN
    return some .inner
  | some .CROSS =>
    discard take
    expectWord .JOIN
    return some .cross
  | some .LEFT =>
    discard take
    some <$> sided .left .leftSemi .leftAnti
  | some .RIGHT =>
    discard take
    some <$> sided .right .rightSemi .rightAnti
  | some .FULL =>
    discard take
    discard <| skipWord .OUTER
    expectWord .JOIN
    return some .full
  | some .OUTER => fail
  | _ => return none
where
  sided (outer semi anti : JoinKind) : Parser JoinKind := do
    let kind ← oneOf [(.OUTER, outer), (.SEMI, semi), (.ANTI, anti)]
    expectWord .JOIN
    return kind.getD outer

/-- Which rows of a join belong together. -/
def joinCondition : Parser JoinCondition := do
  if ← skipWord .ON then return .on (← inner.expr 0)
  else if ← skipWord .USING then
    return .using (← parenthesised (commaSeparated s.trailingCommas ident))
  else return .none

/-- A join, if one comes first. -/
def join (table : Parser Table) : Parser (Option Join) := do
  let natural ← skipWord .NATURAL
  match ← joinKind with
  | none => if natural then fail else return none
  | some .cross => if natural then fail else return some ⟨.cross, ← table, .none⟩
  | some kind =>
    let table ← table
    let condition ← if natural then pure .natural else joinCondition s inner
    return some ⟨kind, table, condition⟩

/-- At most `n` joins. -/
def joinsIn (table : Parser Table) : (n : Nat) → Parser (List Join)
  | 0 => return []
  | n + 1 => do
    match ← join s inner table with
    | some j => return j :: (← joinsIn table n)
    | none => return []

/-- A table and what is joined to it. -/
def tableJoins (table : Parser Table) : Parser TableJoins := do
  return ⟨← table, ← joinsIn s inner table (← get).length⟩

/-- A query between parentheses as a table. -/
def derivedTable : Parser Table := do
  let q ← parenthesised inner.query
  return .derived q (← tableLabel s.trailingCommas)

/-- A lone table between parentheses. Its name may stand inside or outside. -/
def loneTable (t : Table) : Parser Table := do
  let outside ← tableLabel s.trailingCommas
  match outside, t with
  | none, t => return t
  | some l, .named name none => return .named name (some l)
  | some l, .derived q none => return .derived q (some l)
  | some _, _ => fail

/-- Joined tables between parentheses. -/
def joinedTable (table : Parser Table) : Parser Table := do
  let t ← parenthesised (tableJoins s inner table)
  match t with
  | ⟨.joined _ _, []⟩ => return .joined t (← tableLabel s.trailingCommas)
  | ⟨first, []⟩ => if s.grammar.allowsLoneTable then loneTable s first else fail
  | _ => return .joined t (← tableLabel s.trailingCommas)

/-- A table, with at most `n` parentheses around joined tables. -/
def tableIn : (n : Nat) → Parser Table
  | 0 => fail
  | n + 1 => do
    if (← peek) == some (.mark .leftParen) then
      match ← attempt (derivedTable s inner) with
      | some t => return t
      | none => joinedTable s inner (tableIn n)
    else
      let name ← tableName s.grammar
      return .named name (← tableLabel s.trailingCommas)

/-- A table. -/
def table : Parser Table := do tableIn s inner ((← get).length + 1)

/-- Tables with what is joined to them. -/
def tableList : Parser (List TableJoins) :=
  commaSeparated s.trailingCommas (tableJoins s inner (table s inner))

/-! ## Selections -/

/-- A result and its name. -/
def selectItem : Parser SelectItem := do
  match ← starOrExpr inner with
  | .star t => return ⟨.star t, none⟩
  | .name [i] =>
    if i.quote == none && toLowerCase i.text == "from" then fail
    else return ⟨.name [i], ← label Keyword.endsResult⟩
  | e => return ⟨e, ← label Keyword.endsResult⟩

/-- Whether repeated rows are dropped. -/
def distinctRows : Parser Bool := do
  match ← quantifier with
  | some .distinct => return true
  | _ => return false

/-- What rows are grouped by. -/
def grouping : Parser Grouping := do
  if ← skipWords .GROUP .BY then
    if ← skipWord .ALL then return .all
    else return .by (← commaSeparated s.trailingCommas (inner.expr 0))
  else return .by []

/-- A selection. -/
def select : Parser Select := do
  expectWord .SELECT
  let isDistinct ← distinctRows
  let trailing := s.trailingCommas || s.grammar.allowsTrailingCommaInProjection
  let items ← commaSeparated trailing (selectItem inner)
  let tables ← after .FROM (tableList s inner)
  let filter ← after .WHERE (inner.expr 0)
  let groups ← grouping s inner
  let having ← after .HAVING (inner.expr 0)
  return ⟨isDistinct, items, tables.getD [], filter, groups, having⟩

/-! ## Bodies -/

/-- A row of values. -/
def row : Parser (List Expr) := do
  expectMark .leftParen
  if s.grammar.allowsEmptyRow && (← peek) == some (.mark .rightParen) then
    expectMark .rightParen
    return []
  else
    let values ← commaSeparated s.trailingCommas (inner.expr 0)
    expectMark .rightParen
    return values

/-- Rows of values, each maybe marked by a word. One mark marks them all. -/
def valueRows : Parser Body := do
  let rows ← commaSeparated s.trailingCommas do
    let marked ← skipWord .ROW
    return (marked, ← row s inner)
  return .values (rows.any (·.1)) (rows.map (·.2))

/-- A body that is no combination of others. -/
def plainBody : Parser Body := do
  match ← peekWord with
  | some .SELECT => return .select (← select s inner)
  | some .VALUES =>
    discard take
    valueRows s inner
  | _ => return .query (← parenthesised inner.query)

/-- The operator between two bodies, if one of those given comes first. -/
def setOp (ops : List (Keyword × SetOp)) : Parser (Option (SetOp × Option Quantifier)) := do
  match ← oneOf ops with
  | some op => return some (op, ← oneOf [(.ALL, .all), (.DISTINCT, .distinct)])
  | none => return none

/-- Combine a body with at most `n` others, from the left. -/
def combineIn (ops : List (Keyword × SetOp)) (operand : Parser Body) :
    (n : Nat) → Body → Parser Body
  | 0, left => return left
  | n + 1, left => do
    match ← setOp ops with
    | some (op, quantifier) =>
      combineIn ops operand n (.combined left op quantifier (← operand))
    | none => return left

/-- Bodies combined by some operators. -/
def combine (ops : List (Keyword × SetOp)) (operand : Parser Body) : Parser Body := do
  let first ← operand
  combineIn ops operand (← get).length first

/-- A body. Intersections bind tighter than the other combinations. -/
def body : Parser Body :=
  combine [(.UNION, .union), (.EXCEPT, .except)]
    (combine [(.INTERSECT, .intersect)] (plainBody s inner))

/-! ## Whole queries -/

/-- A query named for use in the one that follows. -/
def namedQuery : Parser NamedQuery := do
  let name ← ident
  let columns ← columnNames s.trailingCommas
  expectWord .AS
  return ⟨⟨name, columns⟩, ← parenthesised inner.query⟩

/-- Where nulls go in an order, where it is said. -/
def nullPlace : Parser (Option NullPlace) := do
  if ← skipWords .NULLS .FIRST then return some .first
  else if ← skipWords .NULLS .LAST then return some .last
  else return none

/-- A value that rows are ordered by. -/
def orderItem : Parser OrderItem := do
  let value ← inner.expr 0
  let descending ← oneOf [(.ASC, false), (.DESC, true)]
  return ⟨value, descending, ← nullPlace⟩

/-- The bounds of a query: how many rows, and how many to pass over first. -/
structure Bounds where
  limit : Option Expr := none
  offset : Option Expr := none
  offsetUnit : OffsetUnit := .none

/-- The bound that comes first, added to those before it. Each comes once, in
any order, and some grammars write both after `LIMIT` with a comma. -/
def bound (b : Bounds) : Parser Bounds := do
  let mut b := b
  if b.limit.isNone then
    if ← skipWord .LIMIT then
      unless ← skipWord .ALL do
        b := { b with limit := some (← inner.expr 0) }
  if b.offset.isNone then
    if ← skipWord .OFFSET then
      let value ← inner.expr 0
      let unit ← oneOf [(.ROW, OffsetUnit.row), (.ROWS, .rows)]
      b := { b with offset := some value, offsetUnit := unit.getD .none }
  if s.grammar.hasLimitComma && b.limit.isSome && b.offset.isNone then
    if ← skipMark .comma then
      b := { b with offset := b.limit, limit := some (← inner.expr 0) }
  return b

/-- A literal. -/
def literal : Parser Literal := do
  match ← take with
  | .number digits long => return .number digits long
  | .string kind text => return .string kind text
  | .word _ (some .TRUE) => return .bool true
  | .word _ (some .FALSE) => return .bool false
  | .word _ (some .NULL) => return .null
  | _ => fail

/-- A setting that a query ends in. -/
def setting : Parser (Ident × Literal) := do
  let name ← ident
  expectMark .eq
  return (name, ← literal)

/-- A query. -/
def queryText : Parser Query := do
  let mut isRecursive := false
  let mut named := []
  if ← skipWord .WITH then
    isRecursive ← skipWord .RECURSIVE
    named ← commaSeparated s.trailingCommas (namedQuery s inner)
  let body ← body s inner
  let order ←
    if ← skipWords .ORDER .BY then commaSeparated s.trailingCommas (orderItem inner)
    else pure []
  let bounds ← bound s inner (← bound s inner {})
  let settings ←
    if s.grammar.hasSettings then after .SETTINGS (commaSeparated s.trailingCommas setting)
    else pure none
  return ⟨isRecursive, named, body, order, bounds.limit, bounds.offset, bounds.offsetUnit,
    settings.getD []⟩

end DetectionPlan.Sql.Parser
