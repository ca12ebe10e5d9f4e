/-
Statements, and the depth to which all of this may nest. Statements, queries
and expressions each take one level; a text that needs more levels than the
settings allow has a fault of nesting.
-/
import DetectionPlan.Sql.Parser.Query

namespace DetectionPlan.Sql

namespace Parser

variable (s : ParserSettings) (inner : Inner)

/-- Rows to add. -/
def insertStatement : Parser Statement := do
  let into ← skipWord .INTO
  let table ← tableName s.grammar
  let columns ← columnNames s.trailingCommas
  return .insert into table columns (← inner.query)

/-- A column and its new value. -/
def assignment : Parser (List Ident × Expr) := do
  let column ← tableName s.grammar
  expectMark .eq
  return (column, ← inner.expr 0)

/-- Rows to change. -/
def updateStatement : Parser Statement := do
  let target ← tableJoins s inner (table s inner)
  expectWord .SET
  let assignments ← commaSeparated s.trailingCommas (assignment s inner)
  let source ← after .FROM (tableJoins s inner (table s inner))
  let filter ← after .WHERE (inner.expr 0)
  return .update target assignments source filter

/-- Rows to delete. -/
def deleteStatement : Parser Statement := do
  let fromMarked ← skipWord .FROM
  unless fromMarked || s.grammar.allowsDeleteWithoutFrom do fail
  let tables ← tableList s inner
  let filter ← after .WHERE (inner.expr 0)
  return .delete fromMarked tables filter

/-- What is said about a column besides its type, if anything comes first. -/
def columnOption : Parser (Option ColumnOption) := do
  if ← skipWords .NOT .NULL then return some .notNull
  else if ← skipWord .NULL then return some .null
  else if ← skipWords .PRIMARY .KEY then return some .primaryKey
  else if ← skipWord .UNIQUE then return some .unique
  else if ← skipWord .DEFAULT then return some (.default (← inner.expr 0))
  else return none

/-- At most `n` things said about a column. -/
def columnOptionsIn : (n : Nat) → Parser (List ColumnOption)
  | 0 => return []
  | n + 1 => do
    match ← columnOption inner with
    | some o => return o :: (← columnOptionsIn n)
    | none => return []

/-- A column of a new table. -/
def columnDefinition : Parser ColumnDefinition := do
  let name ← ident
  let type ←
    match ← peek with
    | some (.word _ _) => some <$> dataType
    | _ => if s.grammar == .sqlite then pure none else fail
  return ⟨name, type, ← columnOptionsIn inner (← get).length⟩

/-- The columns of a new table. -/
def columnDefinitions : Parser (List ColumnDefinition) := do
  if ← skipMark .leftParen then
    if ← skipMark .rightParen then return []
    else
      let columns ← commaSeparated s.trailingCommas (columnDefinition s inner)
      expectMark .rightParen
      return columns
  else return []

/-- Three keywords that say that a table need not be new. -/
def mayExist : Parser Bool := do
  if ← skipWord .IF then
    expectWord .NOT
    expectWord .EXISTS
    return true
  else return false

/-- A new table. -/
def createStatement : Parser Statement := do
  let replacing ← skipWords .OR .REPLACE
  let temporary ← skipWord .TEMPORARY
  expectWord .TABLE
  let mayExist ← mayExist
  let name ← tableName s.grammar
  let columns ← columnDefinitions s inner
  let source ← after .AS inner.query
  return .createTable replacing temporary mayExist name columns source

/-- Tables to drop. -/
def dropStatement : Parser Statement := do
  expectWord .TABLE
  let ifExists ← skipWords .IF .EXISTS
  let names ← commaSeparated s.trailingCommas (tableName s.grammar)
  return .dropTable ifExists names (← oneOf [(.CASCADE, .cascade), (.RESTRICT, .restrict)])

/-- Whether an opening parenthesis after `EXPLAIN` starts a list of options. -/
def hasExplainOptions (g : Grammar) : Bool := g == .generic || g == .postgreSql || g == .duckDb

/-- A statement or table to explain. Explanations are not explained. -/
def explainStatement (word : ExplainWord) (statement : Parser Statement) : Parser Statement := do
  if word == .explain && hasExplainOptions s.grammar && (← peek) == some (.mark .leftParen) then
    fail
  let analyzing ← skipWord .ANALYZE
  let verbose ← skipWord .VERBOSE
  match ← attempt statement with
  | some (.explain ..) | some (.explainTable ..) => fail
  | some explained => return .explain word analyzing verbose explained
  | none => return .explainTable word (← tableName s.grammar)

/-- A statement, told by its first word. -/
def statementText (statement : Parser Statement) : Parser Statement := do
  match ← peek with
  | some (.mark .leftParen) => return .query (← inner.query)
  | some (.word _ (some k)) =>
    match k with
    | .SELECT | .WITH | .VALUES => return .query (← inner.query)
    | .INSERT => rest (insertStatement s inner)
    | .UPDATE => rest (updateStatement s inner)
    | .DELETE => rest (deleteStatement s inner)
    | .CREATE => rest (createStatement s inner)
    | .DROP => rest (dropStatement s)
    | .EXPLAIN => rest (explainStatement s .explain statement)
    | .DESCRIBE => rest (explainStatement s .describe statement)
    | .DESC => rest (explainStatement s .desc statement)
    | _ => fail
  | _ => fail
where
  rest (p : Parser Statement) : Parser Statement := do
    discard take
    p

/-! ## Depth -/

mutual

/-- An expression in at most `depth` levels. -/
def exprIn : (depth : Nat) → (power : Nat) → List Token → Except SyntaxFault (Expr × List Token)
  | 0, _, _ => .error .nesting
  | depth + 1, power, tokens => expression s ⟨exprIn depth, queryIn depth⟩ power tokens

/-- A query in at most `depth` levels. -/
def queryIn : (depth : Nat) → List Token → Except SyntaxFault (Query × List Token)
  | 0, _ => .error .nesting
  | depth + 1, tokens => queryText s ⟨exprIn depth, queryIn depth⟩ tokens

end

/-- The parsers for what nests in something that has `depth` levels. -/
def innerIn (depth : Nat) : Inner := ⟨exprIn s depth, queryIn s depth⟩

/-- A statement in at most `depth` levels. -/
def statementIn : (depth : Nat) → List Token → Except SyntaxFault (Statement × List Token)
  | 0, _ => .error .nesting
  | depth + 1, tokens => statementText s (innerIn s depth) (statementIn depth) tokens

/-- At most `n` statements with semicolons after them. Of several semicolons
all but one are idle, and so are those before the first statement. -/
def statementsIn : (n : Nat) → (parted : Bool) → Parser (List Statement)
  | 0, _ => return []
  | n + 1, parted => do
    if ← skipMark .semicolon then statementsIn n true
    else match ← peek with
      | none => return []
      | some t =>
        if parted then
          let statement ← statementIn s s.recursionLimit
          return statement :: (← statementsIn n false)
        else match t with
          | .word _ (some .END) => return []
          | _ => fail

end Parser

namespace ParserSettings

/-- The statements of a text. -/
def parseStatements (s : ParserSettings) (text : String) : Except SyntaxFault (List Statement) := do
  let tokens ← Lexer.scan s text
  let (statements, _) ← Parser.statementsIn s (tokens.length + 1) true tokens
  return statements

/-- The only statement of a text. -/
def parseStatement (s : ParserSettings) (text : String) : Outcome Statement := do
  match ← (s.parseStatements text).mapError .badSyntax with
  | [statement] => .ok statement
  | statements =>
    .error (.unsupportedQueryShape
      s!"expected exactly one statement, found {statements.length}")

/-- The expression that a text consists of. -/
def parseExpr (s : ParserSettings) (text : String) : Except SyntaxFault Expr := do
  let tokens ← Lexer.scan s text
  match ← Parser.exprIn s s.recursionLimit 0 tokens with
  | (e, []) => return e
  | _ => throw .grammar

end ParserSettings

end DetectionPlan.Sql
