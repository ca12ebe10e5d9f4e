/-
Expressions. Operators bind with a power each; an expression read with a least
power takes in the operators that bind tighter. What nests inside an expression
is read by the parsers in `Inner`, which are one level deeper.
-/
import DetectionPlan.Sql.Parser.Basic

namespace DetectionPlan.Sql.Parser

/-- The parsers for what nests one level deeper. -/
structure Inner where
  /-- An expression of the operators that bind tighter than a power. -/
  expr : (power : Nat) → Parser Expr
  query : Parser Query

/-! ## Types -/

/-- The types that are written in capitals whatever their case was. -/
def knownTypes : List String := [
  "BOOLEAN", "BOOL", "FLOAT", "FLOAT4", "FLOAT8", "FLOAT64", "REAL", "DOUBLE", "TINYINT",
  "SMALLINT", "MEDIUMINT", "INT", "INT2", "INT4", "INT8", "INT64", "INTEGER", "BIGINT",
  "VARCHAR", "NVARCHAR", "CHAR", "CHARACTER", "CLOB", "BINARY", "VARBINARY", "BLOB", "BYTES",
  "UUID", "DATE", "DATETIME", "TIMESTAMP", "TIMESTAMPTZ", "TIME", "JSON", "JSONB", "STRING",
  "TEXT", "BYTEA", "NUMERIC", "DECIMAL", "DEC", "BIGNUMERIC", "BIGDECIMAL"]

/-- A number among the arguments of a type. -/
def typeArgument : Parser String := do
  match ← take with
  | .number digits _ => return digits
  | .word name none => return name.text
  | _ => fail

/-- A type. -/
def dataType : Parser DataType := do
  let name ← ident
  let arguments ←
    if (← peek) == some (.mark .leftParen) then parenthesised (commaSeparated false typeArgument)
    else pure []
  let capitals := asciiUpper name.text
  if name.quote == none && knownTypes.contains capitals then return ⟨capitals, arguments⟩
  else return ⟨name.text, arguments⟩

variable (s : ParserSettings) (inner : Inner)

/-! ## Operands -/

/-- A star or an expression: a result or an argument. -/
def starOrExpr : Parser Expr := do
  match ← get with
  | .mark .star :: rest =>
    set rest
    return .star []
  | .word name _ :: .mark .period :: rest =>
    let ((parts, star), rest) ← nameTail true (.mark .period :: rest)
    if star then
      set rest
      return .star (name :: parts)
    else inner.expr 0
  | .string .single text :: .mark .period :: rest =>
    let ((parts, star), rest) ← nameTail true (.mark .period :: rest)
    if star then
      set rest
      return .star (⟨text, some '\x27'⟩ :: parts)
    else inner.expr 0
  | _ => inner.expr 0

/-- The mark that names an argument, if the grammar has it. -/
def argumentMark? (g : Grammar) : Mark → Option ArgumentMark
  | .arrow => some .arrow
  | .eq => if g.namesArgumentsWithEquals then some .equals else none
  | _ => none

/-- The name and mark that an argument starts with. -/
def argumentName : Parser (Option (Ident × ArgumentMark)) := do
  let named (name : Ident) (m : Mark) (rest : List Token) :
      Parser (Option (Ident × ArgumentMark)) := do
    match argumentMark? s.grammar m with
    | some mark =>
      set rest
      return some (name, mark)
    | none => return none
  match ← get with
  | .word name _ :: .mark m :: rest => named name m rest
  | .string .single text :: .mark m :: rest => named ⟨text, some '\x27'⟩ m rest
  | .string .double text :: .mark m :: rest => named ⟨text, some '"'⟩ m rest
  | _ => return none

/-- An argument of a call. -/
def argument : Parser Argument := do
  match ← argumentName s with
  | some (name, mark) => return .named name mark (← starOrExpr inner)
  | none => return .positional (← starOrExpr inner)

/-- Whether repeated rows or values count, where it is said. -/
def quantifier : Parser (Option Quantifier) := do
  let all ← skipWord .ALL
  let distinct ← skipWord .DISTINCT
  match all, distinct with
  | true, true => fail
  | true, false => return some .all
  | false, true => return some .distinct
  | false, false => return none

/-- The arguments of a call, from after the opening parenthesis. -/
def argumentList : Parser Arguments := do
  if ← skipMark .rightParen then return .list none []
  else
    let quantifier ← quantifier
    let items ← commaSeparated s.trailingCommas (argument s inner)
    expectMark .rightParen
    return .list quantifier items

/-- Whether a query comes first. -/
def atQuery : Parser Bool := do
  let k ← peekWord
  return k == some .SELECT || k == some .WITH

/-- The arguments of a call, which some grammars let a query stand for. -/
def arguments : Parser Arguments := do
  if s.grammar.allowsBareSubquery && (← atQuery) then
    let q ← inner.query
    expectMark .rightParen
    return .query q
  else argumentList s inner

/-- A name, a star of a table, or a call, from after its first word. -/
def nameOrCall (first : Ident) : Parser Expr := do
  let (parts, star) ← nameTail s.grammar.allowsStarValue
  if star then return .star (first :: parts)
  else if ← skipMark .leftParen then
    return .call ⟨first :: parts, ← arguments s inner⟩
  else return .name (first :: parts)

/-- A call that may stand without parentheses. -/
def wordCall (name : Ident) : Parser Expr := do
  if ← skipMark .leftParen then return .call ⟨[name], ← argumentList s inner⟩
  else return .call ⟨[name], .absent⟩

/-- What stands between parentheses: a query, an expression or several. -/
def group : Parser Expr := do
  let e ←
    if ← atQuery then pure (.query (← inner.query))
    else match ← commaSeparated s.trailingCommas (inner.expr 0) with
      | [e] => pure (.nested e)
      | items => pure (.tuple items)
  expectMark .rightParen
  return e

/-- At most `n` branches of a case, each from after its first word. -/
def branchesIn : (n : Nat) → Parser (List (Expr × Expr))
  | 0 => fail
  | n + 1 => do
    let condition ← inner.expr 0
    expectWord .THEN
    let result ← inner.expr 0
    if ← skipWord .WHEN then return (condition, result) :: (← branchesIn n)
    else return [(condition, result)]

/-- A case, from after its first word. -/
def caseExpr : Parser Expr := do
  let operand ←
    if ← skipWord .WHEN then pure none
    else
      let e ← inner.expr 0
      expectWord .WHEN
      pure (some e)
  let branches ← branchesIn inner (← get).length
  let otherwise ← after .ELSE (inner.expr 0)
  expectWord .END
  return .case operand branches otherwise

/-- A conversion, from after its first word. -/
def castExpr (style : CastStyle) : Parser Expr := parenthesised do
  let e ← inner.expr 0
  expectWord .AS
  return .cast style e (← dataType)

/-- A rounding, from after its first word. -/
def roundingExpr (upward : Bool) : Parser Expr := parenthesised do
  let e ← inner.expr 0
  if ← skipMark .comma then
    match ← take with
    | .number digits long => return .rounding upward e (some (.number digits long))
    | _ => fail
  else return .rounding upward e none

/-- The query of a test for rows. -/
def existsExpr (negated : Bool) : Parser Expr := do
  return .exists negated (← parenthesised inner.query)

/-- The power of `NOT`. -/
def notPower : Nat := 15

/-- The power of multiplication, and of signs. -/
def timesPower : Nat := 40

/-- An expression that starts with a keyword. Other keywords are names. -/
def keywordExpr (name : Ident) (k : Keyword) : Parser Expr :=
  match k with
  | .TRUE => return .literal (.bool true)
  | .FALSE => return .literal (.bool false)
  | .NULL => return .literal .null
  | .CURRENT_DATE | .CURRENT_TIME | .CURRENT_TIMESTAMP | .LOCALTIME | .LOCALTIMESTAMP =>
    wordCall s inner name
  | .CURRENT_CATALOG | .CURRENT_USER | .SESSION_USER | .USER =>
    if s.grammar.hasUserWords then return .call ⟨[name], .absent⟩ else nameOrCall s inner name
  | .CASE => caseExpr inner
  | .CAST => castExpr inner .cast
  | .TRY_CAST => castExpr inner .tryCast
  | .SAFE_CAST => castExpr inner .safeCast
  | .CEIL => roundingExpr inner true
  | .FLOOR => roundingExpr inner false
  | .EXISTS => existsExpr inner false
  | .NOT => do
    if ← skipWord .EXISTS then existsExpr inner true
    else return .unary .not (← inner.expr notPower)
  | _ => nameOrCall s inner name

/-- An expression up to its first operator. -/
def operand : Parser Expr := do
  match ← take with
  | .word name (some k) => keywordExpr s inner name k
  | .word name none => nameOrCall s inner name
  | .number digits long => return .literal (.number digits long)
  | .string kind text => return .literal (.string kind text)
  | .mark .minus => return .unary .minus (← inner.expr timesPower)
  | .mark .plus => return .unary .plus (← inner.expr timesPower)
  | .mark .leftParen => group s inner
  | _ => fail

/-! ## Operators -/

/-- The operator of a mark, and its power. -/
def markOp? : Mark → Option (BinaryOp × Nat)
  | .eq | .doubleEq => some (.eq, 20)
  | .notEq => some (.notEq, 20)
  | .lt => some (.lt, 20)
  | .ltEq => some (.ltEq, 20)
  | .gt => some (.gt, 20)
  | .gtEq => some (.gtEq, 20)
  | .plus => some (.plus, 30)
  | .minus => some (.minus, 30)
  | .star => some (.times, timesPower)
  | .slash => some (.divide, timesPower)
  | .percent => some (.modulo, timesPower)
  | .concat => some (.concat, timesPower)
  | _ => none

/-- The operator of a keyword, and its power. -/
def wordOp? : Keyword → Option (BinaryOp × Nat)
  | .OR => some (.or, 5)
  | .AND => some (.and, 10)
  | .XOR => some (.xor, 24)
  | _ => none

/-- The power of `IS`. -/
def isPower : Nat := 17

/-- The power of `LIKE`. -/
def likePower : Nat := 19

/-- The power of `IN` and `BETWEEN`. -/
def rangePower : Nat := 20

/-- The power of a word that may be negated. -/
def negatablePower : Keyword → Nat
  | .IN | .BETWEEN => rangePower
  | .LIKE | .ILIKE => likePower
  | _ => 0

/-- The power of what comes first; nothing that is no operator has any. -/
def nextPower : List Token → Nat
  | .mark .doubleColon :: _ => 50
  | .mark m :: _ => (markOp? m).elim 0 (·.2)
  | .word _ (some .NOT) :: .word _ (some k) :: _ => negatablePower k
  | .word _ (some .IS) :: _ => isPower
  | .word _ (some k) :: _ => match wordOp? k with
    | some (_, power) => power
    | none => negatablePower k
  | _ => 0

/-- A test, from after `IS`. -/
def testExpr (e : Expr) : Parser Expr := do
  let negated ← skipWord .NOT
  if ← skipWords .DISTINCT .FROM then return .distinct e negated (← inner.expr 0)
  else match ← peekWord with
    | some .NULL => finish negated .null
    | some .TRUE => finish negated .true
    | some .FALSE => finish negated .false
    | some .UNKNOWN => finish negated .unknown
    | _ => fail
where
  finish (negated : Bool) (what : TruthTest) : Parser Expr := do
    discard take
    return .test e negated what

/-- A list or query, from after `IN`. -/
def inExpr (e : Expr) (negated : Bool) : Parser Expr := parenthesised do
  if ← atQuery then return .inQuery e negated (← inner.query)
  else if s.grammar.allowsEmptyIn && (← peek) == some (.mark .rightParen) then
    return .inList e negated []
  else return .inList e negated (← commaSeparated s.trailingCommas (inner.expr 0))

/-- The bounds of a range, from after `BETWEEN`. -/
def betweenExpr (e : Expr) (negated : Bool) : Parser Expr := do
  let low ← inner.expr rangePower
  expectWord .AND
  return .between e negated low (← inner.expr rangePower)

/-- A pattern, from after `LIKE`. -/
def likeExpr (e : Expr) (negated caseless : Bool) : Parser Expr := do
  let pattern ← inner.expr likePower
  let escape ← after .ESCAPE do
    match ← take with
    | .string .single text | .string .double text => return text
    | .word name _ => return name.text
    | _ => fail
  return .like e negated caseless pattern escape

/-- The operator that comes first with its right operand, for a left one. -/
def infixExpr (left : Expr) : Parser Expr := do
  match ← take with
  | .mark .doubleColon => return .cast .colons left (← dataType)
  | .mark m => match markOp? m with
    | some (op, power) => return .binary left op (← inner.expr power)
    | none => fail
  | .word _ (some .IS) => testExpr inner left
  | .word _ (some .NOT) => negatable true (← take)
  | .word name (some k) => match wordOp? k with
    | some (op, power) => return .binary left op (← inner.expr power)
    | none => negatable false (.word name (some k))
  | _ => fail
where
  negatable (negated : Bool) : Token → Parser Expr
    | .word _ (some .IN) => inExpr s inner left negated
    | .word _ (some .BETWEEN) => betweenExpr inner left negated
    | .word _ (some .LIKE) => likeExpr inner left negated false
    | .word _ (some .ILIKE) => likeExpr inner left negated true
    | _ => fail

/-- Take in at most `n` operators that bind tighter than `power`. -/
def operatorsIn (power : Nat) : (n : Nat) → Expr → Parser Expr
  | 0, left => return left
  | n + 1, left => do
    if power < nextPower (← get) then operatorsIn power n (← infixExpr s inner left)
    else return left

/-- An expression of the operators that bind tighter than `power`. -/
def expression (power : Nat) : Parser Expr := do
  let left ← operand s inner
  operatorsIn s inner power (← get).length left

end DetectionPlan.Sql.Parser
