/-
Statements, queries and expressions as trees. Parentheses that the text has are
nodes of the tree (`Expr.nested`), so a tree holds all that its text shows.
-/
import DetectionPlan.Sql.Token

namespace DetectionPlan.Sql

/-- A literal other than a sequence. -/
inductive Literal where
  | number (digits : String) (long : Bool)
  | string (kind : StringKind) (text : String)
  | bool (b : Bool)
  | null
deriving DecidableEq, Repr, Inhabited

/-- Operators before their operand. -/
inductive UnaryOp where
  | plus | minus | not
deriving DecidableEq, Repr, Inhabited

/-- Operators between their operands. -/
inductive BinaryOp where
  | or | and | xor
  | eq | notEq | lt | ltEq | gt | gtEq
  | plus | minus | times | divide | modulo | concat
deriving DecidableEq, Repr, Inhabited

/-- What a value is tested for after `IS`. -/
inductive TruthTest where
  | null | true | false | unknown
deriving DecidableEq, Repr, Inhabited

/-- The ways to write a conversion. -/
inductive CastStyle where
  | cast | tryCast | safeCast
  /-- The type after two colons. -/
  | colons
deriving DecidableEq, Repr, Inhabited

/-- A type as written, with its arguments. -/
structure DataType where
  name : String
  arguments : List String := []
deriving DecidableEq, Repr, Inhabited

/-- The marks between the name of an argument and its value. -/
inductive ArgumentMark where
  | arrow | equals
deriving DecidableEq, Repr, Inhabited

/-- Whether repeated rows or values count. -/
inductive Quantifier where
  | all | distinct
deriving DecidableEq, Repr, Inhabited

/-- Queries combined row by row. -/
inductive SetOp where
  | union | except | intersect
deriving DecidableEq, Repr, Inhabited

/-- The kinds of joins. -/
inductive JoinKind where
  | inner | left | right | full | cross | leftSemi | rightSemi | leftAnti | rightAnti
deriving DecidableEq, Repr, Inhabited

/-- The name given to a table, and to its columns. -/
structure TableLabel where
  name : Ident
  columns : List Ident := []
deriving DecidableEq, Repr, Inhabited

/-- Where nulls go in an order. -/
inductive NullPlace where
  | first | last
deriving DecidableEq, Repr, Inhabited

/-- The word after an offset. -/
inductive OffsetUnit where
  | none | row | rows
deriving DecidableEq, Repr, Inhabited

mutual

/-- An expression. -/
inductive Expr where
  /-- A name; with several parts a qualified one. -/
  | name (parts : List Ident)
  /-- All columns, of one table when that is named. -/
  | star (table : List Ident)
  | literal (value : Literal)
  | nested (e : Expr)
  | tuple (items : List Expr)
  | unary (op : UnaryOp) (e : Expr)
  | binary (left : Expr) (op : BinaryOp) (right : Expr)
  | test (e : Expr) (negated : Bool) (what : TruthTest)
  | distinct (left : Expr) (negated : Bool) (right : Expr)
  | inList (e : Expr) (negated : Bool) (items : List Expr)
  | inQuery (e : Expr) (negated : Bool) (q : Query)
  | between (e : Expr) (negated : Bool) (low high : Expr)
  | like (e : Expr) (negated caseless : Bool) (pattern : Expr) (escape : Option String)
  | case (operand : Option Expr) (branches : List (Expr × Expr)) (otherwise : Option Expr)
  | cast (style : CastStyle) (e : Expr) (type : DataType)
  /-- The nearest integer, or number of some places, below or above. -/
  | rounding (upward : Bool) (e : Expr) (places : Option Literal)
  | exists (negated : Bool) (q : Query)
  | query (q : Query)
  | call (c : Call)

/-- A function applied to arguments. -/
structure Call where
  name : List Ident
  arguments : Arguments

/-- The arguments of a call. -/
inductive Arguments where
  /-- No parentheses follow the name. -/
  | absent
  | list (quantifier : Option Quantifier) (items : List Argument)
  | query (q : Query)

/-- One argument of a call. -/
inductive Argument where
  | positional (e : Expr)
  | named (name : Ident) (mark : ArgumentMark) (e : Expr)

/-- A query: its body, the queries it names, its order and its bounds. -/
structure Query where
  isRecursive : Bool
  named : List NamedQuery
  body : Body
  order : List OrderItem
  limit : Option Expr
  offset : Option Expr
  offsetUnit : OffsetUnit
  settings : List (Ident × Literal)

/-- A query named for use in another. -/
structure NamedQuery where
  label : TableLabel
  query : Query

/-- What rows a query gives. -/
inductive Body where
  | select (s : Select)
  | query (q : Query)
  | combined (left : Body) (op : SetOp) (quantifier : Option Quantifier) (right : Body)
  | values (marked : Bool) (rows : List (List Expr))

/-- A selection of columns from tables. -/
structure Select where
  isDistinct : Bool
  items : List SelectItem
  tables : List TableJoins
  filter : Option Expr
  groups : Grouping
  having : Option Expr

/-- A result, and its name. -/
structure SelectItem where
  value : Expr
  label : Option Ident

/-- What rows are grouped by. -/
inductive Grouping where
  | all
  | by (items : List Expr)

/-- A table and what is joined to it. -/
structure TableJoins where
  table : Table
  joins : List Join

/-- A source of rows. -/
inductive Table where
  | named (name : List Ident) (label : Option TableLabel)
  | derived (q : Query) (label : Option TableLabel)
  | joined (t : TableJoins) (label : Option TableLabel)

/-- A table joined to those before it. -/
structure Join where
  kind : JoinKind
  table : Table
  condition : JoinCondition

/-- Which rows of a join belong together. -/
inductive JoinCondition where
  | on (e : Expr)
  | using (columns : List Ident)
  | natural
  | none

/-- A value that rows are ordered by. -/
structure OrderItem where
  value : Expr
  descending : Option Bool
  nulls : Option NullPlace

end

instance : Inhabited Expr := ⟨.name []⟩

/-- What is said about a column besides its type. -/
inductive ColumnOption where
  | notNull | null | primaryKey | unique
  | default (e : Expr)

/-- A column of a new table. -/
structure ColumnDefinition where
  name : Ident
  type : Option DataType
  options : List ColumnOption

/-- What becomes of the things that depend on a dropped table. -/
inductive DropRule where
  | cascade | restrict
deriving DecidableEq, Repr, Inhabited

/-- The words that ask for an explanation. -/
inductive ExplainWord where
  | explain | describe | desc
deriving DecidableEq, Repr, Inhabited

/-- A statement. -/
inductive Statement where
  | query (q : Query)
  | insert (into : Bool) (table : List Ident) (columns : List Ident) (source : Query)
  | update (table : TableJoins) (assignments : List (List Ident × Expr))
      (source : Option TableJoins) (filter : Option Expr)
  | delete (fromMarked : Bool) (tables : List TableJoins) (filter : Option Expr)
  | createTable (replacing temporary mayExist : Bool) (name : List Ident)
      (columns : List ColumnDefinition) (source : Option Query)
  | dropTable (ifExists : Bool) (names : List (List Ident)) (rule : Option DropRule)
  | explain (word : ExplainWord) (analyzing verbose : Bool) (s : Statement)
  | explainTable (word : ExplainWord) (name : List Ident)

namespace Query

/-- A query that is nothing but a body. -/
def ofBody (body : Body) : Query := ⟨false, [], body, [], none, none, .none, []⟩

/-- Whether the query names others. -/
def hasNamed (q : Query) : Bool := !q.named.isEmpty

end Query

end DetectionPlan.Sql
