/-
The text of statements, queries and expressions: keywords in capitals, names
as they were written, one blank around operators and a comma and a blank
between the items of a list. No parentheses are added to those of the tree.
-/
import DetectionPlan.Sql.Syntax

namespace DetectionPlan.Sql

/-! ## Names and literals -/

/-- A text for between quotes. A quote is doubled, except that a quote after a
backslash and the second of two quotes stay as they are. -/
def escapeQuotes (quote : Char) : (previous : Char) → List Char → List Char
  | _, [] => []
  | previous, [c] => if c == quote && previous != '\\' then [c, c] else [c]
  | previous, c :: d :: rest =>
    if c == quote then
      if previous == '\\' then c :: escapeQuotes quote previous (d :: rest)
      else if d == quote then c :: d :: escapeQuotes quote c rest
      else c :: c :: escapeQuotes quote c (d :: rest)
    else c :: escapeQuotes quote c (d :: rest)

/-- A text between quotes. -/
def betweenQuotes (quote : Char) (text : String) : String :=
  String.ofList (quote :: (escapeQuotes quote ' ' text.toList ++ [quote]))

/-- A name with the quotes it was written with. -/
def Ident.quoted (i : Ident) : String :=
  match i.quote with
  | none => i.text
  | some '[' => "[" ++ i.text ++ "]"
  | some quote => betweenQuotes quote i.text

/-- The items of a list. -/
def commas (items : List String) : String := String.intercalate ", " items

/-- A word when it is called for, with a blank after it. -/
def word (given : Bool) (text : String) : String := if given then text ++ " " else ""

/-- A qualified name. -/
def nameText (parts : List Ident) : String := String.intercalate "." (parts.map Ident.quoted)

/-- A list of names. -/
def nameList (names : List Ident) : String := commas (names.map Ident.quoted)

def Literal.text : Literal → String
  | number digits long => digits ++ (if long then "L" else "")
  | string .single s => betweenQuotes '\x27' s
  | string .double s => betweenQuotes '"' s
  | string .national s => "N'" ++ s ++ "'"
  | string .hex s => "X'" ++ s ++ "'"
  | string (.triple false) s => "'''" ++ s ++ "'''"
  | string (.triple true) s => "\"\"\"" ++ s ++ "\"\"\""
  | bool b => if b then "true" else "false"
  | null => "NULL"

/-! ## Operators and other words -/

def BinaryOp.text : BinaryOp → String
  | or => "OR"
  | and => "AND"
  | xor => "XOR"
  | eq => "="
  | notEq => "<>"
  | lt => "<"
  | ltEq => "<="
  | gt => ">"
  | gtEq => ">="
  | plus => "+"
  | minus => "-"
  | times => "*"
  | divide => "/"
  | modulo => "%"
  | concat => "||"

/-- An operator before its operand, with the blank that a word needs. -/
def UnaryOp.text : UnaryOp → String
  | plus => "+"
  | minus => "-"
  | not => "NOT "

def TruthTest.text : TruthTest → String
  | null => "NULL"
  | true => "TRUE"
  | false => "FALSE"
  | unknown => "UNKNOWN"

def DataType.text (t : DataType) : String :=
  if t.arguments.isEmpty then t.name
  else t.name ++ "(" ++ String.intercalate "," t.arguments ++ ")"

def ArgumentMark.text : ArgumentMark → String
  | arrow => " => "
  | equals => " = "

def Quantifier.text : Quantifier → String
  | all => "ALL"
  | distinct => "DISTINCT"

def SetOp.text : SetOp → String
  | union => "UNION"
  | except => "EXCEPT"
  | intersect => "INTERSECT"

def JoinKind.text : JoinKind → String
  | inner => "JOIN "
  | left => "LEFT JOIN "
  | right => "RIGHT JOIN "
  | full => "FULL JOIN "
  | cross => "CROSS JOIN "
  | leftSemi => "LEFT SEMI JOIN "
  | rightSemi => "RIGHT SEMI JOIN "
  | leftAnti => "LEFT ANTI JOIN "
  | rightAnti => "RIGHT ANTI JOIN "

def TableLabel.text (l : TableLabel) : String :=
  l.name.quoted ++ (if l.columns.isEmpty then "" else " (" ++ nameList l.columns ++ ")")

/-- The name given to a table, after `AS`. -/
def labelText (l : Option TableLabel) : String := l.elim "" fun l => " AS " ++ l.text

def directionText : Option Bool → String
  | none => ""
  | some true => " DESC"
  | some false => " ASC"

def nullsText : Option NullPlace → String
  | none => ""
  | some .first => " NULLS FIRST"
  | some .last => " NULLS LAST"

def OffsetUnit.text : OffsetUnit → String
  | none => ""
  | row => " ROW"
  | rows => " ROWS"

/-- A conversion of a value to a type. -/
def CastStyle.text (style : CastStyle) (value : String) (type : DataType) : String :=
  match style with
  | cast => "CAST(" ++ value ++ " AS " ++ type.text ++ ")"
  | tryCast => "TRY_CAST(" ++ value ++ " AS " ++ type.text ++ ")"
  | safeCast => "SAFE_CAST(" ++ value ++ " AS " ++ type.text ++ ")"
  | colons => value ++ "::" ++ type.text

/-- The settings that a query ends in. -/
def settingsText (settings : List (Ident × Literal)) : String :=
  if settings.isEmpty then ""
  else " SETTINGS " ++ commas (settings.map fun s => s.1.quoted ++ " = " ++ s.2.text)

/-! ## Expressions and queries -/

mutual

/-- The text of an expression. -/
def Expr.text : Expr → String
  | .name parts => nameText parts
  | .star table => String.join (table.map fun i => i.quoted ++ ".") ++ "*"
  | .literal value => value.text
  | .nested e => "(" ++ e.text ++ ")"
  | .tuple items => "(" ++ commas (exprTexts items) ++ ")"
  | .unary op e => op.text ++ e.text
  | .binary left op right => left.text ++ " " ++ op.text ++ " " ++ right.text
  | .test e negated what => e.text ++ " IS " ++ word negated "NOT" ++ what.text
  | .distinct left negated right =>
    left.text ++ " IS " ++ word negated "NOT" ++ "DISTINCT FROM " ++ right.text
  | .inList e negated items =>
    e.text ++ " " ++ word negated "NOT" ++ "IN (" ++ commas (exprTexts items) ++ ")"
  | .inQuery e negated q => e.text ++ " " ++ word negated "NOT" ++ "IN (" ++ q.text ++ ")"
  | .between e negated low high =>
    e.text ++ " " ++ word negated "NOT" ++ "BETWEEN " ++ low.text ++ " AND " ++ high.text
  | .like e negated caseless pattern escape =>
    e.text ++ " " ++ word negated "NOT" ++ (if caseless then "ILIKE " else "LIKE ") ++
      pattern.text ++ escape.elim "" fun c => " ESCAPE '" ++ c ++ "'"
  | .case operand branches otherwise =>
    "CASE" ++ optionText " " operand ++ String.join (branchTexts branches) ++
      optionText " ELSE " otherwise ++ " END"
  | .cast style e type => style.text e.text type
  | .rounding upward e places =>
    (if upward then "CEIL(" else "FLOOR(") ++ e.text ++
      (places.elim "" fun p => ", " ++ p.text) ++ ")"
  | .exists negated q => word negated "NOT" ++ "EXISTS (" ++ q.text ++ ")"
  | .query q => "(" ++ q.text ++ ")"
  | .call c => c.text

def exprTexts : List Expr → List String
  | [] => []
  | e :: rest => e.text :: exprTexts rest

def branchTexts : List (Expr × Expr) → List String
  | [] => []
  | (condition, result) :: rest =>
    (" WHEN " ++ condition.text ++ " THEN " ++ result.text) :: branchTexts rest

/-- A part that may be absent, with the words before it. -/
def optionText (words : String) : Option Expr → String
  | none => ""
  | some e => words ++ e.text

/-- The text of a call. -/
def Call.text : Call → String
  | ⟨name, arguments⟩ => nameText name ++ arguments.text

def Arguments.text : Arguments → String
  | .absent => ""
  | .list quantifier items =>
    "(" ++ (quantifier.elim "" fun q => q.text ++ " ") ++ commas (argumentTexts items) ++ ")"
  | .query q => "(" ++ q.text ++ ")"

def argumentTexts : List Argument → List String
  | [] => []
  | a :: rest => a.text :: argumentTexts rest

def Argument.text : Argument → String
  | .positional e => e.text
  | .named name mark e => name.quoted ++ mark.text ++ e.text

/-- The text of a query. -/
def Query.text : Query → String
  | ⟨isRecursive, named, body, order, limit, offset, offsetUnit, settings⟩ =>
    let withText := match named with
      | [] => ""
      | _ => "WITH " ++ word isRecursive "RECURSIVE" ++ commas (namedQueryTexts named) ++ " "
    let orderText := match order with
      | [] => ""
      | _ => " ORDER BY " ++ commas (orderTexts order)
    let offsetText := match offset with
      | none => ""
      | some e => " OFFSET " ++ e.text ++ offsetUnit.text
    withText ++ body.text ++ orderText ++ optionText " LIMIT " limit ++ offsetText ++
      settingsText settings

def namedQueryTexts : List NamedQuery → List String
  | [] => []
  | n :: rest => n.text :: namedQueryTexts rest

def NamedQuery.text : NamedQuery → String
  | ⟨label, query⟩ => label.text ++ " AS (" ++ query.text ++ ")"

def Body.text : Body → String
  | .select s => s.text
  | .query q => "(" ++ q.text ++ ")"
  | .combined left op quantifier right =>
    left.text ++ " " ++ op.text ++ (quantifier.elim "" fun q => " " ++ q.text) ++ " " ++ right.text
  | .values marked rows => "VALUES " ++ commas (rowTexts marked rows)

def rowTexts (marked : Bool) : List (List Expr) → List String
  | [] => []
  | row :: rest =>
    ((if marked then "ROW(" else "(") ++ commas (exprTexts row) ++ ")") :: rowTexts marked rest

def Select.text : Select → String
  | ⟨isDistinct, items, tables, filter, groups, having⟩ =>
    let fromText := match tables with
      | [] => ""
      | _ => " FROM " ++ commas (tableJoinsTexts tables)
    "SELECT " ++ word isDistinct "DISTINCT" ++ commas (selectItemTexts items) ++ fromText ++
      optionText " WHERE " filter ++ groups.text ++ optionText " HAVING " having

def selectItemTexts : List SelectItem → List String
  | [] => []
  | i :: rest => i.text :: selectItemTexts rest

def SelectItem.text : SelectItem → String
  | ⟨value, label⟩ => value.text ++ label.elim "" fun l => " AS " ++ l.quoted

def Grouping.text : Grouping → String
  | .all => " GROUP BY ALL"
  | .by [] => ""
  | .by (e :: rest) => " GROUP BY " ++ commas (e.text :: exprTexts rest)

def tableJoinsTexts : List TableJoins → List String
  | [] => []
  | t :: rest => t.text :: tableJoinsTexts rest

def TableJoins.text : TableJoins → String
  | ⟨table, joins⟩ => table.text ++ String.join (joinTexts joins)

def Table.text : Table → String
  | .named name label => nameText name ++ labelText label
  | .derived q label => "(" ++ q.text ++ ")" ++ labelText label
  | .joined t label => "(" ++ t.text ++ ")" ++ labelText label

def joinTexts : List Join → List String
  | [] => []
  | j :: rest => j.text :: joinTexts rest

def Join.text : Join → String
  | ⟨kind, table, condition⟩ =>
    " " ++ (match condition with | .natural => "NATURAL " | _ => "") ++ kind.text ++ table.text ++
      condition.text

def JoinCondition.text : JoinCondition → String
  | .on e => " ON " ++ e.text
  | .using columns => " USING(" ++ nameList columns ++ ")"
  | .natural => ""
  | .none => ""

def orderTexts : List OrderItem → List String
  | [] => []
  | o :: rest => o.text :: orderTexts rest

def OrderItem.text : OrderItem → String
  | ⟨value, descending, nulls⟩ => value.text ++ directionText descending ++ nullsText nulls

end

/-! ## Statements -/

def ColumnOption.text : ColumnOption → String
  | notNull => " NOT NULL"
  | null => " NULL"
  | primaryKey => " PRIMARY KEY"
  | unique => " UNIQUE"
  | default e => " DEFAULT " ++ e.text

def ColumnDefinition.text (c : ColumnDefinition) : String :=
  c.name.quoted ++ (c.type.elim "" fun t => " " ++ t.text) ++
    String.join (c.options.map ColumnOption.text)

def DropRule.text : DropRule → String
  | cascade => " CASCADE"
  | restrict => " RESTRICT"

def ExplainWord.text : ExplainWord → String
  | explain => "EXPLAIN "
  | describe => "DESCRIBE "
  | desc => "DESC "

namespace Statement

/-- The text of a statement. -/
def text : Statement → String
  | query q => q.text
  | insert into table columns source =>
    "INSERT " ++ word into "INTO" ++ nameText table ++ " " ++
      (if columns.isEmpty then "" else "(" ++ nameList columns ++ ") ") ++ source.text
  | update table assignments source filter =>
    "UPDATE " ++ table.text ++ " SET " ++
      commas (assignments.map fun a => nameText a.1 ++ " = " ++ a.2.text) ++
      (source.elim "" fun t => " FROM " ++ t.text) ++ optionText " WHERE " filter
  | delete fromMarked tables filter =>
    "DELETE " ++ word fromMarked "FROM" ++ commas (tables.map TableJoins.text) ++
      optionText " WHERE " filter
  | createTable replacing temporary mayExist name columns source =>
    "CREATE " ++ word replacing "OR REPLACE" ++ word temporary "TEMPORARY" ++ "TABLE " ++
      word mayExist "IF NOT EXISTS" ++ nameText name ++
      (if columns.isEmpty && source.isSome then ""
        else " (" ++ commas (columns.map ColumnDefinition.text) ++ ")") ++
      (source.elim "" fun q => " AS " ++ q.text)
  | dropTable ifExists names rule =>
    "DROP TABLE " ++ word ifExists "IF EXISTS" ++ commas (names.map nameText) ++
      rule.elim "" DropRule.text
  | explain w analyzing verbose s =>
    w.text ++ word analyzing "ANALYZE" ++ word verbose "VERBOSE" ++ s.text
  | explainTable w name => w.text ++ nameText name

end Statement

end DetectionPlan.Sql
