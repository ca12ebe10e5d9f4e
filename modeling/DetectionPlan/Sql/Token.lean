/-
Words, names, literals and marks: what the text of a query is cut into. A word
without quotes may be a keyword, in any case of its letters.
-/
import DetectionPlan.Text.Casing

namespace DetectionPlan.Sql

/-- A name, and the opening quote around it if there is one. -/
structure Ident where
  text : String
  quote : Option Char := none
deriving DecidableEq, Repr, Inhabited

/-- The words that mean something to the grammar of queries. -/
inductive Keyword where
  | ALL | ANALYZE | AND | ANTI | AS | ASC | ASOF | BETWEEN | BY | CASCADE | CASE | CAST | CEIL
  | CLUSTER | CONNECT | CREATE | CROSS | CURRENT_CATALOG | CURRENT_DATE | CURRENT_TIME
  | CURRENT_TIMESTAMP | CURRENT_USER | DEFAULT | DELETE | DESC | DESCRIBE | DISTINCT | DISTRIBUTE
  | DROP | ELSE | END | ESCAPE | EXCEPT | EXISTS | EXPLAIN | FALSE | FETCH | FIRST | FLOOR | FOR
  | FORMAT | FROM | FULL | GLOBAL | GROUP | HAVING | IF | ILIKE | IN | INNER | INSERT | INTERSECT
  | INTO | IS | JOIN | KEY | LAST | LATERAL | LEFT | LIKE | LIMIT | LOCALTIME | LOCALTIMESTAMP
  | MATCH_CONDITION | MATCH_RECOGNIZE | NATURAL | NOT | NULL | NULLS | OFFSET | ON | OR | ORDER
  | OUTER | PARTITION | PIVOT | PREWHERE | PRIMARY | QUALIFY | RECURSIVE | REPLACE | RESTRICT
  | RETURNING | RIGHT | ROW | ROWS | SAFE_CAST | SELECT | SEMI | SESSION_USER | SET | SETTINGS
  | SORT | START | TABLE | TEMPORARY | THEN | TOP | TRUE | TRY_CAST | UNION | UNIQUE | UNKNOWN
  | UNPIVOT | UPDATE | USER | USING | VALUES | VERBOSE | VIEW | WHEN | WHERE | WINDOW | WITH | XOR
deriving DecidableEq, Repr, Inhabited

namespace Keyword

/-- Keywords by their spelling in capitals. -/
def spellings : List (String × Keyword) := [
  ("ALL", ALL), ("ANALYZE", ANALYZE), ("AND", AND), ("ANTI", ANTI), ("AS", AS), ("ASC", ASC),
  ("ASOF", ASOF), ("BETWEEN", BETWEEN), ("BY", BY), ("CASCADE", CASCADE), ("CASE", CASE),
  ("CAST", CAST), ("CEIL", CEIL), ("CLUSTER", CLUSTER), ("CONNECT", CONNECT), ("CREATE", CREATE),
  ("CROSS", CROSS), ("CURRENT_CATALOG", CURRENT_CATALOG), ("CURRENT_DATE", CURRENT_DATE),
  ("CURRENT_TIME", CURRENT_TIME), ("CURRENT_TIMESTAMP", CURRENT_TIMESTAMP),
  ("CURRENT_USER", CURRENT_USER), ("DEFAULT", DEFAULT), ("DELETE", DELETE), ("DESC", DESC),
  ("DESCRIBE", DESCRIBE), ("DISTINCT", DISTINCT), ("DISTRIBUTE", DISTRIBUTE), ("DROP", DROP),
  ("ELSE", ELSE), ("END", END), ("ESCAPE", ESCAPE), ("EXCEPT", EXCEPT), ("EXISTS", EXISTS),
  ("EXPLAIN", EXPLAIN), ("FALSE", FALSE), ("FETCH", FETCH), ("FIRST", FIRST), ("FLOOR", FLOOR),
  ("FOR", FOR), ("FORMAT", FORMAT), ("FROM", FROM), ("FULL", FULL), ("GLOBAL", GLOBAL),
  ("GROUP", GROUP), ("HAVING", HAVING), ("IF", IF), ("ILIKE", ILIKE), ("IN", IN),
  ("INNER", INNER), ("INSERT", INSERT), ("INTERSECT", INTERSECT), ("INTO", INTO), ("IS", IS),
  ("JOIN", JOIN), ("KEY", KEY), ("LAST", LAST), ("LATERAL", LATERAL), ("LEFT", LEFT),
  ("LIKE", LIKE), ("LIMIT", LIMIT), ("LOCALTIME", LOCALTIME), ("LOCALTIMESTAMP", LOCALTIMESTAMP),
  ("MATCH_CONDITION", MATCH_CONDITION), ("MATCH_RECOGNIZE", MATCH_RECOGNIZE),
  ("NATURAL", NATURAL), ("NOT", NOT), ("NULL", NULL), ("NULLS", NULLS), ("OFFSET", OFFSET),
  ("ON", ON), ("OR", OR), ("ORDER", ORDER), ("OUTER", OUTER), ("PARTITION", PARTITION),
  ("PIVOT", PIVOT), ("PREWHERE", PREWHERE), ("PRIMARY", PRIMARY), ("QUALIFY", QUALIFY),
  ("RECURSIVE", RECURSIVE), ("REPLACE", REPLACE), ("RESTRICT", RESTRICT),
  ("RETURNING", RETURNING), ("RIGHT", RIGHT), ("ROW", ROW), ("ROWS", ROWS),
  ("SAFE_CAST", SAFE_CAST), ("SELECT", SELECT), ("SEMI", SEMI), ("SESSION_USER", SESSION_USER),
  ("SET", SET), ("SETTINGS", SETTINGS), ("SORT", SORT), ("START", START), ("TABLE", TABLE),
  ("TEMPORARY", TEMPORARY), ("THEN", THEN), ("TOP", TOP), ("TRUE", TRUE), ("TRY_CAST", TRY_CAST),
  ("UNION", UNION), ("UNIQUE", UNIQUE), ("UNKNOWN", UNKNOWN), ("UNPIVOT", UNPIVOT),
  ("UPDATE", UPDATE), ("USER", USER), ("USING", USING), ("VALUES", VALUES), ("VERBOSE", VERBOSE),
  ("VIEW", VIEW), ("WHEN", WHEN), ("WHERE", WHERE), ("WINDOW", WINDOW), ("WITH", WITH),
  ("XOR", XOR)]

/-- The keyword that a word spells in any case. -/
def ofWord? (word : String) : Option Keyword := spellings.lookup (asciiUpper word)

/-- Words that end a result and so do not name it. -/
def endsResult : Keyword → Bool
  | WITH | EXPLAIN | ANALYZE | SELECT | WHERE | GROUP | SORT | HAVING | ORDER | TOP | LATERAL | VIEW
  | LIMIT | OFFSET | FETCH | UNION | EXCEPT | INTERSECT | CLUSTER | DISTRIBUTE | RETURNING | FROM
  | INTO | END => true
  | _ => false

/-- Words that end a table and so do not name it. -/
def endsTable : Keyword → Bool
  | WITH | EXPLAIN | ANALYZE | SELECT | WHERE | GROUP | SORT | HAVING | ORDER | PIVOT | UNPIVOT
  | TOP | LATERAL | VIEW | LIMIT | OFFSET | FETCH | UNION | EXCEPT | INTERSECT | ON | JOIN | INNER
  | CROSS | FULL | LEFT | RIGHT | NATURAL | USING | CLUSTER | DISTRIBUTE | GLOBAL | ANTI | SEMI
  | RETURNING | ASOF | MATCH_CONDITION | OUTER | SET | QUALIFY | WINDOW | END | FOR | PARTITION
  | PREWHERE | SETTINGS | FORMAT | START | CONNECT | MATCH_RECOGNIZE => true
  | _ => false

end Keyword

/-- The kinds of string literals. -/
inductive StringKind where
  /-- Between single quotes. -/
  | single
  /-- Between double quotes, in grammars where these do not quote names. -/
  | double
  /-- In a national character set, marked with `N`. -/
  | national
  /-- Hexadecimal digits, marked with `X`. -/
  | hex
  /-- Between three quotes of one kind, the flag telling double ones. -/
  | triple (isDouble : Bool)
deriving DecidableEq, Repr, Inhabited

/-- Marks that are no words. -/
inductive Mark where
  | leftParen | rightParen | rightBracket | rightBrace
  | comma | semicolon | period | doubleColon | arrow
  | plus | minus | star | slash | percent | concat
  | eq | doubleEq | notEq | lt | ltEq | gt | gtEq
deriving DecidableEq, Repr, Inhabited

/-- A token. -/
inductive Token where
  /-- A word or a quoted name. Quoted names are no keywords. -/
  | word (name : Ident) (keyword : Option Keyword)
  /-- A number as written, and whether it is marked as long. -/
  | number (digits : String) (long : Bool)
  | string (kind : StringKind) (text : String)
  | mark (m : Mark)
  /-- A character with no meaning in queries. -/
  | other (c : Char)
deriving DecidableEq, Repr, Inhabited

/-- The token of an unquoted word. -/
def Token.ofWord (word : String) : Token := .word ⟨word, none⟩ (Keyword.ofWord? word)

end DetectionPlan.Sql
