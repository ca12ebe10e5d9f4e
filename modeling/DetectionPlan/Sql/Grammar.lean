/-
The grammars that queries are written in, and where they differ from each
other: the characters of names and quotes, the escapes in strings, comments and
the constructs that only some of them know.
-/
import DetectionPlan.Text.Alphabetic
import DetectionPlan.Text.Casing

namespace DetectionPlan.Sql

/-- A grammar. -/
inductive Grammar where
  | generic | ansi | postgreSql | mySql | bigQuery | msSql | snowflake | sqlite | hive | duckDb
  | clickHouse
deriving DecidableEq, Repr, Inhabited

namespace Grammar

/-- The names that configurations use, some grammars having two. -/
def names : List (String × Grammar) := [
  ("generic", generic), ("ansi", ansi), ("postgresql", postgreSql), ("postgres", postgreSql),
  ("mysql", mySql), ("bigquery", bigQuery), ("mssql", msSql), ("snowflake", snowflake),
  ("sqlite", sqlite), ("hive", hive), ("duckdb", duckDb), ("clickhouse", clickHouse)]

/-- The grammar of a name, in any case. -/
def ofName? (name : String) : Option Grammar := names.lookup (asciiLower name)

/-- Characters a name may start with. -/
def isNameStart (g : Grammar) (c : Char) : Bool :=
  match g with
  | generic | msSql => isAlphabetic c || c == '_' || c == '#' || c == '@'
  | ansi => c.isAlpha
  | postgreSql | duckDb => isAlphabetic c || c == '_'
  | mySql => c.isAlpha || c == '_' || c == '$' || c == '@' || (0x80 ≤ c.toNat && c.toNat ≤ 0xFFFF)
  | bigQuery | snowflake | clickHouse => c.isAlpha || c == '_'
  | sqlite => c.isAlpha || c == '_' || c == '$' || (0x7F ≤ c.toNat && c.toNat ≤ 0xFFFF)
  | hive => c.isAlphanum || c == '$'

/-- Characters a name may go on with. -/
def isNamePart (g : Grammar) (c : Char) : Bool :=
  match g with
  | generic | msSql =>
    isAlphabetic c || c.isDigit || c == '@' || c == '$' || c == '#' || c == '_'
  | ansi | bigQuery | clickHouse => c.isAlphanum || c == '_'
  | postgreSql | duckDb => isAlphabetic c || c.isDigit || c == '$' || c == '_'
  | mySql | sqlite => g.isNameStart c || c.isDigit
  | snowflake => c.isAlphanum || c == '$' || c == '_'
  | hive => c.isAlphanum || c == '_' || c == '\x7b' || c == '\x7d' || c == '$'

/-- Characters that open a quoted name. -/
def isNameQuote (g : Grammar) (c : Char) : Bool :=
  match g with
  | postgreSql => c == '"'
  | mySql | bigQuery => c == '\x60'
  | msSql => c == '"' || c == '['
  | sqlite => c == '"' || c == '\x60' || c == '['
  | _ => c == '"' || c == '\x60'

/-- Whether a backslash in a string takes the next character with it. -/
def hasBackslashEscapes : Grammar → Bool
  | mySql | bigQuery | snowflake | clickHouse => true
  | _ => false

/-- Whether a string may stand between three quotes. -/
def hasTripleQuotes : Grammar → Bool
  | bigQuery => true
  | _ => false

/-- Whether names may start with digits. -/
def hasNumericNames : Grammar → Bool
  | mySql | hive => true
  | _ => false

/-- Whether `#` starts a comment. -/
def hasHashComments : Grammar → Bool
  | snowflake | bigQuery | mySql | hive => true
  | _ => false

/-- Whether `--` starts a comment only before a blank. -/
def needsBlankAfterDashes : Grammar → Bool
  | mySql => true
  | _ => false

/-- Whether `//` starts a comment. -/
def hasSlashComments : Grammar → Bool
  | snowflake => true
  | _ => false

/-- Whether a list of results may end in a comma whatever the settings say. -/
def allowsTrailingCommaInProjection : Grammar → Bool
  | bigQuery | snowflake | duckDb => true
  | _ => false

/-- Whether `LIMIT a, b` is read as `LIMIT b OFFSET a`. -/
def hasLimitComma : Grammar → Bool
  | generic | mySql | sqlite | clickHouse => true
  | _ => false

/-- Whether a query may be the only argument of a call. -/
def allowsBareSubquery : Grammar → Bool
  | snowflake => true
  | _ => false

/-- Whether `t.*` may stand for a value. -/
def allowsStarValue : Grammar → Bool
  | postgreSql => true
  | _ => false

/-- Whether an argument may be named with `=`. -/
def namesArgumentsWithEquals : Grammar → Bool
  | duckDb => true
  | _ => false

/-- Whether the words for the current user stand for calls. -/
def hasUserWords : Grammar → Bool
  | postgreSql | generic => true
  | _ => false

/-- Whether a query may end in `SETTINGS`. -/
def hasSettings : Grammar → Bool
  | clickHouse | generic => true
  | _ => false

/-- Whether the list of `IN` may be empty. -/
def allowsEmptyIn : Grammar → Bool
  | sqlite => true
  | _ => false

/-- Whether a table may stand alone between parentheses. -/
def allowsLoneTable : Grammar → Bool
  | snowflake | generic => true
  | _ => false

/-- Whether rows deleted may be named without `FROM`. -/
def allowsDeleteWithoutFrom : Grammar → Bool
  | bigQuery | generic => true
  | _ => false

/-- Whether a point inside a quoted table name parts the name. -/
def splitsQuotedNames : Grammar → Bool
  | bigQuery => true
  | _ => false

/-- Whether a row of values may be empty. -/
def allowsEmptyRow : Grammar → Bool
  | mySql => true
  | _ => false

end Grammar

end DetectionPlan.Sql
