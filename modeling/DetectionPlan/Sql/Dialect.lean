/-
Dialects: a grammar together with the choices of quotes and casing. A
configuration names a base dialect and may override each of its choices;
`DialectConfig.resolve` resolves it.
-/
import DetectionPlan.Sql.Grammar
import DetectionPlan.Error
import DetectionPlan.Text.Doubling

namespace DetectionPlan.Sql

/-- What becomes of the case of names without quotes. -/
inductive Casing where
  | unchanged | toUpper | toLower
deriving DecidableEq, Repr, Inhabited

namespace Casing

def name : Casing → String
  | unchanged => "UNCHANGED"
  | toUpper => "TO_UPPER"
  | toLower => "TO_LOWER"

def all : List Casing := [unchanged, toUpper, toLower]

def decode : Json → Decoded Casing := Json.decodeVariant (all.map fun c => (c.name, c))

end Casing

/-- A dialect as configured. -/
structure DialectConfig where
  baseDialect : String := "ansi"
  grammar : Option String := none
  conformance : Option String := none
  identifierQuote : Option Char := none
  literalQuote : Option Char := none
  unquotedCasing : Option Casing := none
  trailingCommas : Option Bool := none
  unescape : Option Bool := none
  recursionLimit : Option Nat := none
deriving DecidableEq, Repr, Inhabited

/-- How queries are read. -/
structure ParserSettings where
  grammar : Grammar := .generic
  /-- Whether lists may end in a comma. -/
  trailingCommas : Bool := false
  /-- Whether escapes in strings and names are resolved while reading. -/
  unescape : Bool := true
  /-- How deep statements, queries and expressions may nest. -/
  recursionLimit : Nat := 50
deriving DecidableEq, Repr, Inhabited

/-- How names and strings are written. -/
structure RenderSettings where
  identifierQuote : Char := '"'
  literalQuote : Char := '\x27'
  unquotedCasing : Casing := .unchanged
deriving DecidableEq, Repr, Inhabited

/-- A dialect with all choices made. -/
structure DialectSettings where
  parser : ParserSettings := {}
  render : RenderSettings := {}
deriving DecidableEq, Repr, Inhabited

/-- The base dialects and their choices. Names of calls start with an
underscore, which the grammar `ansi` refuses; the dialect of that name is
therefore read by the generic grammar. -/
def baseDialects : List (String × Grammar × RenderSettings) := [
  ("ansi", .generic, {}),
  ("generic", .generic, {}),
  ("postgresql", .postgreSql, { unquotedCasing := .toLower }),
  ("mysql", .mySql, { identifierQuote := '\x60' }),
  ("bigquery", .bigQuery, { identifierQuote := '\x60' }),
  ("mssql", .msSql, { identifierQuote := '[' }),
  ("snowflake", .snowflake, { unquotedCasing := .toUpper }),
  ("sqlite", .sqlite, {}),
  ("hive", .hive, { identifierQuote := '\x60' }),
  ("duckdb", .duckDb, {}),
  ("clickhouse", .clickHouse, {}),
  ("pinot", .generic, {})]

/-- A base dialect by its name, in any case; one has a short name as well. -/
def baseDialect? (name : String) : Option (Grammar × RenderSettings) :=
  let name := asciiLower name
  baseDialects.lookup (if name == "postgres" then "postgresql" else name)

namespace DialectConfig

/-- Whether a conformance lets lists end in a comma. -/
def isLenient (conformance : String) : Outcome Bool :=
  match asciiLower conformance with
  | "default" => .ok false
  | "lenient" => .ok true
  | _ => .error (.unknownConformance conformance)

/-- The named grammar, or the one of the base dialect. -/
def grammarOr (c : DialectConfig) (base : Grammar) : Outcome Grammar :=
  match c.grammar with
  | none => .ok base
  | some name => match Grammar.ofName? name with
    | some g => .ok g
    | none => .error (.unknownGrammar name)

/-- Resolve a configuration against its base dialect. -/
def resolve (c : DialectConfig) : Outcome DialectSettings :=
  match baseDialect? c.baseDialect with
  | none => .error (.unknownBaseDialect c.baseDialect (baseDialects.map (·.1)))
  | some (base, render) => do
    let grammar ← c.grammarOr base
    let lenient ← match c.conformance with
      | some name => isLenient name
      | none => .ok false
    .ok {
      parser := {
        grammar
        trailingCommas := c.trailingCommas.getD lenient
        unescape := c.unescape.getD true
        recursionLimit := c.recursionLimit.getD 50 }
      render := {
        identifierQuote := c.identifierQuote.getD render.identifierQuote
        literalQuote := c.literalQuote.getD render.literalQuote
        unquotedCasing := c.unquotedCasing.getD render.unquotedCasing } }

def shape : RecordShape DialectConfig where
  title := "DialectConfig"
  initial := {}
  closed := true
  slots :=
    let text := Json.decodeOption Json.decodeString
    let char := Json.decodeOption Json.decodeChar
    let flag := Json.decodeOption Json.decodeBool
    [.optional "baseDialect" Json.decodeString fun v c => { c with baseDialect := v },
      .optional "grammar" text fun v c => { c with grammar := v },
      .optional "conformance" text fun v c => { c with conformance := v },
      .optional "identifierQuote" char fun v c => { c with identifierQuote := v },
      .optional "literalQuote" char fun v c => { c with literalQuote := v },
      .optional "unquotedCasing" (Json.decodeOption Casing.decode)
        fun v c => { c with unquotedCasing := v },
      .optional "trailingCommas" flag fun v c => { c with trailingCommas := v },
      .optional "unescape" flag fun v c => { c with unescape := v },
      .optional "recursionLimit" (Json.decodeOption Json.decodeSize)
        fun v c => { c with recursionLimit := v }]

def toJson (c : DialectConfig) : Json :=
  .object [("baseDialect", .string c.baseDialect),
    ("grammar", .ofOption .string c.grammar),
    ("conformance", .ofOption .string c.conformance),
    ("identifierQuote", .ofOption (.string ·.toString) c.identifierQuote),
    ("literalQuote", .ofOption (.string ·.toString) c.literalQuote),
    ("unquotedCasing", .ofOption (.string ·.name) c.unquotedCasing),
    ("trailingCommas", .ofOption .bool c.trailingCommas),
    ("unescape", .ofOption .bool c.unescape),
    ("recursionLimit", .ofOption (fun n : Nat => .int n) c.recursionLimit)]

end DialectConfig

namespace RenderSettings

/-- The character that closes a quoted name. -/
def closingQuote (r : RenderSettings) : Char :=
  if r.identifierQuote == '[' then ']' else r.identifierQuote

/-- A name between quotes; closing quotes inside are doubled. -/
def quoteIdentifier (r : RenderSettings) (name : String) : String :=
  String.ofList (r.identifierQuote :: (doubleChar r.closingQuote name.toList ++ [r.closingQuote]))

/-- What stands between the quotes of a text that starts and ends with one;
any other text as it is. -/
def unquoteLiteral (r : RenderSettings) (text : String) : String :=
  let q := r.literalQuote
  match text.toList with
  | first :: second :: rest =>
    let inner := second :: rest
    if first == q && inner.getLast? == some q then
      String.ofList (halveChar q inner.dropLast)
    else text
  | _ => text

/-- A name in the case the dialect stores it in. -/
def normalizeIdentifier (r : RenderSettings) (name : String) : String :=
  match r.unquotedCasing with
  | .unchanged => name
  | .toUpper => toUpperCase name
  | .toLower => toLowerCase name

end RenderSettings

end DetectionPlan.Sql
