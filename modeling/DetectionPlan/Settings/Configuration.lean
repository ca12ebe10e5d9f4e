/-
The configuration of a run: how nodes are run, what queries are prepared with,
and the data sources. A configuration is read from a settings text, overridden
by the environment, and checked as a whole before anything is made of it.
-/
import DetectionPlan.Operator.Basic
import DetectionPlan.Plan.Execution
import DetectionPlan.Settings.Environment
import DetectionPlan.Text.Path
import DetectionPlan.TimeExpression.Ansi
import DetectionPlan.TimeExpression.Pinot
import DetectionPlan.Toml.Reader

namespace DetectionPlan

/-- What queries are prepared with. -/
structure QuerySettings where
  strictMacros : Bool := false
  /-- The base dialect of sources that name no dialect. -/
  defaultDialect : String := "ansi"
  /-- How deep queries may nest, for sources that say nothing about it. -/
  recursionLimit : Nat := 50
deriving DecidableEq, Repr

/-- A table of a source and the file that holds it. -/
structure TableFile where
  name : String
  path : String
deriving DecidableEq, Repr

/-- A data source as a configuration describes it. -/
structure SourceSettings where
  name : String
  /-- Where the tables are; only memory is known. -/
  kind : String := "memory"
  dialect : Option Sql.DialectConfig := none
  /-- How the source expresses time. -/
  builder : String := "ansi"
  /-- How columns of the source store time. -/
  timeFormat : Option String := none
  tables : List TableFile := []
  datasets : List Dataset := []

/-- The configuration of a run. -/
structure Configuration where
  run : RunSettings := {}
  query : QuerySettings := {}
  sources : List SourceSettings := []

/-- The shape of the settings about running nodes. -/
def RunSettings.shape : RecordShape RunSettings where
  title := "ExecutorSection"
  initial := {}
  slots := [
    .optional "parallel" Json.decodeBool fun v s => { s with parallel := v },
    .optional "max_parallelism" Json.decodeSize fun v s => { s with maxParallelism := v }]

def RunSettings.toJson (s : RunSettings) : Json :=
  .object [("parallel", .bool s.parallel), ("max_parallelism", .int s.maxParallelism)]

namespace QuerySettings

def shape : RecordShape QuerySettings where
  title := "SqlSection"
  initial := {}
  slots := [
    .optional "strict_macros" Json.decodeBool fun v s => { s with strictMacros := v },
    .optional "default_dialect" Json.decodeString fun v s => { s with defaultDialect := v },
    .optional "recursion_limit" Json.decodeSize fun v s => { s with recursionLimit := v }]

def toJson (s : QuerySettings) : Json :=
  .object [("strict_macros", .bool s.strictMacros), ("default_dialect", .string s.defaultDialect),
    ("recursion_limit", .int s.recursionLimit)]

end QuerySettings

namespace TableFile

/-- The name of a file. -/
def decodePath : Json → Decoded String
  | .string s => .ok s
  | j => j.mistyped "path string"

def shape : RecordShape TableFile where
  title := "TableSource"
  initial := { name := "", path := "" }
  slots := [
    .needed "name" Json.decodeString fun v t => { t with name := v },
    .needed "path" decodePath fun v t => { t with path := v }]

def toJson (t : TableFile) : Json := .object [("name", .string t.name), ("path", .string t.path)]

end TableFile

namespace SourceSettings

def shape : RecordShape SourceSettings where
  title := "DataSourceConfig"
  initial := { name := "" }
  slots := [
    .needed "name" Json.decodeString fun v s => { s with name := v },
    .optional "kind" Json.decodeString fun v s => { s with kind := v },
    .optional "dialect" (Json.decodeOption Sql.DialectConfig.shape.decode)
      fun v s => { s with dialect := v },
    .optional "builder" Json.decodeString fun v s => { s with builder := v },
    .optional "time_format" (Json.decodeOption Json.decodeString)
      fun v s => { s with timeFormat := v },
    .optional "tables" (Json.decodeList TableFile.shape.decode) fun v s => { s with tables := v },
    .optional "datasets" (Json.decodeList Dataset.shape.decode) fun v s => { s with datasets := v }]

def toJson (s : SourceSettings) : Json :=
  .object [("name", .string s.name), ("kind", .string s.kind),
    ("dialect", .ofOption Sql.DialectConfig.toJson s.dialect), ("builder", .string s.builder),
    ("time_format", .ofOption .string s.timeFormat),
    ("tables", .array (s.tables.map TableFile.toJson)),
    ("datasets", .array (s.datasets.map Dataset.toJson))]

/-- How the source expresses time. -/
def expressions (s : SourceSettings) : Outcome TimeExpressions := do
  let make ← match s.builder with
    | "ansi" => .ok TimeExpressions.ansi
    | "pinot" => .ok TimeExpressions.pinot
    | other => .error (.config ("datasource '" ++ s.name ++ "' has unknown builder '" ++ other ++
        "', expected 'ansi' or 'pinot'"))
  match s.timeFormat with
  | some text => return make (← TimeFormat.parse text)
  | none => return make (.epoch .milliseconds)

/-- The dialect of the source, completed by the settings for queries. -/
def dialectWith (s : SourceSettings) (q : QuerySettings) : Sql.DialectConfig :=
  let dialect := s.dialect.getD { baseDialect := q.defaultDialect }
  { dialect with recursionLimit := some (dialect.recursionLimit.getD q.recursionLimit) }

/-- Fail unless a source can be made of the settings. -/
def validate (s : SourceSettings) (q : QuerySettings) : Outcome Unit := do
  if s.kind != "memory" then
    throw (.config ("datasource '" ++ s.name ++ "' has unsupported kind '" ++ s.kind ++
      "', expected 'memory'"))
  discard (s.dialectWith q).resolve
  discard s.expressions
  match Plan.firstRepeat? [] (s.tables.map (·.name)) with
  | some table =>
    throw (.config ("datasource '" ++ s.name ++ "' lists table '" ++ table ++ "' twice"))
  | none => return ()

end SourceSettings

/-- How files are read. What comes instead of a text says why there is none. -/
abbrev FileReader (m : Type → Type) := (path : String) → m (Except String String)

/-- A table from the text of its file. -/
def DataTable.ofText (text : String) : Except String DataTable :=
  match Json.parse text with
  | .error defect => .error defect.message
  | .ok j => (DataTable.decode j).mapError DecodeError.message

namespace SourceSettings

/-- The table of a file below a directory. -/
def readTable [Monad m] (read : FileReader m) (directory : String) (s : SourceSettings)
    (t : TableFile) : ExceptT Failure m (String × DataTable) := do
  let path := Path.join directory t.path
  match ← read path with
  | .error reason =>
    throw (.dataSource s.name
      ("cannot read table '" ++ t.name ++ "' from " ++ path ++ ": " ++ reason))
  | .ok text =>
    match DataTable.ofText text with
    | .ok table => return (t.name, table)
    | .error reason =>
      throw (.dataSource s.name ("invalid table '" ++ t.name ++ "' in " ++ path ++ ": " ++ reason))

/-- Make a source, with its tables read from files below a directory. -/
def load [Monad m] (read : FileReader m) (directory : String) (q : QuerySettings)
    (s : SourceSettings) : ExceptT Failure m DataSource := do
  let dialect ← (s.dialectWith q).resolve
  let expressions ← s.expressions
  let tables ← s.tables.mapM (readTable read directory s)
  return .inMemory s.name dialect expressions (.ofList tables) s.datasets

end SourceSettings

namespace Configuration

def shape : RecordShape Configuration where
  title := "ExecutorConfig"
  initial := {}
  slots := [
    .optional "executor" RunSettings.shape.decode fun v c => { c with run := v },
    .optional "sql" QuerySettings.shape.decode fun v c => { c with query := v },
    .optional "datasources" (Json.decodeList SourceSettings.shape.decode)
      fun v c => { c with sources := v }]

def toJson (c : Configuration) : Json :=
  .object [("executor", c.run.toJson), ("sql", c.query.toJson),
    ("datasources", .array (c.sources.map SourceSettings.toJson))]

/-- A configuration without sources. -/
def ofEngine (e : EngineSettings) : Configuration where
  run := { parallel := e.parallel, maxParallelism := e.maxParallelism }
  query := {
    strictMacros := e.strictMacros
    defaultDialect := e.defaultDialect
    recursionLimit := e.recursionLimit }

/-- The configuration with what the environment sets in its place. Text that is
no count is ignored. -/
def overridden (c : Configuration) (env : Environment) : Configuration :=
  let text (s : Setting) : Option String := env.get? s.variable
  let flag (s : Setting) (otherwise : Bool) : Bool :=
    ((text s).map (isOneOf ["1", "true", "yes"])).getD otherwise
  let count (s : Setting) (otherwise : Nat) : Nat := ((text s).bind readSize?).getD otherwise
  { c with
    run := {
      parallel := flag .parallel c.run.parallel
      maxParallelism := count .maxParallelism c.run.maxParallelism }
    query := {
      strictMacros := flag .strictMacros c.query.strictMacros
      defaultDialect := (text .defaultDialect).getD c.query.defaultDialect
      recursionLimit := count .recursionLimit c.query.recursionLimit } }

/-- Fail unless all sources can be made. -/
def validate (c : Configuration) : Outcome Unit := do
  discard ({ baseDialect := c.query.defaultDialect } : Sql.DialectConfig).resolve
  match Plan.firstRepeat? [] (c.sources.map (·.name)) with
  | some name => throw (.config ("datasource '" ++ name ++ "' is defined twice"))
  | none => c.sources.forM (·.validate c.query)

/-- Read a configuration from a settings text. -/
def parse (env : Environment) (text : String) : Outcome Configuration := do
  let c ← match (Toml.parse text).map shape.decode with
    | some (.ok c) => .ok (c.overridden env)
    | _ => .error .configText
  c.validate
  return c

/-- What the nodes of a run share, with tables read from files below a
directory. -/
def load [Monad m] (read : FileReader m) (directory : String) (c : Configuration) :
    ExceptT Failure m RunScope := do
  let sources ← c.sources.mapM (·.load read directory c.query)
  return { sources := .ofSources sources, strict := c.query.strictMacros }

end Configuration

namespace Plan

/-- Read a plan from a document. -/
def ofJson (text : String) : Outcome Plan :=
  match Json.parse text with
  | .error defect => .error (.planText defect.message)
  | .ok j => (shape.decode j).mapError fun e => .planText e.message

/-- Read a plan from a settings text. -/
def ofToml (text : String) : Outcome Plan :=
  match (Toml.parse text).map shape.decode with
  | some (.ok p) => .ok p
  | _ => .error .configText

/-- Read a plan from the text of a file, whose extension tells how. -/
def ofFile (path text : String) : Outcome Plan :=
  if Path.extension? path == some "json" then ofJson text else ofToml text

end Plan

end DetectionPlan
