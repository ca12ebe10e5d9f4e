/-
Data sources: what answers the queries of a plan, in which dialect, and with
which placeholder functions of its own. A source can be made of tables held in
memory; it keeps the rows within the time bounds that the preparation of a query
has left behind.
-/
import DetectionPlan.Expansion.Request
import DetectionPlan.Sql.Filter
import DetectionPlan.Table.Basic

namespace DetectionPlan

/-- A data source. -/
structure DataSource where
  name : String
  dialect : Sql.DialectSettings
  expressions : TimeExpressions
  /-- The placeholder functions of the source, beside the builtin ones. -/
  placeholders : List Placeholder := []
  /-- What the source knows about a dataset. -/
  dataset? : String → Option Dataset
  fetch : PreparedRequest → Outcome DataTable

/-- The data sources of a run by name. -/
abbrev DataSources := Keyed String DataSource

/-- A query as a source received it. -/
structure SentQuery where
  source : String
  sql : String
deriving DecidableEq, Repr

/-- A column and the bounds of its instants. -/
structure TimeBounds where
  column : String
  start : Int
  stop : Int
deriving DecidableEq, Repr

namespace TimeBounds

/-- The bounds in the properties of a request. -/
def ofProperties? (p : Properties) : Option TimeBounds := do
  let column ← p.find? .timeColumn
  let start ← readInt64? (← p.find? .minTimeMillis)
  let stop ← readInt64? (← p.find? .maxTimeMillis)
  return { column, start, stop }

/-- Whether a cell holds an instant within the bounds. -/
def admits (b : TimeBounds) (c : Cell) : Bool :=
  c.asLong.any fun t => b.start ≤ t && t < b.stop

end TimeBounds

namespace DataTable

/-- The rows whose instant is within the bounds. A table without the column
keeps all of them. -/
def within (t : DataTable) (b : TimeBounds) : DataTable :=
  match t.columnIndex b.column with
  | .ok i => { t with rows := t.rows.filter fun row => b.admits (cellOf row i) }
  | .error _ => t

end DataTable

/-- The table that a request to tables in memory yields. -/
def fetchFrom (source : String) (tables : Keyed String DataTable) (request : PreparedRequest) :
    Outcome DataTable :=
  match request.table with
  | none => .error (.dataSource source "query names no table")
  | some name =>
    match tables.get? name with
    | none => .error (.dataSource source ("unknown table '" ++ name ++ "'"))
    | some table =>
      match TimeBounds.ofProperties? request.properties with
      | some bounds => .ok (table.within bounds)
      | none => .ok table

namespace DataSource

/-- A source made of tables in memory. -/
def inMemory (name : String) (dialect : Sql.DialectSettings) (expressions : TimeExpressions)
    (tables : Keyed String DataTable) (datasets : List Dataset := [])
    (placeholders : List Placeholder := []) : DataSource where
  name
  dialect
  expressions
  placeholders
  dataset? := (Keyed.ofList (datasets.map fun d => (d.name, d))).get?
  fetch := fetchFrom name tables

/-- How the calls in a query to the source are expanded. -/
def expansion (s : DataSource) (interval : Interval) (dataset : Option Dataset) (strict : Bool) :
    Expansion where
  parser := s.dialect.parser
  registry := s.placeholders.foldl (·.register ·) .builtin
  scope := { expressions := s.expressions, interval, dataset, render := s.dialect.render }
  strict

/-- Prepare a query and add predicates to it, if there are any. -/
def prepare (s : DataSource) (interval : Interval) (dataset : Option Dataset) (strict : Bool)
    (query : String) (predicates : List Predicate) : Outcome PreparedRequest := do
  let request ← (s.expansion interval dataset strict).prepare query
  if predicates.isEmpty then .ok request
  else return { request with sql := ← Sql.addPredicates s.dialect request.sql predicates }

end DataSource

namespace DataSources

/-- Add a source, which replaces the one of its name. -/
def register (all : DataSources) (s : DataSource) : DataSources := all.insert s.name s

def ofSources (sources : List DataSource) : DataSources := sources.foldl register .empty

end DataSources

end DetectionPlan
