/-
Tables: named and typed columns, rows of cells, and the properties of the query
that produced them. `DataTable.validate` accepts exactly the tables with one
type per column and one cell per column in every row.
-/
import DetectionPlan.Table.Cell
import DetectionPlan.Properties
import DetectionPlan.Error

namespace DetectionPlan

/-- A row of cells. -/
abbrev Row := List Cell

/-- A table. -/
structure DataTable where
  columns : List String
  types : List ColumnType
  rows : List Row := []
  properties : Properties := .empty
deriving Inhabited

namespace DataTable

/-- An empty table with the given columns. -/
def ofColumns (columns : List (String × ColumnType)) : DataTable :=
  { columns := columns.map (·.1), types := columns.map (·.2) }

/-- The number of columns. -/
def width (t : DataTable) : Nat := t.columns.length

/-- One type per column and one cell per column in every row. -/
structure Rectangular (t : DataTable) : Prop where
  types : t.types.length = t.width
  rows : ∀ r ∈ t.rows, r.length = t.width

/-- Fail for a table that is not rectangular. -/
def validate (t : DataTable) : Outcome Unit :=
  if t.types.length != t.width then .error (.columnTypes t.width t.types.length)
  else match t.rows.find? (·.length != t.width) with
    | some row => .error (.rowWidth t.width row.length)
    | none => .ok ()

theorem validate_eq_ok_iff {t : DataTable} : t.validate = .ok () ↔ t.Rectangular := by
  unfold validate
  by_cases h : t.types.length = t.width
  · simp only [h, bne_self_eq_false, Bool.false_eq_true, ↓reduceIte]
    constructor
    · intro ok
      cases found : t.rows.find? (·.length != t.width) with
      | some row => simp [found] at ok
      | none =>
        refine ⟨h, fun r hr => ?_⟩
        simpa using List.find?_eq_none.1 found r hr
    · intro rect
      have : t.rows.find? (·.length != t.width) = none :=
        List.find?_eq_none.2 fun r hr => by simpa using rect.rows r hr
      simp [this]
  · have : (t.types.length != t.width) = true := by simpa using h
    simp only [this, ↓reduceIte, reduceCtorEq, false_iff]
    exact fun rect => h rect.types

/-- Append a row of the table's width. -/
def pushRow (t : DataTable) (row : Row) : Outcome DataTable :=
  if row.length != t.width then .error (.rowWidth t.width row.length)
  else .ok { t with rows := t.rows ++ [row] }

/-- Append rows, all or none. -/
def withRows (t : DataTable) (rows : List Row) : Outcome DataTable := rows.foldlM pushRow t

/-- Whether the table has a column of the name. -/
def hasColumn (t : DataTable) (name : String) : Bool := t.columns.contains name

/-- The place of the first column of a name. -/
def columnIndex (t : DataTable) (name : String) : Outcome Nat :=
  match t.columns.idxOf? name with
  | some i => .ok i
  | none => .error (.columnNotFound name)

/-- The type of the first column of a name. -/
def columnType (t : DataTable) (name : String) : Outcome ColumnType :=
  (t.columnIndex name).map fun i => t.types.getD i default

/-- The cell of a row; a cell that does not exist is null. -/
def cellOf (row : Row) (column : Nat) : Cell := row.getD column .null

/-- The cell at a place; a cell that does not exist is null. -/
def cell (t : DataTable) (row column : Nat) : Cell := cellOf (t.rows.getD row []) column

/-- The integer of a cell in the first column of a name. -/
def longAt (t : DataTable) (row : Nat) (column : String) : Outcome Int := do
  match (t.cell row (← t.columnIndex column)).asLong with
  | some n => .ok n
  | none => .error (.typeMismatch column row "long")

/-- The double of a cell, if the cell is not null. -/
def doubleAt (t : DataTable) (row : Nat) (column : String) : Outcome (Option Float) := do
  let c := t.cell row (← t.columnIndex column)
  if c.isNull then .ok none
  else match c.asDouble with
    | some x => .ok (some x)
    | none => .error (.typeMismatch column row "double")

/-- The integers of a column. A table without rows is not asked for it. -/
def longs (t : DataTable) (column : String) : Outcome (List Int) :=
  (List.range t.rows.length).mapM (t.longAt · column)

/-- The doubles of a column. A table without rows is not asked for it. -/
def doubles (t : DataTable) (column : String) : Outcome (List (Option Float)) :=
  (List.range t.rows.length).mapM (t.doubleAt · column)

/-- Order of optional integers, with absent ones last. -/
def absentLast : Option Int → Option Int → Bool
  | some a, some b => a ≤ b
  | some _, none => true
  | none, some _ => false
  | none, none => true

/-- Rows in rising order of an integer column; rows without an integer come
last, and rows that tie keep their order. -/
def sortByLong (t : DataTable) (column : String) : Outcome DataTable := do
  let i ← t.columnIndex column
  let key (row : Row) : Option Int := (cellOf row i).asLong
  .ok { t with rows := t.rows.mergeSort fun a b => absentLast (key a) (key b) }

/-- The members of a table in a document, before its shape is checked. -/
def uncheckedShape : RecordShape DataTable where
  title := "RawDataTable"
  initial := { columns := [], types := [] }
  slots := [
    .needed "columns" (Json.decodeList Json.decodeString) fun v t => { t with columns := v },
    .needed "column_types" (Json.decodeList ColumnType.decode) fun v t => { t with types := v },
    .optional "rows" (Json.decodeList (Json.decodeList Cell.decode))
      fun v t => { t with rows := v },
    .optional "properties" Properties.decode fun v t => { t with properties := v }]

/-- A table in a document has to be rectangular. -/
def decode (j : Json) : Decoded DataTable := do
  let t ← uncheckedShape.decode j
  match t.validate with
  | .ok _ => .ok t
  | .error e => .error (.refused e.message)

/-- A table as a document, its properties written by `properties`. -/
def toJsonWith (properties : Properties → Json) (t : DataTable) : Json :=
  .object [("columns", .array (t.columns.map Json.string)),
    ("column_types", .array (t.types.map fun c => .string c.name)),
    ("rows", .array (t.rows.map fun r => .array (r.map Cell.toJson))),
    ("properties", properties t.properties)]

def toJson : DataTable → Json := toJsonWith Properties.toJson

end DataTable

end DetectionPlan
