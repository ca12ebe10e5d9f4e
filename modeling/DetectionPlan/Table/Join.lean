/-
The inner join of two tables on a column that both have. Rows match when their
key cells are not null and have the same text. The rows of the right table are
looked up in an index by key.
-/
import DetectionPlan.Table.Basic

namespace DetectionPlan.DataTable

/-- The text of the key cell of a row; null is no key. -/
def joinKey (column : Nat) (row : Row) : Option String :=
  match cellOf row column with
  | .null => none
  | c => some c.text

/-- Rows by the text of their key cell, in their order. -/
def indexRows (column : Nat) (rows : List Row) : Keyed String (List Row) :=
  rows.foldl (fun index row =>
    match joinKey column row with
    | some key => index.insert key ((index.get? key).getD [] ++ [row])
    | none => index) .empty

/-- The columns of the right table that a join keeps. -/
def joinedColumns (right : DataTable) (key : Nat) : List Nat :=
  (List.range right.width).filter (· != key)

/-- The name that a column of the right table gets beside the left table. -/
def joinedName (left : DataTable) (name : String) : String :=
  if left.hasColumn name then "right_" ++ name else name

/-- The header of a join, the left columns first. -/
def joinHeader (left right : DataTable) (kept : List Nat) : List (String × ColumnType) :=
  left.columns.zip left.types ++
    kept.map fun c => (left.joinedName (right.columns.getD c ""), right.types.getD c default)

/-- A row of the left table beside the kept cells of one of the right. -/
def joinRow (kept : List Nat) (row other : Row) : Row := row ++ kept.map (cellOf other)

/-- Each row of the left table beside each row of the right one with the same
key. The properties are those of the left table. -/
def innerJoin (left right : DataTable) (key : String) : Outcome DataTable := do
  let leftKey ← left.columnIndex key
  let rightKey ← right.columnIndex key
  let kept := right.joinedColumns rightKey
  let index := indexRows rightKey right.rows
  let empty := { ofColumns (left.joinHeader right kept) with properties := left.properties }
  empty.withRows <| left.rows.flatMap fun row =>
    match (joinKey leftKey row).bind index.get? with
    | some others => others.map (joinRow kept row)
    | none => []

end DetectionPlan.DataTable
