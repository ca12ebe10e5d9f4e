/-
Completing and joining tables by place. Where the definitions put a null for a
cell that does not exist, the ones here ask for each cell, column and type by its
place and give nothing when there is none. For rectangular tables both agree, so
that no place that is asked for is missing (`fillByPlace_eq`, `joinByPlace_eq`).
-/
import DetectionPlan.Proofs.Table.Rectangular

namespace DetectionPlan

variable {width column : Nat} {rows : List Row}

/-- Two chains of steps with the same first step. -/
theorem Outcome.bind_eq_map_bind {ε α β γ : Type} {x : Except ε α} {f : α → Except ε γ}
    {g : α → Except ε β} {k : β → γ} (h : ∀ a, x = .ok a → f a = (g a).map k) :
    (x >>= f) = (x >>= g).map k := by
  cases x with
  | error e => rfl
  | ok a => exact h a rfl

theorem mapM_eq_some_map {α β : Type} {l : List α} {f : α → Option β} {g : α → β}
    (h : ∀ a ∈ l, f a = some (g a)) : l.mapM f = some (l.map g) := by
  induction l with
  | nil => rfl
  | cons a l ih =>
    have rest := ih fun b hb => h b (List.mem_cons_of_mem _ hb)
    simp only [List.mapM_cons, h a List.mem_cons_self, rest, Option.bind_eq_bind, Option.bind_some]
    rfl

/-! ## Completing a time index -/

namespace NullFilling

def replaceByPlace (column : Nat) (value : Cell) (rows : List Row) : Option (List Row) :=
  rows.mapM fun row => do
    let c ← row[column]?
    return if c.isNull then row.set column value else row

def carryByPlace (column : Nat) (last : Cell) : List Row → Option (List Row)
  | [] => some []
  | row :: rest => do
    let c ← row[column]?
    if c.isNull then return row.set column last :: (← carryByPlace column last rest)
    else return row :: (← carryByPlace column c rest)

def applyByPlace (filling : NullFilling) (column : Nat) (type : ColumnType) (rows : List Row) :
    Option (List Row) :=
  match filling with
  | keep => some rows
  | zeroes => match zero? type with
    | some zero => replaceByPlace column zero rows
    | none => some rows
  | forward => carryByPlace column .null rows
  | backward => (carryByPlace column .null rows.reverse).map List.reverse

theorem cell_there (h : column < width) {row : Row} (wide : row.length = width) :
    row[column]? = some (DataTable.cellOf row column) := by
  have there : column < row.length := wide ▸ h
  simp [DataTable.cellOf, there]

theorem replaceByPlace_eq (wide : Wide width rows) (h : column < width) (value : Cell) :
    replaceByPlace column value rows = some (replace column value rows) := by
  refine mapM_eq_some_map fun row hr => ?_
  rw [cell_there h (wide row hr)]
  rfl

theorem carryByPlace_eq (wide : Wide width rows) (h : column < width) (last : Cell) :
    carryByPlace column last rows = some (carry column last rows) := by
  induction rows generalizing last with
  | nil => rfl
  | cons row rows ih =>
    have first := cell_there h (wide row List.mem_cons_self)
    have rest (c : Cell) := ih (wide.sub (List.subset_cons_self _ _)) c
    simp only [carryByPlace, carry, first, rest, Option.bind_eq_bind, Option.bind_some]
    split <;> rfl

theorem applyByPlace_eq (wide : Wide width rows) (h : column < width) (filling : NullFilling)
    (type : ColumnType) :
    filling.applyByPlace column type rows = some (filling.apply column type rows) := by
  cases filling with
  | keep => rfl
  | zeroes =>
    cases zero : zero? type with
    | some value => simp only [applyByPlace, apply, zero, replaceByPlace_eq wide h]
    | none => simp only [applyByPlace, apply, zero]
  | forward => exact carryByPlace_eq wide h .null
  | backward =>
    have reversed : Wide width rows.reverse := wide.sub fun _ => List.mem_reverse.mp
    simp only [applyByPlace, apply, carryByPlace_eq reversed h .null, Option.map_some]

end NullFilling

namespace TimeIndex

def rowsByPlace (width column : Nat) (rows : List (Int × Row)) (buckets : List Int) :
    Option (List Row) :=
  buckets.mapM fun t => match rows.lookup t with
    | some row => some row
    | none => do
      let nulls : Row := List.replicate width .null
      discard nulls[column]?
      return nulls.set column (.long t)

def fillNullsByPlace (x : TimeIndex) (width : Nat) (types : List ColumnType) (timeColumn : Nat)
    (rows : List Row) : Option (List Row) :=
  ((List.range width).filter (· != timeColumn)).foldlM
    (fun rows column => do x.nulls.applyByPlace column (← types[column]?) rows) rows

def fillSegmentsByPlace (x : TimeIndex) (width : Nat) (types : List ColumnType) (timeColumn : Nat)
    (start : Int) (buckets : List Int) (rows : List Row) : Option (List Row) := do
  let split := (buckets.takeWhile (· < start)).length
  let history ← x.fillNullsByPlace width types timeColumn (rows.take split)
  let window ← x.fillNullsByPlace width types timeColumn (rows.drop split)
  return history ++ window

/-- Complete a table by place. There is no table if a place is missing. -/
def fillByPlace (x : TimeIndex) (granularity : Period) (window : Interval) (t : DataTable) :
    Outcome (Option DataTable) := do
  let column ← t.columnIndex x.timestamp
  let times ← t.longs x.timestamp
  let (low, high) ← x.limits t window times
  let buckets ← buckets granularity low high
  return do
    let rows ← rowsByPlace t.width column (times.zip t.rows) buckets
    let rows ← x.fillSegmentsByPlace t.width t.types column window.start buckets rows
    return { t with rows, properties := t.properties.put .granularity granularity.text }

theorem rowsByPlace_eq (h : column < width) (rows : List (Int × Row)) (buckets : List Int) :
    rowsByPlace width column rows buckets = some (rowsOf width column rows buckets) := by
  refine mapM_eq_some_map fun t _ => ?_
  cases rows.lookup t with
  | some row => rfl
  | none =>
    have there : (List.replicate width Cell.null)[column]? = some .null := by simp [h]
    simp only [there]
    rfl

theorem fillNullsByPlace_eq (wide : Wide width rows) (x : TimeIndex) {types : List ColumnType}
    (typed : types.length = width) (timeColumn : Nat) :
    x.fillNullsByPlace width types timeColumn rows = some (x.fillNulls types timeColumn rows) := by
  have all : ∀ column ∈ (List.range width).filter (· != timeColumn), column < width :=
    fun column hc => List.mem_range.mp (List.mem_of_mem_filter hc)
  unfold fillNullsByPlace fillNulls
  rw [typed]
  generalize (List.range width).filter (· != timeColumn) = columns at all
  induction columns generalizing rows with
  | nil => rfl
  | cons column columns ih =>
    have there : column < width := all column List.mem_cons_self
    have type : types[column]? = some (types.getD column default) := by simp [typed, there]
    have filled := NullFilling.applyByPlace_eq wide there x.nulls (types.getD column default)
    rw [List.foldlM_cons, List.foldl_cons, type]
    simp only [Option.bind_eq_bind, Option.bind_some, filled]
    exact ih (NullFilling.wide_apply wide x.nulls column _) fun c hc => all c (List.mem_cons_of_mem _ hc)

theorem fillSegmentsByPlace_eq (wide : Wide width rows) (x : TimeIndex) {types : List ColumnType}
    (typed : types.length = width) (timeColumn : Nat) (start : Int) (buckets : List Int) :
    x.fillSegmentsByPlace width types timeColumn start buckets rows =
      some (x.fillSegments types timeColumn start buckets rows) := by
  unfold fillSegmentsByPlace fillSegments
  simp only [fillNullsByPlace_eq (wide.sub (List.take_subset _ _)) x typed,
    fillNullsByPlace_eq (wide.sub (List.drop_subset _ _)) x typed, Option.bind_eq_bind, Option.bind_some]
  rfl

theorem fillByPlace_eq {t : DataTable} (rect : t.Rectangular) (x : TimeIndex) (granularity : Period)
    (window : Interval) :
    x.fillByPlace granularity window t = (x.fill granularity window t).map some := by
  refine Outcome.bind_eq_map_bind fun column place => ?_
  refine Outcome.bind_eq_map_bind fun times _ => ?_
  refine Outcome.bind_eq_map_bind fun (low, high) _ => ?_
  refine Outcome.bind_eq_map_bind fun buckets _ => ?_
  have rows := rowsByPlace_eq (DataTable.columnIndex_lt place) (times.zip t.rows) buckets
  have segments := fillSegmentsByPlace_eq (wide_rowsOf rect.rows column times buckets) x rect.types
    column window.start buckets
  simp only [rows, segments, Option.bind_eq_bind, Option.bind_some]
  rfl

end TimeIndex

/-! ## Joining -/

namespace DataTable

variable {left right : DataTable} {key : String}

def headerByPlace (left right : DataTable) (kept : List Nat) : Option (List (String × ColumnType)) := do
  let joined ← kept.mapM fun c => do return (left.joinedName (← right.columns[c]?), ← right.types[c]?)
  return left.columns.zip left.types ++ joined

def joinedRowsByPlace (leftKey : Nat) (kept : List Nat) (index : Keyed String (List Row))
    (rows : List Row) : Option (List Row) := do
  let groups ← rows.mapM fun row =>
    match (joinKey leftKey row).bind index.get? with
    | some others => others.mapM fun other => do return row ++ (← kept.mapM (other[·]?))
    | none => some []
  return groups.flatten

/-- Join two tables by place. There is no table if a place is missing. -/
def joinByPlace (left right : DataTable) (key : String) : Outcome (Option DataTable) := do
  let leftKey ← left.columnIndex key
  let rightKey ← right.columnIndex key
  let kept := right.joinedColumns rightKey
  match left.headerByPlace right kept,
    joinedRowsByPlace leftKey kept (indexRows rightKey right.rows) left.rows with
  | some header, some rows =>
    some <$> { ofColumns header with properties := left.properties }.withRows rows
  | _, _ => return none

theorem joinedColumns_lt {rightKey c : Nat} (h : c ∈ right.joinedColumns rightKey) : c < right.width :=
  List.mem_range.mp (List.mem_of_mem_filter h)

theorem headerByPlace_eq (left : DataTable) (rect : right.Rectangular) {kept : List Nat}
    (inside : ∀ c ∈ kept, c < right.width) :
    left.headerByPlace right kept = some (left.joinHeader right kept) := by
  have joined : (kept.mapM fun c => do
        return (left.joinedName (← right.columns[c]?), ← right.types[c]?)) =
      some (kept.map fun c => (left.joinedName (right.columns.getD c ""), right.types.getD c default)) := by
    refine mapM_eq_some_map fun c hc => ?_
    have column : c < right.columns.length := inside c hc
    have type : c < right.types.length := rect.types ▸ inside c hc
    simp [column, type]
  simp only [headerByPlace, joinHeader, joined]
  rfl

/-- The index holds rows of the table only. -/
theorem mem_of_indexRows {rightKey : Nat} {rows others : List Row} {k : String}
    (h : (indexRows rightKey rows).get? k = some others) : others ⊆ rows := by
  let Holds (index : Keyed String (List Row)) : Prop :=
    ∀ k others, index.get? k = some others → others ⊆ rows
  have kept : Holds (indexRows rightKey rows) := by
    refine List.foldlRecOn rows _ (fun k others found => by cases found) fun index held row hr => ?_
    split
    next key _ =>
      intro k others found
      rw [Keyed.get?_insert] at found
      split at found
      · obtain rfl := Option.some.inj found
        refine List.append_subset.mpr ⟨?_, List.cons_subset.mpr ⟨hr, List.nil_subset _⟩⟩
        cases earlier : index.get? key with
        | none => exact List.nil_subset _
        | some others => exact held key others earlier
      · exact held k others found
    next => exact held
  exact kept k others h

theorem joinedRowsByPlace_eq (leftKey : Nat) {kept : List Nat} {index : Keyed String (List Row)}
    {width : Nat} (inside : ∀ c ∈ kept, c < width)
    (wide : ∀ k others, index.get? k = some others → Wide width others) (rows : List Row) :
    joinedRowsByPlace leftKey kept index rows = some (joinedRows leftKey kept index rows) := by
  have group (row : Row) : (match (joinKey leftKey row).bind index.get? with
      | some others => others.mapM fun other => do return row ++ (← kept.mapM (other[·]?))
      | none => some []) = some (match (joinKey leftKey row).bind index.get? with
      | some others => others.map (joinRow kept row)
      | none => []) := by
    cases found : (joinKey leftKey row).bind index.get? with
    | none => rfl
    | some others =>
      obtain ⟨k, -, there⟩ := Option.bind_eq_some_iff.mp found
      refine mapM_eq_some_map fun other ho => ?_
      have cells : kept.mapM (other[·]?) = some (kept.map (cellOf other)) :=
        mapM_eq_some_map fun c hc => NullFilling.cell_there (inside c hc) (wide k others there other ho)
      simp only [cells]
      rfl
  have groups := mapM_eq_some_map fun row (_ : row ∈ rows) => group row
  simp only [joinedRowsByPlace, groups, joinedRows, List.flatMap_def]
  rfl

/-- All columns, types and cells that a join of rectangular tables asks for are there. -/
theorem joinByPlace_eq (rect : right.Rectangular) (left : DataTable) (key : String) :
    left.joinByPlace right key = (left.innerJoin right key).map some := by
  refine Outcome.bind_eq_map_bind fun leftKey _ => ?_
  refine Outcome.bind_eq_map_bind fun rightKey _ => ?_
  have inside : ∀ c ∈ right.joinedColumns rightKey, c < right.width := fun c => joinedColumns_lt
  have header := headerByPlace_eq left rect inside
  have wide : ∀ k others, (indexRows rightKey right.rows).get? k = some others →
      Wide right.width others := fun k others found other ho => rect.rows other (mem_of_indexRows found ho)
  have rows := joinedRowsByPlace_eq leftKey inside wide left.rows
  simp only [header, rows]
  rfl

end DataTable

end DetectionPlan
