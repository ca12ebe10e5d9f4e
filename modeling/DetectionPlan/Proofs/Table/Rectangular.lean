/-
Tables stay rectangular: taking rows out, completing a time index and joining
give a rectangular table for rectangular ones. A join of rectangular tables that
both have the key column always succeeds, as its header and its rows are
computed apart but come out equally wide (`innerJoin_ok`).
-/
import DetectionPlan.Proofs.Outcome
import DetectionPlan.Source
import DetectionPlan.Table.Join
import DetectionPlan.Table.TimeIndex
import Mathlib.Data.List.Basic

namespace DetectionPlan

open Outcome (bind_ok_iff)

namespace DataTable

variable {t : DataTable}

theorem withRows_ok_iff {rows : List Row} {u : DataTable} :
    t.withRows rows = .ok u ↔
      (∀ r ∈ rows, r.length = t.width) ∧ u = { t with rows := t.rows ++ rows } := by
  induction rows generalizing t with
  | nil => simp [withRows, pure, Except.pure, eq_comm]
  | cons row rows ih =>
    have step : t.withRows (row :: rows) = (t.pushRow row >>= (·.withRows rows)) := rfl
    rw [step, bind_ok_iff]
    by_cases wide : row.length = t.width
    · have pushed : t.pushRow row = .ok { t with rows := t.rows ++ [row] } := by simp [pushRow, wide]
      simp only [pushed, Except.ok.injEq, exists_eq_left', ih, List.mem_cons, forall_eq_or_imp,
        wide, true_and, List.append_assoc, List.cons_append, List.nil_append]
      rfl
    · simp [pushRow, wide]

theorem Rectangular.withRows {rows : List Row} {u : DataTable} (rect : t.Rectangular)
    (h : t.withRows rows = .ok u) : u.Rectangular := by
  obtain ⟨wide, rfl⟩ := withRows_ok_iff.mp h
  refine ⟨rect.types, fun r hr => ?_⟩
  rcases List.mem_append.mp hr with hr | hr
  · exact rect.rows r hr
  · exact wide r hr

theorem rectangular_ofColumns (columns : List (String × ColumnType)) (properties : Properties) :
    { ofColumns columns with properties }.Rectangular :=
  ⟨by simp [ofColumns, width], fun r hr => by simp [ofColumns] at hr⟩

/-- A table with some of the rows. -/
theorem Rectangular.within (rect : t.Rectangular) (b : TimeBounds) : (t.within b).Rectangular := by
  unfold DataTable.within
  split
  · exact ⟨rect.types, fun r hr => rect.rows r (List.mem_of_mem_filter hr)⟩
  · exact rect

theorem columnIndex_ok_iff {name : String} {i : Nat} :
    t.columnIndex name = .ok i ↔ t.columns.idxOf? name = some i := by
  unfold columnIndex
  cases t.columns.idxOf? name <;> simp

theorem columnIndex_lt {name : String} {i : Nat} (h : t.columnIndex name = .ok i) : i < t.width :=
  (List.idxOf?_eq_some_iff.mp (columnIndex_ok_iff.mp h)).1

end DataTable

/-! ## Completing a time index -/

/-- Rows of one width. -/
def Wide (width : Nat) (rows : List Row) : Prop := ∀ r ∈ rows, r.length = width

variable {width : Nat} {rows : List Row}

theorem Wide.append {more : List Row} (h : Wide width rows) (h' : Wide width more) :
    Wide width (rows ++ more) :=
  fun r hr => (List.mem_append.mp hr).elim (h r) (h' r)

theorem Wide.sub {some : List Row} (h : Wide width rows) (sub : some ⊆ rows) : Wide width some :=
  fun r hr => h r (sub hr)

namespace NullFilling

theorem wide_replace (h : Wide width rows) (column : Nat) (value : Cell) :
    Wide width (replace column value rows) := by
  intro r hr
  obtain ⟨row, there, rfl⟩ := List.mem_map.mp hr
  split
  · rw [List.length_set]
    exact h row there
  · exact h row there

theorem wide_carry (h : Wide width rows) (column : Nat) (last : Cell) :
    Wide width (carry column last rows) := by
  induction rows generalizing last with
  | nil => exact h
  | cons row rows ih =>
    have first : row.length = width := h row List.mem_cons_self
    have rest (c : Cell) := ih (h.sub (List.subset_cons_self _ _)) c
    intro r hr
    simp only [carry] at hr
    split at hr
    · rcases List.mem_cons.mp hr with rfl | hr
      · rw [List.length_set]
        exact first
      · exact rest _ r hr
    · rcases List.mem_cons.mp hr with rfl | hr
      · exact first
      · exact rest _ r hr

theorem wide_apply (h : Wide width rows) (filling : NullFilling) (column : Nat) (type : ColumnType) :
    Wide width (filling.apply column type rows) := by
  cases filling with
  | keep => exact h
  | zeroes =>
    simp only [apply]
    split
    · exact wide_replace h column _
    · exact h
  | forward => exact wide_carry h column .null
  | backward =>
    have reversed : Wide width rows.reverse := h.sub fun _ => List.mem_reverse.mp
    exact (wide_carry reversed column .null).sub fun _ => List.mem_reverse.mp

end NullFilling

namespace TimeIndex

/-- A bucket's row is one of the table's or one of nulls. -/
theorem wide_rowsOf (h : Wide width rows) (column : Nat) (times buckets : List Int) :
    Wide width (rowsOf width column (times.zip rows) buckets) := by
  intro r hr
  obtain ⟨t, -, rfl⟩ := List.mem_map.mp hr
  cases found : (times.zip rows).lookup t with
  | none => simp [emptyRow]
  | some row =>
    obtain ⟨before, after, split, -⟩ := List.lookup_eq_some_iff.mp found
    have member : (t, row) ∈ times.zip rows := by simp [split]
    exact h row (List.of_mem_zip member).2

theorem wide_fillNulls (h : Wide width rows) (x : TimeIndex) (types : List ColumnType)
    (timeColumn : Nat) : Wide width (x.fillNulls types timeColumn rows) := by
  unfold fillNulls
  generalize (List.range types.length).filter (· != timeColumn) = columns
  induction columns generalizing rows with
  | nil => exact h
  | cons column columns ih => exact ih (NullFilling.wide_apply h x.nulls column _)

theorem wide_fillSegments (h : Wide width rows) (x : TimeIndex) (types : List ColumnType)
    (timeColumn : Nat) (start : Int) (buckets : List Int) :
    Wide width (x.fillSegments types timeColumn start buckets rows) :=
  (wide_fillNulls (h.sub (List.take_subset _ _)) x types timeColumn).append
    (wide_fillNulls (h.sub (List.drop_subset _ _)) x types timeColumn)

theorem rectangular_fill {x : TimeIndex} {granularity : Period} {window : Interval}
    {t filled : DataTable} (rect : t.Rectangular)
    (h : x.fill granularity window t = .ok filled) : filled.Rectangular := by
  obtain ⟨column, -, h⟩ := bind_ok_iff.mp h
  obtain ⟨times, -, h⟩ := bind_ok_iff.mp h
  obtain ⟨⟨low, high⟩, -, h⟩ := bind_ok_iff.mp h
  obtain ⟨buckets, -, h⟩ := bind_ok_iff.mp h
  obtain rfl := Except.ok.inj h
  exact ⟨rect.types, wide_fillSegments (wide_rowsOf rect.rows column times buckets) x t.types column
    window.start buckets⟩

end TimeIndex

/-! ## Joining -/

namespace DataTable

variable {left right : DataTable} {key : String}

/-- The header of a join is as wide as its rows. -/
theorem length_joinHeader (rect : left.Rectangular) (kept : List Nat) :
    (left.joinHeader right kept).length = left.width + kept.length := by
  have paired : (left.columns.zip left.types).length = left.width := by
    rw [List.length_zip, rect.types, width, Nat.min_self]
  rw [joinHeader, List.length_append, paired, List.length_map]

/-- The rows of a join. -/
def joinedRows (leftKey : Nat) (kept : List Nat) (index : Keyed String (List Row))
    (rows : List Row) : List Row :=
  rows.flatMap fun row =>
    match (joinKey leftKey row).bind index.get? with
    | some others => others.map (joinRow kept row)
    | none => []

theorem mem_joinedRows {leftKey : Nat} {kept : List Nat} {index : Keyed String (List Row)}
    {r : Row} (h : r ∈ joinedRows leftKey kept index rows) :
    ∃ row ∈ rows, ∃ other, r = joinRow kept row other := by
  obtain ⟨row, there, hr⟩ := List.mem_flatMap.mp h
  split at hr
  · obtain ⟨other, -, rfl⟩ := List.mem_map.mp hr
    exact ⟨row, there, other, rfl⟩
  · cases hr

/-- Every row of a join of rectangular tables has as many cells as the header has columns, so
that none is refused: the join fails only for want of the key column. -/
theorem innerJoin_ok {leftKey rightKey : Nat} (rect : left.Rectangular)
    (inLeft : left.columnIndex key = .ok leftKey) (inRight : right.columnIndex key = .ok rightKey) :
    ∃ t, left.innerJoin right key = .ok t ∧ t.Rectangular := by
  let kept := right.joinedColumns rightKey
  let empty : DataTable := { ofColumns (left.joinHeader right kept) with properties := left.properties }
  let rows := joinedRows leftKey kept (indexRows rightKey right.rows) left.rows
  have wide : ∀ r ∈ rows, r.length = empty.width := by
    intro r hr
    obtain ⟨row, there, other, rfl⟩ := mem_joinedRows hr
    have header : empty.width = left.width + kept.length := by
      simp [empty, width, ofColumns, length_joinHeader rect]
    rw [header, joinRow, List.length_append, List.length_map, rect.rows row there]
  have joined : empty.withRows rows = .ok { empty with rows := empty.rows ++ rows } :=
    withRows_ok_iff.mpr ⟨wide, rfl⟩
  refine ⟨_, ?_, (rectangular_ofColumns _ _).withRows joined⟩
  simp only [innerJoin, inLeft, inRight]
  exact joined

theorem innerJoin_error {e : Failure} (rect : left.Rectangular)
    (h : left.innerJoin right key = .error e) :
    left.columnIndex key = .error e ∨ right.columnIndex key = .error e := by
  cases inLeft : left.columnIndex key with
  | error e' =>
    simp [innerJoin, inLeft, bind, Except.bind] at h
    exact .inl (congrArg _ h)
  | ok leftKey =>
    cases inRight : right.columnIndex key with
    | error e' =>
      simp [innerJoin, inLeft, inRight, bind, Except.bind] at h
      exact .inr (congrArg _ h)
    | ok rightKey =>
      obtain ⟨t, joined, -⟩ := innerJoin_ok rect inLeft inRight
      rw [joined] at h
      cases h

theorem rectangular_innerJoin {t : DataTable} (rect : left.Rectangular)
    (h : left.innerJoin right key = .ok t) : t.Rectangular := by
  obtain ⟨leftKey, inLeft, h'⟩ := bind_ok_iff.mp h
  obtain ⟨rightKey, inRight, -⟩ := bind_ok_iff.mp h'
  obtain ⟨u, joined, rect'⟩ := innerJoin_ok rect inLeft inRight
  obtain rfl := Except.ok.inj (joined.symm.trans h)
  exact rect'

end DataTable

end DetectionPlan
