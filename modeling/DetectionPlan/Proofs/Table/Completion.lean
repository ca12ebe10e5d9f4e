/-
Tables completed to one row for each bucket. A completion that keeps nulls gives, in rising
order, each bucket start between its limits one row: the table's first row of that instant, or
one with the instant and nothing else (`completed_rows`). The other methods change nothing but
nulls, each from the rows on its own side of the window's start (`replaced_nulls`).
-/
import DetectionPlan.Proofs.Table.Buckets
import DetectionPlan.Proofs.Table.Nulls
import DetectionPlan.Proofs.Table.Rectangular
import Mathlib

namespace DetectionPlan

open Outcome (bind_ok_iff pure_ok_iff)

/-! ## Instants of a table -/

namespace DataTable

variable {t : DataTable} {name : String} {column : Nat} {times : List Int}

theorem longAt_ok_iff (place : t.columnIndex name = .ok column) {row : Nat} {n : Int} :
    t.longAt row name = .ok n ↔ (t.cell row column).asLong = some n := by
  unfold longAt
  rw [place]
  simp only [bind, Except.bind]
  cases (t.cell row column).asLong <;> simp

/-- The integers of a column are those of its cells, and every cell has one. -/
theorem longs_ok_iff (place : t.columnIndex name = .ok column) :
    t.longs name = .ok times ↔
      t.rows.map (fun row => (cellOf row column).asLong) = times.map some := by
  unfold longs
  rw [Outcome.mapM_ok_iff, List.forall₂_iff_get]
  simp only [longAt_ok_iff place, List.length_range, List.get_eq_getElem, List.getElem_range]
  constructor
  · rintro ⟨len, cells⟩
    refine List.ext_getElem (by simpa using len) fun i lt lt' => ?_
    have inside : i < t.rows.length := by simpa using lt
    have read := cells i inside (by simpa using lt')
    simpa [cell, inside, List.getD_eq_getElem?_getD] using read
  · intro same
    have len : t.rows.length = times.length := by simpa using congrArg List.length same
    refine ⟨len, fun i lt lt' => ?_⟩
    have here := congrArg (·[i]?) same
    simpa [cell, lt, lt', List.getD_eq_getElem?_getD] using here

/-- Tables with the same instants have the same integers in their column. -/
theorem longs_congr {u : DataTable} (place : t.columnIndex name = .ok column)
    (place' : u.columnIndex name = .ok column) (len : u.rows.length = t.rows.length)
    (cells : ∀ i, u.cell i column = t.cell i column) : u.longs name = t.longs name := by
  unfold longs longAt
  rw [len, place, place']
  simp only [bind, Except.bind, cells]

end DataTable

/-! ## Rows of buckets -/

namespace TimeIndex

open DataTable (cellOf)

variable {x : TimeIndex} {granularity : Period} {window : Interval} {t out : DataTable}
  {rows : List Row} {times found : List Int} {width column : Nat}

/-- The first row of an instant. -/
theorem lookup_zip (len : times.length = rows.length) (s : Int) :
    (times.zip rows).lookup s =
      if s ∈ times then some (rows.getD (times.idxOf s) []) else none := by
  induction times generalizing rows with
  | nil => rfl
  | cons time times ih =>
    cases rows with
    | nil => cases len
    | cons row rows =>
      rw [List.zip_cons_cons, List.lookup_cons, List.idxOf_cons]
      by_cases here : s = time
      · simp [here]
      · have other : (s == time) = false := by simpa using here
        have other' : (time == s) = false := by simpa using Ne.symm here
        simp only [other, other', cond_false, List.mem_cons, here, false_or, List.getD_cons_succ,
          ih (Nat.succ.inj len)]

theorem rowsOf_eq (len : times.length = rows.length) (found : List Int) :
    rowsOf width column (times.zip rows) found = found.map fun s =>
      if s ∈ times then rows.getD (times.idxOf s) [] else emptyRow width column s := by
  refine List.map_congr_left fun s _ => ?_
  rw [lookup_zip len]
  split <;> rfl

/-- The row of a bucket has the bucket's start for its instant. -/
theorem instants_rowsOf (inside : column < width)
    (read : rows.map (fun row => (cellOf row column).asLong) = times.map some) (found : List Int) :
    (rowsOf width column (times.zip rows) found).map (fun row => (cellOf row column).asLong) =
      found.map some := by
  have len : times.length = rows.length := by simpa using (congrArg List.length read).symm
  rw [rowsOf_eq len, List.map_map]
  refine List.map_congr_left fun s _ => ?_
  rw [Function.comp_apply]
  split
  next known =>
    have lt := List.idxOf_lt_length_of_mem known
    have here := congrArg (·[times.idxOf s]?) read
    simpa [lt, len ▸ lt, List.getD_eq_getElem?_getD] using here
  next => simp [emptyRow, cellOf_set, inside, Cell.asLong]

/-! ## What a completion is made of -/

theorem fillSegments_keep (keeps : x.nulls = .keep) (types : List ColumnType) (timeColumn : Nat)
    (start : Int) (buckets : List Int) (rows : List Row) :
    x.fillSegments types timeColumn start buckets rows = rows := by
  have same (rows : List Row) : x.fillNulls types timeColumn rows = rows := by
    unfold fillNulls
    rw [keeps]
    exact List.foldl_fixed _
  simp only [fillSegments, same, List.take_append_drop]

/-- What a completion is made of: where the instants stand and what they are, the limits, the
buckets found between them, and the table as it is while nulls are kept. -/
structure Completed (x : TimeIndex) (granularity : Period) (window : Interval) (t out : DataTable)
    (column : Nat) (times : List Int) (low high : Int) (found : List Int) (kept : DataTable) : Prop where
  place : t.columnIndex x.timestamp = .ok column
  read : t.longs x.timestamp = .ok times
  limits : x.limits t window times = .ok (low, high)
  walked : buckets granularity low high = .ok found
  keeping : { x with nulls := .keep }.fill granularity window t = .ok kept
  header : out.columns = t.columns ∧ out.types = t.types
  rows : kept.rows = rowsOf t.width column (times.zip t.rows) found
  replaced : out = { kept with rows := x.fillSegments t.types column window.start found kept.rows }

theorem exists_completed (h : x.fill granularity window t = .ok out) :
    ∃ column times low high found kept,
      Completed x granularity window t out column times low high found kept := by
  obtain ⟨column, place, h⟩ := bind_ok_iff.mp h
  obtain ⟨times, read, h⟩ := bind_ok_iff.mp h
  obtain ⟨⟨low, high⟩, limits, h⟩ := bind_ok_iff.mp h
  obtain ⟨found, walked, h⟩ := bind_ok_iff.mp h
  obtain rfl := pure_ok_iff.mp h
  let rows := rowsOf t.width column (times.zip t.rows) found
  let kept := { t with rows, properties := t.properties.put .granularity granularity.text }
  have same := fillSegments_keep (x := { x with nulls := .keep }) rfl t.types column window.start
    found rows
  refine ⟨column, times, low, high, found, kept, place, read, limits, walked, ?_, ⟨rfl, rfl⟩, rfl,
    rfl⟩
  refine bind_ok_iff.mpr ⟨column, place, bind_ok_iff.mpr ⟨times, read, ?_⟩⟩
  refine bind_ok_iff.mpr ⟨(low, high), limits, bind_ok_iff.mpr ⟨found, walked, ?_⟩⟩
  exact pure_ok_iff.mpr (by rw [same])

namespace Completed

variable {low high : Int} {kept : DataTable}
  (c : Completed x granularity window t out column times low high found kept)

include c

theorem cell_eq (i d : Nat) :
    let split := (found.takeWhile (· < window.start)).length
    out.cell i d = if (d < t.types.length ∧ d ≠ column) ∧ d < (kept.rows.getD i []).length ∧
        (kept.cell i d).isNull then
      x.nulls.replacement (t.types.getD d default) (segmentOf split (cellsOf d kept.rows) i)
        (placeIn split i)
    else kept.cell i d := by
  rw [c.replaced]
  exact cellOf_fillSegments x t.types column window.start found kept.rows i d

theorem cell_of_filled {i d : Nat} (filled : (kept.cell i d).isNull = false) :
    out.cell i d = kept.cell i d := by
  rw [c.cell_eq, if_neg]
  simp [filled]

theorem cell_column (i : Nat) : out.cell i column = kept.cell i column := by
  rw [c.cell_eq, if_neg]
  simp

theorem length_rows : kept.rows.length = found.length := by
  rw [c.rows, rowsOf, List.length_map]

theorem rows_eq : kept.rows = found.map fun s =>
      if s ∈ times then t.rows.getD (times.idxOf s) [] else emptyRow t.width column s := by
  have read := (DataTable.longs_ok_iff c.place).mp c.read
  rw [c.rows, rowsOf_eq (by simpa using (congrArg List.length read).symm)]

theorem place_kept : kept.columnIndex x.timestamp = .ok column := by
  have columns : kept.columns = t.columns := by rw [← c.header.1, c.replaced]
  rw [DataTable.columnIndex, columns]
  exact c.place

theorem longs_kept : kept.longs x.timestamp = .ok found := by
  have read := (DataTable.longs_ok_iff c.place).mp c.read
  rw [DataTable.longs_ok_iff c.place_kept, c.rows]
  exact instants_rowsOf (DataTable.columnIndex_lt c.place) read found

theorem length_out : out.rows.length = kept.rows.length := by
  rw [c.replaced]
  exact length_fillSegments ..

theorem longs_out : out.longs x.timestamp = .ok found := by
  have place : out.columnIndex x.timestamp = .ok column := by
    rw [DataTable.columnIndex, c.header.1]
    exact c.place
  rw [DataTable.longs_congr c.place_kept place c.length_out c.cell_column]
  exact c.longs_kept

end Completed

/-- **The rows of a completion.** For a period of fixed length, one month or one year, the
instants of a completed table are, in rising order, exactly the bucket starts between its limits,
the upper one excluded. While nulls are kept, the row of an instant is the table's first row of
that instant, or a row of the table's width that has the instant and nothing else. No method of
replacing nulls changes a cell that is not null, nor the columns and their types. -/
theorem completed_rows (nonzero : granularity.isZero = false) (tiles : granularity.Tiles)
    (h : x.fill granularity window t = .ok out) :
    ∃ column times low high stamps kept,
      t.columnIndex x.timestamp = .ok column ∧ t.longs x.timestamp = .ok times ∧
      x.limits t window times = .ok (low, high) ∧ out.columns = t.columns ∧ out.types = t.types ∧
      out.longs x.timestamp = .ok stamps ∧ stamps.Pairwise (· < ·) ∧
      (∀ s, s ∈ stamps ↔ low ≤ s ∧ s < high ∧ granularity.floor s = .ok s) ∧
      { x with nulls := .keep }.fill granularity window t = .ok kept ∧
      (kept.rows = stamps.map fun s =>
        if s ∈ times then t.rows.getD (times.idxOf s) []
        else (List.replicate t.width .null).set column (.long s)) ∧
      ∀ i d, (kept.cell i d).isNull = false → out.cell i d = kept.cell i d := by
  obtain ⟨column, times, low, high, found, kept, c⟩ := exists_completed h
  exact ⟨column, times, low, high, found, kept, c.place, c.read, c.limits, c.header.1, c.header.2,
    c.longs_out, pairwise_buckets c.walked, fun s => mem_buckets_iff nonzero tiles c.walked,
    c.keeping, c.rows_eq, fun i d => c.cell_of_filled⟩

/-- Counts of some months out of order: one of them twice, and one that starts no month. -/
def monthlyCounts : DataTable where
  columns := ["ts", "count"]
  types := [.long, .long]
  rows := [[.long 2678400000, .null], [.string "0", .long 3], [.long 2678400000, .long 9],
    [.long 5, .long 7], [.long 5097600000, .long 5]]

/-- The counts from January to April 1970, each carried on within a window from February. -/
def carriedCounts : DataTable where
  columns := ["ts", "count"]
  types := [.long, .long]
  rows := [[.string "0", .long 3], [.long 2678400000, .null], [.long 5097600000, .long 5],
    [.long 7776000000, .long 5]]
  properties := ⟨[("granularity", "P1M")]⟩

def carryByMonth : TimeIndex := { timestamp := "ts", nulls := .forward }

def fromFebruary : Interval := ⟨2678400000, 10000000000, by decide⟩

theorem completed_rows_monthly :
    (Period.isZero { months := 1 } = false ∧ Period.Tiles { months := 1 } ∧
      carryByMonth.fill { months := 1 } fromFebruary monthlyCounts = .ok carriedCounts) ∧
    ∀ s, s ∈ [0, 2678400000, 5097600000, 7776000000] ↔
      0 ≤ s ∧ s < 10000000000 ∧ Period.floor { months := 1 } s = .ok s := by
  have tiles : Period.Tiles { months := 1 } := .inr (.inl rfl)
  have filled : carryByMonth.fill { months := 1 } fromFebruary monthlyCounts =
      .ok carriedCounts := by cbv
  refine ⟨⟨by decide, tiles, filled⟩, ?_⟩
  obtain ⟨column, times, low, high, stamps, kept, -, read, limits, -, -, instants, -, starts, -⟩ :=
    completed_rows (by decide) tiles filled
  have known : monthlyCounts.longs "ts" = .ok [2678400000, 0, 2678400000, 5, 5097600000] := by cbv
  obtain rfl := Except.ok.inj (known.symm.trans read)
  have between : carryByMonth.limits monthlyCounts fromFebruary
      [2678400000, 0, 2678400000, 5, 5097600000] = .ok (0, 10000000000) := by cbv
  obtain ⟨rfl, rfl⟩ := Prod.mk.inj (Except.ok.inj (between.symm.trans limits))
  have shown : carriedCounts.longs "ts" = .ok [0, 2678400000, 5097600000, 7776000000] := by cbv
  obtain rfl := Except.ok.inj (shown.symm.trans instants)
  exact starts

/-! ## Segments -/

/-- The rows of a rising list of instants that lie before some instant are its first ones. -/
theorem lt_takeWhile_iff {stamps : List Int} (rising : stamps.Pairwise (· < ·)) {start s : Int}
    {i : Nat} (here : stamps[i]? = some s) :
    i < (stamps.takeWhile (· < start)).length ↔ s < start := by
  induction stamps generalizing i with
  | nil => cases here
  | cons first rest ih =>
    obtain ⟨later, rising⟩ := List.pairwise_cons.mp rising
    rw [List.takeWhile_cons]
    cases i with
    | zero =>
      obtain rfl : first = s := by simpa using here
      by_cases before : first < start <;> simp [before]
    | succ i =>
      rw [List.getElem?_cons_succ] at here
      have above := later s (List.mem_of_getElem? here)
      by_cases before : first < start
      · simp [before, ih rising here]
      · simp only [before, decide_false, Bool.false_eq_true, if_false, List.length_nil,
          Nat.not_lt_zero, false_iff]
        omega

/-- Both rows lie before an instant, or neither does. -/
def SameSide (start : Int) (stamps : List Int) (i j : Nat) : Prop :=
  ∃ s u, stamps[i]? = some s ∧ stamps[j]? = some u ∧ (s < start ↔ u < start)

theorem sameSide_iff {stamps : List Int} (rising : stamps.Pairwise (· < ·)) (start : Int)
    {i : Nat} (inside : i < stamps.length) (j : Nat) :
    SameSide start stamps i j ↔ j < stamps.length ∧
      (j < (stamps.takeWhile (· < start)).length ↔ i < (stamps.takeWhile (· < start)).length) := by
  have here : stamps[i]? = some stamps[i] := List.getElem?_eq_getElem inside
  rw [lt_takeWhile_iff rising here]
  constructor
  · rintro ⟨s, u, hs, hu, same⟩
    obtain rfl := Option.some.inj (here.symm.trans hs)
    rw [lt_takeWhile_iff rising hu]
    exact ⟨(List.getElem?_eq_some_iff.mp hu).1, same.symm⟩
  · rintro ⟨there, same⟩
    have hu : stamps[j]? = some stamps[j] := List.getElem?_eq_getElem there
    rw [lt_takeWhile_iff rising hu] at same
    exact ⟨_, _, here, hu, same.symm⟩

/-- **The nulls of a completion.** The instants of a completed table are those it has while nulls
are kept, and their cells are untouched. Every other cell, of a column that has a type, becomes
what the method asks for: it is kept if it is not null, and if it is, it stays null, turns into the
zero of the column's type, or into the nearest cell before or after it that was not null, on the
same side of the start of the window. -/
theorem replaced_nulls (h : x.fill granularity window t = .ok out) :
    ∃ column stamps kept,
      t.columnIndex x.timestamp = .ok column ∧
      { x with nulls := .keep }.fill granularity window t = .ok kept ∧
      kept.longs x.timestamp = .ok stamps ∧ out.longs x.timestamp = .ok stamps ∧
      out.rows.length = kept.rows.length ∧ (∀ i, out.cell i column = kept.cell i column) ∧
      ∀ i d type, d ≠ column → t.types[d]? = some type → d < (kept.rows.getD i []).length →
        x.nulls.Becomes type (kept.cell · d) (SameSide window.start stamps i) i (out.cell i d) := by
  obtain ⟨column, times, low, high, found, kept, c⟩ := exists_completed h
  refine ⟨column, found, kept, c.place, c.keeping, c.longs_kept, c.longs_out, c.length_out,
    c.cell_column, fun i d type other typed there => ?_⟩
  obtain ⟨known, isType⟩ := List.getElem?_eq_some_iff.mp typed
  have inside : i < kept.rows.length := by
    by_contra outside
    simp [List.getElem?_eq_none (Nat.not_lt.mp outside)] at there
  have cells : (cellsOf d kept.rows).length = found.length := by
    rw [cellsOf, List.length_map, c.length_rows]
  have there' : i < (cellsOf d kept.rows).length := by
    rw [cells, ← c.length_rows]
    exact inside
  have same := sameSide_iff (pairwise_buckets c.walked) window.start (cells ▸ there')
  rw [← cells] at same
  have becomes := NullFilling.becomes_replacement x.nulls type (cellsOf d kept.rows) there' same
  have typeAt : t.types.getD d default = type := by
    rw [List.getD_eq_getElem?_getD, typed, Option.getD_some]
  simp only [getD_cellsOf] at becomes
  rw [c.cell_eq, typeAt]
  simp only [known, other, there, ne_eq, not_false_eq_true, true_and]
  exact becomes

/-- The months of the counts before any is carried on. -/
def keptCounts : DataTable :=
  { carriedCounts with
    rows := [[.string "0", .long 3], [.long 2678400000, .null], [.long 5097600000, .long 5],
      [.long 7776000000, .null]] }

/-- February, which has no count, takes none from before the window; April takes that of March. -/
theorem replaced_nulls_forward :
    carryByMonth.fill { months := 1 } fromFebruary monthlyCounts = .ok carriedCounts ∧
    let segment := SameSide 2678400000 [0, 2678400000, 5097600000, 7776000000]
    Nearest (keptCounts.cell · 1) (segment 1) (· < ·) 1 .null ∧
      Nearest (keptCounts.cell · 1) (segment 3) (· < ·) 3 (.long 5) := by
  have filled : carryByMonth.fill { months := 1 } fromFebruary monthlyCounts =
      .ok carriedCounts := by cbv
  refine ⟨filled, ?_⟩
  obtain ⟨column, stamps, kept, place, keeping, -, instants, -, -, becomes⟩ :=
    replaced_nulls filled
  have shown : carriedCounts.longs "ts" = .ok [0, 2678400000, 5097600000, 7776000000] := by cbv
  obtain rfl := Except.ok.inj (shown.symm.trans instants)
  have first : monthlyCounts.columnIndex "ts" = .ok 0 := by cbv
  obtain rfl := Except.ok.inj (first.symm.trans place)
  have unfilled : { carryByMonth with nulls := .keep }.fill { months := 1 } fromFebruary
      monthlyCounts = .ok keptCounts := by cbv
  obtain rfl := Except.ok.inj (unfilled.symm.trans keeping)
  exact ⟨becomes 1 1 .long (by decide) rfl (by decide),
    becomes 3 1 .long (by decide) rfl (by decide)⟩

end TimeIndex

end DetectionPlan
