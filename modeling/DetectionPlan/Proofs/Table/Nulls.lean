/-
Nulls that are replaced. Whatever the method, a row stays as it is but for its nulls, and what a
null turns into depends on its own column only (`getElem?_apply`, `getElem?_fillSegments`). The
walk that carries the last cell along, in either direction, finds the nearest cell that is not
null among the rows of the segment (`becomes_replacement`).
-/
import DetectionPlan.Table.TimeIndex
import Mathlib.Data.List.Nodup

namespace DetectionPlan

open DataTable (cellOf)

/-- The cells of a column. -/
def cellsOf (column : Nat) (rows : List Row) : List Cell := rows.map (cellOf · column)

theorem getD_cellsOf (column : Nat) (rows : List Row) (i : Nat) :
    (cellsOf column rows).getD i .null = cellOf (rows.getD i []) column := by
  rw [cellsOf, List.getD_eq_getElem?_getD, List.getD_eq_getElem?_getD, List.getElem?_map]
  cases rows[i]? <;> rfl

theorem cellOf_set (row : Row) (column d : Nat) (value : Cell) :
    cellOf (row.set column value) d =
      if d = column ∧ d < row.length then value else cellOf row d := by
  simp only [cellOf, List.getD_eq_getElem?_getD, List.getElem?_set]
  grind

/-! ## What nulls turn into -/

namespace NullFilling

/-- The first cell that is not null. -/
def firstFilled (cells : List Cell) (otherwise : Cell) : Cell :=
  (cells.find? (!·.isNull)).getD otherwise

/-- What a null in row `i` of a column turns into. -/
def replacement (filling : NullFilling) (type : ColumnType) (cells : List Cell) (i : Nat) : Cell :=
  match filling with
  | keep => .null
  | zeroes => (zero? type).getD .null
  | forward => firstFilled (cells.take i).reverse .null
  | backward => firstFilled (cells.drop (i + 1)) .null

/-- Replace the cell of a column if it is null. -/
def patch (column : Nat) (value : Cell) (row : Row) : Row :=
  if (cellOf row column).isNull then row.set column value else row

variable {rows : List Row} {row : Row} {column : Nat}

@[simp] theorem length_patch (column : Nat) (value : Cell) (row : Row) :
    (patch column value row).length = row.length := by
  unfold patch
  split
  · exact List.length_set
  · rfl

theorem cellOf_patch (column d : Nat) (value : Cell) (row : Row) :
    cellOf (patch column value row) d =
      if d = column ∧ d < row.length ∧ (cellOf row d).isNull then value else cellOf row d := by
  unfold patch
  split
  · rw [cellOf_set]
    grind
  · grind

/-- A null stays null. -/
theorem patch_null (column : Nat) (row : Row) : patch column .null row = row := by
  unfold patch
  split
  next null =>
    refine List.ext_getElem List.length_set fun i lt lt' => ?_
    rw [List.getElem_set]
    split
    next here =>
      subst here
      have cell : (row[column]).isNull = true := by simpa [cellOf, lt'] using null
      cases held : row[column] <;> rw [held] at cell <;> first | rfl | cases cell
    · rfl
  · rfl

theorem getElem?_carry (column : Nat) (last : Cell) (rows : List Row) (i : Nat) :
    (carry column last rows)[i]? =
      rows[i]?.map (patch column (firstFilled (cellsOf column (rows.take i)).reverse last)) := by
  induction rows generalizing last i with
  | nil => rfl
  | cons row rows ih =>
    cases i with
    | zero =>
      simp only [carry]
      split
      next null => simp [patch, null, firstFilled, cellsOf]
      next filled => simp [patch, filled]
    | succ i =>
      have before : firstFilled (cellsOf column ((row :: rows).take (i + 1))).reverse last =
          firstFilled (cellsOf column (rows.take i)).reverse
            (if (cellOf row column).isNull then last else cellOf row column) := by
        simp only [firstFilled, cellsOf, List.take_succ_cons, List.map_cons, List.reverse_cons,
          List.find?_append, List.find?_singleton]
        cases (cellOf row column).isNull <;> grind
      rw [before, List.getElem?_cons_succ]
      simp only [carry]
      split <;> exact ih _ i

@[simp] theorem length_carry (column : Nat) (last : Cell) (rows : List Row) :
    (carry column last rows).length = rows.length := by
  induction rows generalizing last with
  | nil => rfl
  | cons row rows ih =>
    simp only [carry]
    split <;> rw [List.length_cons, List.length_cons, ih]

/-- Row by row, what replacing the nulls of a column comes to. -/
theorem getElem?_apply (filling : NullFilling) (column : Nat) (type : ColumnType) (rows : List Row)
    (i : Nat) : (filling.apply column type rows)[i]? =
      rows[i]?.map (patch column (filling.replacement type (cellsOf column rows) i)) := by
  have kept : rows[i]? = rows[i]?.map (patch column .null) := by
    cases rows[i]? with
    | none => rfl
    | some row => rw [Option.map_some, patch_null]
  cases filling with
  | keep => exact kept
  | zeroes =>
    simp only [apply, replacement]
    cases zero? type with
    | some zero => exact List.getElem?_map
    | none => exact kept
  | forward =>
    simp only [apply, replacement, getElem?_carry, cellsOf, List.map_take]
  | backward =>
    simp only [apply, replacement]
    by_cases inside : i < rows.length
    · have place : rows.length - 1 - (rows.length - 1 - i) = i := by omega
      have behind : rows.length - (rows.length - 1 - i) = i + 1 := by omega
      rw [List.getElem?_reverse (by simpa using inside), length_carry, List.length_reverse,
        getElem?_carry, List.getElem?_reverse (by omega), place, List.take_reverse, behind]
      simp only [cellsOf, List.map_reverse, List.reverse_reverse, List.map_drop]
    · have outside : rows.length ≤ i := Nat.not_lt.mp inside
      rw [List.getElem?_eq_none (by simpa using outside), List.getElem?_eq_none outside]
      rfl

theorem cellsOf_apply (filling : NullFilling) {column d : Nat} (other : d ≠ column)
    (type : ColumnType) (rows : List Row) :
    cellsOf d (filling.apply column type rows) = cellsOf d rows := by
  refine List.ext_getElem? fun i => ?_
  rw [cellsOf, cellsOf, List.getElem?_map, List.getElem?_map, getElem?_apply, Option.map_map]
  congr 1
  funext row
  simp only [Function.comp_apply, cellOf_patch, other, false_and, if_false]

/-- The nulls of some columns replaced by values. -/
def patchAll (columns : List Nat) (value : Nat → Cell) (row : Row) : Row :=
  columns.foldl (fun row column => patch column (value column) row) row

theorem cellOf_patchAll {columns : List Nat} (nodup : columns.Nodup) (value : Nat → Cell)
    (row : Row) (d : Nat) : cellOf (patchAll columns value row) d =
      if d ∈ columns ∧ d < row.length ∧ (cellOf row d).isNull then value d else cellOf row d := by
  induction columns generalizing row with
  | nil => simp [patchAll]
  | cons column columns ih =>
    obtain ⟨fresh, nodup⟩ := List.nodup_cons.mp nodup
    have step : patchAll (column :: columns) value row =
        patchAll columns value (patch column (value column) row) := rfl
    rw [step, ih nodup, length_patch, cellOf_patch]
    grind

end NullFilling

namespace TimeIndex

open NullFilling (patchAll)

/-! ## Rows with their nulls replaced -/

/-- The columns in which nulls are replaced. -/
def filledColumns (types : List ColumnType) (timeColumn : Nat) : List Nat :=
  (List.range types.length).filter (· != timeColumn)

theorem nodup_filledColumns (types : List ColumnType) (timeColumn : Nat) :
    (filledColumns types timeColumn).Nodup :=
  List.nodup_range.filter _

theorem mem_filledColumns {types : List ColumnType} {timeColumn d : Nat} :
    d ∈ filledColumns types timeColumn ↔ d < types.length ∧ d ≠ timeColumn := by
  simp [filledColumns]

theorem getElem?_fillNulls (x : TimeIndex) (types : List ColumnType) (timeColumn : Nat)
    (rows : List Row) (i : Nat) : (x.fillNulls types timeColumn rows)[i]? =
      rows[i]?.map (patchAll (filledColumns types timeColumn) fun column =>
        x.nulls.replacement (types.getD column default) (cellsOf column rows) i) := by
  have nodup := nodup_filledColumns types timeColumn
  unfold fillNulls
  change ((filledColumns types timeColumn).foldl _ rows)[i]? = _
  generalize filledColumns types timeColumn = columns at nodup
  induction columns generalizing rows with
  | nil => cases h : rows[i]? <;> simp [patchAll, h]
  | cons column columns ih =>
    obtain ⟨fresh, nodup⟩ := List.nodup_cons.mp nodup
    rw [List.foldl_cons, ih _ nodup, NullFilling.getElem?_apply, Option.map_map]
    congr 1
    funext row
    -- The columns still to come are as they were.
    refine List.foldl_ext _ _ _ fun row d hd => ?_
    have other : d ≠ column := fun same => fresh (same ▸ hd)
    simp only [NullFilling.cellsOf_apply _ other]

theorem length_fillNulls (x : TimeIndex) (types : List ColumnType) (timeColumn : Nat)
    (rows : List Row) : (x.fillNulls types timeColumn rows).length = rows.length := by
  have same (i : Nat) : (x.fillNulls types timeColumn rows).length ≤ i ↔ rows.length ≤ i := by
    rw [← List.getElem?_eq_none_iff, getElem?_fillNulls, Option.map_eq_none_iff,
      List.getElem?_eq_none_iff]
  exact Nat.le_antisymm ((same _).mpr (Nat.le_refl _)) ((same _).mp (Nat.le_refl _))

theorem length_fillSegments (x : TimeIndex) (types : List ColumnType) (timeColumn : Nat)
    (start : Int) (buckets : List Int) (rows : List Row) :
    (x.fillSegments types timeColumn start buckets rows).length = rows.length := by
  simp only [fillSegments, List.length_append, length_fillNulls, List.length_take, List.length_drop]
  omega

/-- The cells on the same side of a split as row `i`. -/
def segmentOf (split : Nat) (cells : List Cell) (i : Nat) : List Cell :=
  if i < split then cells.take split else cells.drop split

/-- The place of row `i` in its segment. -/
def placeIn (split i : Nat) : Nat := if i < split then i else i - split

/-- Row by row, the nulls of each segment are replaced from the segment itself. -/
theorem getElem?_fillSegments (x : TimeIndex) (types : List ColumnType) (timeColumn : Nat)
    (start : Int) (buckets : List Int) (rows : List Row) (i : Nat) :
    let split := (buckets.takeWhile (· < start)).length
    (x.fillSegments types timeColumn start buckets rows)[i]? =
      rows[i]?.map (patchAll (filledColumns types timeColumn) fun column =>
        x.nulls.replacement (types.getD column default) (segmentOf split (cellsOf column rows) i)
          (placeIn split i)) := by
  intro split
  change (x.fillNulls types timeColumn (rows.take split) ++
    x.fillNulls types timeColumn (rows.drop split))[i]? = _
  simp only [segmentOf, placeIn]
  rw [List.getElem?_append, length_fillNulls, List.length_take]
  by_cases history : i < split
  · simp only [if_pos history]
    split
    next there =>
      rw [getElem?_fillNulls, List.getElem?_take_of_lt history]
      simp only [cellsOf, List.map_take]
    next beyond =>
      have outside : rows.length ≤ i := by omega
      rw [getElem?_fillNulls, List.getElem?_eq_none outside, List.getElem?_eq_none (by simp; omega)]
      rfl
  · have later : ¬ i < min split rows.length := by omega
    simp only [if_neg history, if_neg later]
    rw [getElem?_fillNulls]
    by_cases there : i < rows.length
    · have place : i - min split rows.length = i - split := by omega
      have index : split + (i - split) = i := by omega
      rw [place, List.getElem?_drop, index]
      simp only [cellsOf, List.map_drop]
    · rw [List.getElem?_eq_none (Nat.not_lt.mp there), List.getElem?_eq_none (by simp; omega)]
      rfl

/-- Cell by cell: what is not null is kept, and so is the column of the instants. -/
theorem cellOf_fillSegments (x : TimeIndex) (types : List ColumnType) (timeColumn : Nat)
    (start : Int) (buckets : List Int) (rows : List Row) (i d : Nat) :
    let split := (buckets.takeWhile (· < start)).length
    cellOf ((x.fillSegments types timeColumn start buckets rows).getD i []) d =
      if (d < types.length ∧ d ≠ timeColumn) ∧ d < (rows.getD i []).length ∧
          (cellOf (rows.getD i []) d).isNull then
        x.nulls.replacement (types.getD d default) (segmentOf split (cellsOf d rows) i)
          (placeIn split i)
      else cellOf (rows.getD i []) d := by
  intro split
  simp only [List.getD_eq_getElem?_getD, getElem?_fillSegments]
  cases rows[i]? with
  | none => simp [cellOf]
  | some row =>
    simp only [Option.map_some, Option.getD_some]
    rw [NullFilling.cellOf_patchAll (nodup_filledColumns types timeColumn)]
    simp only [mem_filledColumns, split]

end TimeIndex

/-! ## The nearest cell -/

/-- The cell nearest to row `i`, among those of the segment on one side of it, that is not null.
It is null if there is none. -/
def Nearest (cells : Nat → Cell) (segment : Nat → Prop) (toward : Nat → Nat → Prop) (i : Nat)
    (c : Cell) : Prop :=
  (∃ j, toward j i ∧ segment j ∧ (cells j).isNull = false ∧ c = cells j ∧
    ∀ k, toward j k → toward k i → segment k → (cells k).isNull) ∨
  (∀ j, toward j i → segment j → (cells j).isNull) ∧ c = .null

namespace NullFilling

/-- What becomes of a cell of row `i`, from the cells of its column as they were: it stays as it is
unless it is null. -/
def Becomes (filling : NullFilling) (type : ColumnType) (before : Nat → Cell)
    (segment : Nat → Prop) (i : Nat) (after : Cell) : Prop :=
  if (before i).isNull then
    match filling with
    | keep => after = .null
    | zeroes => after = match type with
      | .long => .long 0
      | .double => .double 0
      | .string | .boolean => .null
    | forward => Nearest before segment (· < ·) i after
    | backward => Nearest before segment (· > ·) i after
  else after = before i

/-- The first filled cell along rows in the order of their distance is the nearest one. -/
theorem nearest_firstFilled {cells : Nat → Cell} {segment : Nat → Prop}
    {toward : Nat → Nat → Prop} {i : Nat} {places : List Nat} (irrefl : ∀ j, ¬ toward j j)
    (ordered : places.Pairwise fun j k => ¬ toward j k)
    (all : ∀ j, j ∈ places ↔ toward j i ∧ segment j) :
    Nearest cells segment toward i (firstFilled (places.map cells) .null) := by
  unfold firstFilled
  cases found : (places.map cells).find? (!·.isNull) with
  | none =>
    refine .inr ⟨fun j near inside => ?_, rfl⟩
    have listed : cells j ∈ places.map cells := List.mem_map_of_mem ((all j).mpr ⟨near, inside⟩)
    simpa using List.find?_eq_none.mp found (cells j) listed
  | some c =>
    obtain ⟨filled, before, after, split, nulls⟩ := List.find?_eq_some_iff_append.mp found
    obtain ⟨front, back, rfl, rfl, hb⟩ := List.map_eq_append_iff.mp split
    obtain ⟨j, rest, rfl, rfl, -⟩ := List.map_eq_cons_iff.mp hb
    obtain ⟨near, inside⟩ := (all j).mp (by simp)
    refine .inl ⟨j, near, inside, by simpa using filled, rfl, fun k beyond between there => ?_⟩
    -- A row nearer than the one found stands before it in the list.
    rcases List.mem_append.mp ((all k).mpr ⟨between, there⟩) with hk | hk
    · simpa using nulls (cells k) (List.mem_map_of_mem hk)
    · rcases List.mem_cons.mp hk with rfl | hk
      · exact absurd beyond (irrefl k)
      · have farther := (List.pairwise_cons.mp (List.pairwise_append.mp ordered).2.1).1 k hk
        exact absurd beyond farther

/-- A stretch of a list by the places in it. -/
theorem map_getD_range' (cells : List Cell) {a n : Nat} (h : a + n ≤ cells.length) :
    (List.range' a n).map (cells.getD · .null) = (cells.drop a).take n := by
  refine List.ext_getElem (by simp; omega) fun j lt lt' => ?_
  simp only [List.length_map, List.length_range'] at lt
  have inside : a + j < cells.length := by omega
  simp [inside]

/-- A segment is a stretch of the rows. -/
theorem segmentOf_eq (split : Nat) {i : Nat} {cells : List Cell} (inside : i < cells.length) :
    ∃ a b, a ≤ i ∧ i < b ∧ b ≤ cells.length ∧
      (∀ j < cells.length, a ≤ j ∧ j < b ↔ (j < split ↔ i < split)) ∧
      TimeIndex.segmentOf split cells i = (cells.drop a).take (b - a) ∧
      TimeIndex.placeIn split i = i - a := by
  unfold TimeIndex.segmentOf TimeIndex.placeIn
  by_cases history : i < split
  · refine ⟨0, min split cells.length, Nat.zero_le i, by omega, by omega, by omega, ?_, ?_⟩
    · rw [if_pos history, List.drop_zero, Nat.sub_zero, List.take_eq_take_min]
    · rw [if_pos history, Nat.sub_zero]
  · refine ⟨split, cells.length, by omega, inside, Nat.le_refl _, by omega, ?_, if_neg history⟩
    rw [if_neg history, List.take_of_length_le (by simp)]

/-- What a null turns into is what the method asks for, with cells of its own segment only. -/
theorem becomes_replacement (filling : NullFilling) (type : ColumnType) (cells : List Cell)
    {split i : Nat} {segment : Nat → Prop} (inside : i < cells.length)
    (same : ∀ j, segment j ↔ j < cells.length ∧ (j < split ↔ i < split)) :
    filling.Becomes type (cells.getD · .null) segment i
      (if (cells.getD i .null).isNull then
        filling.replacement type (TimeIndex.segmentOf split cells i) (TimeIndex.placeIn split i)
      else cells.getD i .null) := by
  unfold Becomes
  split
  next null =>
    obtain ⟨a, b, low, high, room, window, stretch, place⟩ := segmentOf_eq split inside
    rw [stretch, place]
    cases filling with
    | keep => rfl
    | zeroes => cases type <;> rfl
    | forward =>
      -- The nearest row before is the first of those before in reverse.
      have earlier : (((cells.drop a).take (b - a)).take (i - a)).reverse =
          ((List.range' a (i - a)).reverse).map (cells.getD · .null) := by
        rw [List.map_reverse, map_getD_range' cells (by omega), List.take_take,
          Nat.min_eq_left (by omega)]
      simp only [replacement, earlier]
      refine nearest_firstFilled (fun j => Nat.lt_irrefl j) ?_ fun j => ?_
      · rw [List.pairwise_reverse]
        exact (List.pairwise_lt_range' 1).imp fun h => Nat.lt_asymm h
      · rw [List.mem_reverse, List.mem_range'_1, same]
        have := window j
        omega
    | backward =>
      have later : ((cells.drop a).take (b - a)).drop (i - a + 1) =
          (List.range' (i + 1) (b - (i + 1))).map (cells.getD · .null) := by
        have next : a + (i - a + 1) = i + 1 := by omega
        have left : b - a - (i - a + 1) = b - (i + 1) := by omega
        rw [map_getD_range' cells (by omega), List.drop_take, List.drop_drop, next, left]
      simp only [replacement, later]
      refine nearest_firstFilled (fun j => Nat.lt_irrefl j) ?_ fun j => ?_
      · exact (List.pairwise_lt_range' 1).imp fun h => Nat.lt_asymm h
      · rw [List.mem_range'_1, same]
        have := window j
        omega
  · rfl

end NullFilling

end DetectionPlan
