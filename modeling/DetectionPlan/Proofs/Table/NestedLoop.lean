/-
Joins as nested loops. Under each key the index of a join holds the rows with that key in their
order, so looking a row up gives the rows that going through the whole table would
(`innerJoin_nestedLoop`).
-/
import DetectionPlan.Proofs.Table.Rectangular
import Mathlib.Data.List.Induction

namespace DetectionPlan

/-- Cells that join the rows they stand in: neither is null, and both have the same text. -/
def Cell.joins (c d : Cell) : Bool := !c.isNull && !d.isNull && c.text == d.text

namespace DataTable

variable {left right : DataTable} {key : String} {leftKey rightKey : Nat}

/-- Each row of the left side beside each row of the right one that its key cell joins, of which the
key cell is left out. -/
def nestedLoop (leftKey rightKey : Nat) (left right : List Row) : List Row :=
  left.flatMap fun row => right.flatMap fun other =>
    if (cellOf row leftKey).joins (cellOf other rightKey) then [row ++ other.eraseIdx rightKey] else []

/-! ## The index -/

theorem joinKey_eq (column : Nat) (row : Row) :
    joinKey column row = if (cellOf row column).isNull then none else some (cellOf row column).text := by
  unfold joinKey
  cases cellOf row column <;> rfl

/-- Under each key the index holds the rows with that key in their order. -/
theorem get?_indexRows (column : Nat) (rows : List Row) (key : String) :
    ((indexRows column rows).get? key).getD [] = rows.filter (joinKey column · == some key) := by
  -- rows are added behind those that are there
  induction rows using List.reverseRecOn with
  | nil => rfl
  | append_singleton rows row ih =>
    rw [List.filter_append, ← ih, indexRows, List.foldl_concat, ← indexRows]
    cases found : joinKey column row with
    | none => simp [found]
    | some own =>
      dsimp only
      rw [Keyed.get?_insert]
      by_cases same : key = own
      · simp [found, same]
      · simp [found, same, Ne.symm same]

/-- The rows of a join are those of a nested loop over the rows with the same key. -/
theorem joinedRows_eq (kept : List Nat) (rows others : List Row) :
    joinedRows leftKey kept (indexRows rightKey others) rows =
      rows.flatMap fun row => (others.filter fun other =>
        (cellOf row leftKey).joins (cellOf other rightKey)).map (joinRow kept row) := by
  refine List.flatMap_congr fun row _ => ?_
  suffices beside : (((joinKey leftKey row).bind (indexRows rightKey others).get?).getD [] =
      others.filter fun other => (cellOf row leftKey).joins (cellOf other rightKey)) by
    rw [← beside]
    cases (joinKey leftKey row).bind (indexRows rightKey others).get? <;> rfl
  rw [joinKey_eq]
  by_cases null : (cellOf row leftKey).isNull
  · simp [null, Cell.joins]
  · have same (other : Row) : (joinKey rightKey other == some (cellOf row leftKey).text) =
        (cellOf row leftKey).joins (cellOf other rightKey) := by
      rw [joinKey_eq, Cell.joins]
      cases (cellOf other rightKey).isNull <;> simp [null, eq_comm]
    rw [if_neg null, Option.bind_some, get?_indexRows]
    exact List.filter_congr fun other _ => same other

/-! ## The columns -/

/-- What is looked up for the columns that a join keeps is all but what stands in the place of the key. -/
theorem map_getD_joinedColumns {α : Type} {l : List α} (wide : l.length = right.width) (key : Nat)
    (default : α) : (right.joinedColumns key).map (l.getD · default) = l.eraseIdx key := by
  rw [joinedColumns, ← wide]
  clear wide
  induction l generalizing key with
  | nil => rfl
  | cons a l ih =>
    have whole : (List.range l.length).map (l.getD · default) = l :=
      List.ext_getElem (by simp) fun i lt lt' => by simp [lt']
    rw [List.length_cons, List.range_succ_eq_map, List.filter_cons]
    cases key with
    | zero => simpa [List.filter_map, Function.comp_def] using whole
    | succ key => simpa [List.filter_map, Function.comp_def] using ih key

theorem joinRow_eq (wide : Wide right.width right.rows) (row : Row) {other : Row} (there : other ∈ right.rows) :
    joinRow (right.joinedColumns rightKey) row other = row ++ other.eraseIdx rightKey :=
  congrArg (row ++ ·) (map_getD_joinedColumns (wide other there) rightKey .null)

theorem joinHeader_eq (rect : right.Rectangular) : left.joinHeader right (right.joinedColumns rightKey) =
    left.columns.zip left.types ++
      ((right.columns.eraseIdx rightKey).map left.joinedName).zip (right.types.eraseIdx rightKey) := by
  rw [← map_getD_joinedColumns (l := right.columns) rfl rightKey "",
    ← map_getD_joinedColumns rect.types rightKey default, List.map_map, List.zip_map']
  rfl

/-! ## The join -/

theorem map_flatMap_ite {α β : Type} (p : α → Bool) (f : α → β) (l : List α) :
    (l.filter p).map f = l.flatMap fun a => if p a then [f a] else [] := by
  induction l with
  | nil => rfl
  | cons a l ih => cases h : p a <;> simp [h, ih]

/-- **Joins are nested loops.** -/
theorem innerJoin_nestedLoop (rectLeft : left.Rectangular) (rectRight : right.Rectangular)
    (inLeft : left.columnIndex key = .ok leftKey) (inRight : right.columnIndex key = .ok rightKey) :
    ∃ joined, left.innerJoin right key = .ok joined ∧ joined.Rectangular ∧
      joined.rows = nestedLoop leftKey rightKey left.rows right.rows ∧
      joined.columns = left.columns ++ (right.columns.eraseIdx rightKey).map left.joinedName ∧
      joined.types = left.types ++ right.types.eraseIdx rightKey ∧ joined.properties = left.properties := by
  obtain ⟨joined, made, rect⟩ := innerJoin_ok rectLeft inLeft inRight
  let kept := right.joinedColumns rightKey
  let empty : DataTable := { ofColumns (left.joinHeader right kept) with properties := left.properties }
  have filled :
      empty.withRows (joinedRows leftKey kept (indexRows rightKey right.rows) left.rows) = .ok joined := by
    simp only [innerJoin, inLeft, inRight] at made
    exact made
  obtain ⟨-, rfl⟩ := withRows_ok_iff.mp filled
  have header : left.joinHeader right kept = left.columns.zip left.types ++
      ((right.columns.eraseIdx rightKey).map left.joinedName).zip (right.types.eraseIdx rightKey) :=
    joinHeader_eq rectRight
  have leftTypes : left.columns.length = left.types.length := rectLeft.types.symm
  have rightTypes : ((right.columns.eraseIdx rightKey).map left.joinedName).length =
      (right.types.eraseIdx rightKey).length := by
    rw [List.length_map, List.length_eraseIdx, List.length_eraseIdx, rectRight.types]
    rfl
  refine ⟨_, made, rect, ?_, ?_, ?_, rfl⟩
  · have rows : joinedRows leftKey kept (indexRows rightKey right.rows) left.rows =
        nestedLoop leftKey rightKey left.rows right.rows := by
      rw [joinedRows_eq]
      refine List.flatMap_congr fun row _ => ?_
      rw [← map_flatMap_ite]
      exact List.map_congr_left fun other mem => joinRow_eq rectRight.rows row (List.mem_of_mem_filter mem)
    exact rows
  · simp [empty, kept, ofColumns, header, List.map_fst_zip, leftTypes, rightTypes]
  · simp [empty, kept, ofColumns, header, List.map_snd_zip, leftTypes, rightTypes]

/-- Readings by hour. One is of no hour, and one has its hour as a text. -/
def readings : DataTable where
  columns := ["hour", "value"]
  types := [.long, .long]
  rows := [[.long 1, .long 10], [.null, .long 20], [.string "1", .long 30], [.long 2, .long 40]]

/-- What happened in some hours, several things in one of them. -/
def occasions : DataTable where
  columns := ["value", "hour"]
  types := [.string, .long]
  rows := [[.string "start", .long 1], [.string "never", .null], [.string "stop", .long 1]]

theorem innerJoin_nestedLoop_occasions :
    readings.Rectangular ∧ occasions.Rectangular ∧ readings.columnIndex "hour" = .ok 0 ∧
    occasions.columnIndex "hour" = .ok 1 ∧
    ∃ joined, readings.innerJoin occasions "hour" = .ok joined ∧
      joined.columns = ["hour", "value", "right_value"] ∧
      joined.rows = [[.long 1, .long 10, .string "start"], [.long 1, .long 10, .string "stop"],
        [.string "1", .long 30, .string "start"], [.string "1", .long 30, .string "stop"]] := by
  have rectLeft : readings.Rectangular := ⟨rfl, by simp [readings, width]⟩
  have rectRight : occasions.Rectangular := ⟨rfl, by simp [occasions, width]⟩
  obtain ⟨joined, made, -, rows, columns, -⟩ :=
    innerJoin_nestedLoop rectLeft rectRight (rfl : readings.columnIndex "hour" = .ok 0)
      (rfl : occasions.columnIndex "hour" = .ok 1)
  exact ⟨rectLeft, rectRight, rfl, rfl, joined, made, columns.trans (by decide), rows.trans rfl⟩

end DataTable

end DetectionPlan
