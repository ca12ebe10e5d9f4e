/-
The column names of a join: those of the left table, then those of the right one without the key,
where a name that the left table has too gets `right_` in front. Nothing is done about a name that
is taken even so. The names of a join are distinct, and each column is found under its name, unless
there is a name of that kind (`nodup_columns_innerJoin_iff`).
-/
import DetectionPlan.Proofs.Table.NestedLoop
import Mathlib.Data.List.Nodup

namespace DetectionPlan.DataTable

open Outcome (bind_ok_iff)

variable {left right joined : DataTable} {key name : String} {leftKey rightKey : Nat}

/-! ## Columns by name -/

/-- Every column is found under its name exactly if no two have the same one. -/
theorem nodup_iff_columnIndex {t : DataTable} :
    t.columns.Nodup ↔ ∀ i name, t.columns[i]? = some name → t.columnIndex name = .ok i := by
  constructor
  · intro distinct i name here
    obtain ⟨lt, rfl⟩ := List.getElem?_eq_some_iff.mp here
    rw [columnIndex_ok_iff, List.idxOf?_eq_some_iff]
    refine ⟨lt, rfl, fun j before same => ?_⟩
    have place : j = i := (distinct.getElem_inj_iff).mp same
    omega
  · intro found
    refine List.nodup_iff_injective_get.mpr fun i j same => Fin.ext ?_
    have first := found i _ (List.getElem?_eq_getElem i.isLt)
    have second := found j _ (List.getElem?_eq_getElem j.isLt)
    have same' : t.columns[i.val] = t.columns[j.val] := same
    rw [same'] at first
    exact Except.ok.inj (first.symm.trans second)

/-- Without the column of the key there are the columns of all other names. -/
theorem mem_eraseIdx_columnIndex (distinct : right.columns.Nodup)
    (inRight : right.columnIndex key = .ok rightKey) :
    name ∈ right.columns.eraseIdx rightKey ↔ name ≠ key ∧ name ∈ right.columns := by
  have place := columnIndex_ok_iff.mp inRight
  obtain ⟨lt, here, -⟩ := List.idxOf?_eq_some_iff.mp place
  rw [← here, ← distinct.erase_getElem rightKey lt, distinct.mem_erase_iff]

/-! ## Names beside the left table -/

theorem joinedName_of_mem (h : name ∈ left.columns) : left.joinedName name = "right_" ++ name := by
  simp [joinedName, hasColumn, h]

theorem joinedName_of_not_mem (h : name ∉ left.columns) : left.joinedName name = name := by
  simp [joinedName, hasColumn, h]

/-- The columns that a join takes over from its left table: those that have a type. -/
def typedColumns (t : DataTable) : List String := (t.columns.zip t.types).map (·.1)

theorem typedColumns_eq_take (t : DataTable) : t.typedColumns = t.columns.take t.types.length := by
  rw [typedColumns, List.zip_eq_zip_take_min, List.map_fst_zip (by simp)]
  simp [Nat.min_comm]

/-- A name of both tables, not that of the key, which gets a name that is taken itself: by a column
of the left table, or by one of the right table that keeps its name. -/
structure Clashes (left right : DataTable) (key name : String) : Prop where
  notKey : name ≠ key
  inLeft : name ∈ left.columns
  inRight : name ∈ right.columns
  taken : "right_" ++ name ∈ left.typedColumns ∨
    "right_" ++ name ∈ right.columns ∧ "right_" ++ name ∉ left.columns

theorem eq_of_append_eq {a b : String} (h : "right_" ++ a = "right_" ++ b) : a = b := by
  have same := congrArg String.toList h
  rw [String.toList_append, String.toList_append] at same
  exact String.toList_inj.mp (List.append_cancel_left same)

/-- A name beside the left table is one of its columns exactly if it was marked and is taken there. -/
theorem joinedName_mem_iff : left.joinedName name ∈ left.typedColumns ↔
    name ∈ left.columns ∧ "right_" ++ name ∈ left.typedColumns := by
  by_cases h : name ∈ left.columns
  · simp [joinedName_of_mem h, h]
  · have absent : name ∉ left.typedColumns := fun there =>
      h (List.mem_of_mem_take (left.typedColumns_eq_take ▸ there))
    simp [joinedName_of_not_mem h, h, absent]

/-- Two names of the right table become one exactly if one is marked and the other is what it
becomes. -/
theorem joinedName_eq_iff {other : String} : left.joinedName name = left.joinedName other ↔
    name = other ∨ (name ∈ left.columns ∧ other ∉ left.columns ∧ other = "right_" ++ name) ∨
      (other ∈ left.columns ∧ name ∉ left.columns ∧ name = "right_" ++ other) := by
  by_cases h : name ∈ left.columns <;> by_cases h' : other ∈ left.columns
  · rw [joinedName_of_mem h, joinedName_of_mem h']
    simp only [h, h', not_true, false_and, and_false, or_false]
    exact ⟨eq_of_append_eq, congrArg _⟩
  · rw [joinedName_of_mem h, joinedName_of_not_mem h']
    have different : name ≠ other := fun same => h' (same ▸ h)
    simp [h, h', different, eq_comm]
  · rw [joinedName_of_not_mem h, joinedName_of_mem h']
    have different : name ≠ other := fun same => h (same ▸ h')
    simp [h, h', different]
  · rw [joinedName_of_not_mem h, joinedName_of_not_mem h']
    simp [h, h']

/-! ## The names of a join -/

theorem columns_innerJoin (inRight : right.columnIndex key = .ok rightKey)
    (made : left.innerJoin right key = .ok joined) :
    joined.columns = left.typedColumns ++ (right.columns.eraseIdx rightKey).map left.joinedName := by
  obtain ⟨_, -, made⟩ := bind_ok_iff.mp made
  obtain ⟨rightKey', inRight', made⟩ := bind_ok_iff.mp made
  obtain rfl := Except.ok.inj (inRight.symm.trans inRight')
  obtain ⟨-, rfl⟩ := withRows_ok_iff.mp made
  have kept : (right.joinedColumns rightKey).map (right.columns.getD · "") = right.columns.eraseIdx rightKey :=
    map_getD_joinedColumns rfl rightKey ""
  simp [ofColumns, joinHeader, typedColumns, ← kept, Function.comp_def]

/-- **Distinct names.** For two tables of distinct names the names of a join are distinct, so that
each of its columns is found under its name, exactly if no name clashes. -/
theorem nodup_columns_innerJoin_iff (distinctLeft : left.columns.Nodup) (distinctRight : right.columns.Nodup)
    (made : left.innerJoin right key = .ok joined) :
    (joined.columns.Nodup ↔ ∀ name, ¬ left.Clashes right key name) ∧
    (joined.columns.Nodup ↔
      ∀ i name, joined.columns[i]? = some name → joined.columnIndex name = .ok i) := by
  refine ⟨?_, nodup_iff_columnIndex⟩
  obtain ⟨leftKey, inLeft, made'⟩ := bind_ok_iff.mp made
  obtain ⟨rightKey, inRight, -⟩ := bind_ok_iff.mp made'
  have known : key ∈ left.columns :=
    List.mem_of_getElem (List.idxOf?_eq_some_iff.mp (columnIndex_ok_iff.mp inLeft)).2.1
  have distinctTyped : left.typedColumns.Nodup :=
    left.typedColumns_eq_take ▸ distinctLeft.sublist (List.take_sublist _ _)
  rw [columns_innerJoin inRight made, List.nodup_append,
    List.nodup_map_iff_inj_on (distinctRight.sublist (List.eraseIdx_sublist _ _))]
  simp only [mem_eraseIdx_columnIndex distinctRight inRight, List.forall_mem_map]
  constructor
  · rintro ⟨-, apart, beside⟩ name ⟨notKey, inLeft, inRight, there | ⟨there, free⟩⟩
    · exact beside _ there name ⟨notKey, inRight⟩ (joinedName_of_mem inLeft).symm
    · have other : "right_" ++ name ≠ key := fun isKey => free (isKey ▸ known)
      have same : name = "right_" ++ name := apart name ⟨notKey, inRight⟩ _ ⟨other, there⟩
        (joinedName_eq_iff.mpr (.inr (.inl ⟨inLeft, free, rfl⟩)))
      exact free (same ▸ inLeft)
  · intro fine
    refine ⟨distinctTyped, fun a ha b hb same => ?_, fun a ha b hb same => ?_⟩
    · rcases joinedName_eq_iff.mp same with same | ⟨inLeft, free, rfl⟩ | ⟨inLeft, free, rfl⟩
      · exact same
      · exact absurd ⟨ha.1, inLeft, ha.2, .inr ⟨hb.2, free⟩⟩ (fine a)
      · exact absurd ⟨hb.1, inLeft, hb.2, .inr ⟨ha.2, free⟩⟩ (fine b)
    · obtain ⟨inLeft, taken⟩ := joinedName_mem_iff.mp (same ▸ ha)
      exact fine b ⟨hb.1, inLeft, hb.2, .inl taken⟩

/-- Values by hour, one of which is marked already. -/
def corrections : DataTable where
  columns := ["hour", "value", "right_value"]
  types := [.long, .long, .long]
  rows := [[.long 1, .long 11, .long 12]]

theorem nodup_columns_innerJoin_iff_markedTwice :
    ∃ joined, readings.columns.Nodup ∧ corrections.columns.Nodup ∧
      readings.innerJoin corrections "hour" = .ok joined ∧
      readings.Clashes corrections "hour" "value" ∧ ¬ joined.columns.Nodup ∧
      joined.columns[3]? = some "right_value" ∧ joined.columnIndex "right_value" = .ok 2 := by
  have distinctLeft : readings.columns.Nodup := by decide
  have distinctRight : corrections.columns.Nodup := by decide
  have rect : readings.Rectangular := ⟨rfl, by simp [readings, width]⟩
  obtain ⟨joined, made, -⟩ := innerJoin_ok rect (rfl : readings.columnIndex "hour" = .ok 0)
    (rfl : corrections.columnIndex "hour" = .ok 0)
  have clash : readings.Clashes corrections "hour" "value" :=
    ⟨by decide, by decide, by decide, .inr ⟨by decide, by decide⟩⟩
  have columns : joined.columns = ["hour", "value", "right_value", "right_value"] :=
    (columns_innerJoin (rfl : corrections.columnIndex "hour" = .ok 0) made).trans (by decide)
  have twice := (nodup_columns_innerJoin_iff distinctLeft distinctRight made).1
  refine ⟨joined, distinctLeft, distinctRight, made, clash, fun distinct => ?_, ?_, ?_⟩
  · exact twice.mp distinct "value" clash
  · rw [columns]
    rfl
  · rw [columnIndex, columns]
    rfl

end DetectionPlan.DataTable
