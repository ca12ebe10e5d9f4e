/-
What a detector reads of a table: of each row an instant and perhaps a value. The series of a metric
is made of these samples in the order of time, one for every row, or there is no series
(`series_ok`).
-/
import DetectionPlan.Detector.Basic
import DetectionPlan.Proofs.Outcome
import Mathlib.Data.List.Nodup

namespace DetectionPlan.DataTable

open Outcome (bind_ok_iff mapM_ok_iff pure_ok_iff)

variable {t : DataTable} {name : String} {columns : MetricColumns}

/-- The instant of a row: the integer of its cell in a column. -/
def timeOf (t : DataTable) (column : String) (row : Row) : Option Int :=
  (t.columnIndex column).toOption.bind fun i => (cellOf row i).asLong

/-- The value of a row: the double of its cell in a column. -/
def valueOf (t : DataTable) (column : String) (row : Row) : Option Float :=
  (t.columnIndex column).toOption.bind fun i => (cellOf row i).asDouble

/-- The instants of the rows that have one, each with the value of its row. -/
def samples (t : DataTable) (columns : MetricColumns) : List (Int × Option Float) :=
  t.rows.filterMap fun row =>
    (t.timeOf columns.timestamp row).map fun time => (time, t.valueOf columns.metric row)

theorem timeOf_of_longAt {row : Nat} {n : Int} (h : t.longAt row name = .ok n) :
    t.timeOf name (t.rows.getD row []) = some n := by
  obtain ⟨i, place, h⟩ := bind_ok_iff.mp h
  rw [timeOf, place]
  show (t.cell row i).asLong = some n
  split at h
  next known => rw [known, Except.ok.inj h]
  next => cases h

theorem valueOf_of_doubleAt {row : Nat} {x : Option Float} (h : t.doubleAt row name = .ok x) :
    t.valueOf name (t.rows.getD row []) = x := by
  obtain ⟨i, place, h⟩ := bind_ok_iff.mp h
  rw [valueOf, place]
  show (t.cell row i).asDouble = x
  dsimp only at h
  split at h
  next null =>
    rw [← Except.ok.inj h]
    cases cell : t.cell row i with
    | null => rfl
    | bool | long | double | string => simp [cell, Cell.isNull] at null
  next =>
    split at h
    next known => rw [known, Except.ok.inj h]
    next => cases h

/-- What is read row by row is read of all rows. -/
theorem map_rows_of_mapM {α β : Type} {f : Nat → Outcome α} {g : Row → β} {k : α → β} {read : List α}
    (h : (List.range t.rows.length).mapM f = .ok read)
    (same : ∀ i a, f i = .ok a → g (t.rows.getD i []) = k a) : t.rows.map g = read.map k := by
  have each := Outcome.map_eq_of_forall₂ (mapM_ok_iff.mp h) fun i a made => (same i a made).symm
  rw [each]
  exact List.ext_getElem (by simp) fun i lt lt' => by
    have inside : i < t.rows.length := by simpa using lt
    simp [inside]

theorem filterMap_eq_zip {α β γ : Type} {f : α → Option β} {l : List α} {bs : List β}
    (h : l.map f = bs.map some) (g : α → γ) :
    l.filterMap (fun a => (f a).map fun b => (b, g a)) = bs.zip (l.map g) := by
  induction l generalizing bs with
  | nil => simp
  | cons a l ih =>
    cases bs with
    | nil => cases h
    | cons b bs =>
      obtain ⟨first, rest⟩ := List.cons.inj h
      simp [first, ih rest]

theorem rising_mergeSort {α : Type} (l : List (Int × α)) :
    (l.mergeSort fun a b => a.1 ≤ b.1).Pairwise fun a b => a.1 ≤ b.1 := by
  have sorted : (l.mergeSort fun a b => a.1 ≤ b.1).Pairwise fun a b => decide (a.1 ≤ b.1) = true :=
    List.pairwise_mergeSort (fun a b c ab bc => by simp only [decide_eq_true_eq] at *; omega)
      (fun a b => by simp only [Bool.or_eq_true, decide_eq_true_eq]; omega) l
  exact sorted.imp fun le => by simpa using le

/-- A series is made of the samples of a table, every row of which has an instant, in the order of
time. -/
structure IsSeries (t : DataTable) (columns : MetricColumns) (points : List (Int × Option Float)) : Prop where
  timed : ∀ row ∈ t.rows, (t.timeOf columns.timestamp row).isSome
  perm : points.Perm (t.samples columns)
  rising : points.Pairwise fun a b => a.1 ≤ b.1

theorem series_ok {points : List (Int × Option Float)} (h : t.series columns = .ok points) :
    t.IsSeries columns points := by
  obtain ⟨times, timed, h⟩ := bind_ok_iff.mp h
  obtain ⟨values, valued, h⟩ := bind_ok_iff.mp h
  obtain rfl := pure_ok_iff.mp h
  have instants : t.rows.map (t.timeOf columns.timestamp) = times.map some :=
    map_rows_of_mapM timed fun i n => timeOf_of_longAt
  have doubles : t.rows.map (t.valueOf columns.metric) = values.map id :=
    map_rows_of_mapM valued fun i x => valueOf_of_doubleAt
  rw [List.map_id] at doubles
  refine ⟨fun row there => ?_, ?_, ?_⟩
  · have member : t.timeOf columns.timestamp row ∈ times.map some := instants ▸ List.mem_map_of_mem there
    obtain ⟨n, -, known⟩ := List.mem_map.mp member
    rw [← known]
    rfl
  · rw [samples, filterMap_eq_zip instants, doubles]
    exact List.mergeSort_perm _ _
  · exact rising_mergeSort _

end DetectionPlan.DataTable
