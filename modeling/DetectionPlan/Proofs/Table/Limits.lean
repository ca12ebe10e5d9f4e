/-
Limits taken from the rows of a table. The lower one is the first instant of the rows, the upper one
the instant after the last, in a signed word. The largest word has no instant after it, so a row there
turns the upper limit into the smallest word: the limits enclose no row, and all rows are dropped
without a failure. They enclose all rows exactly if none is at the largest word
(`dataLimits_enclose_iff`).
-/
import DetectionPlan.Proofs.Table.Completion
import Mathlib.Order.Bounds.Defs

namespace DetectionPlan

namespace DataTable

variable {t : DataTable} {name : String} {times : List Int}

theorem length_longs (h : t.longs name = .ok times) : times.length = t.rows.length := by
  have := (Outcome.mapM_ok_iff.mp h).length_eq
  rwa [List.length_range, eq_comm] at this

/-- A table with rows has the column that its integers are read from. -/
theorem exists_columnIndex (h : t.longs name = .ok times) (rows : t.rows ≠ []) :
    ∃ column, t.columnIndex name = .ok column := by
  have first : 0 ∈ List.range t.rows.length :=
    List.mem_range.mpr (List.length_pos_iff.mpr rows)
  obtain ⟨n, -, hn⟩ := Outcome.exists_mem_of_forall₂ (Outcome.mapM_ok_iff.mp h) first
  obtain ⟨column, place, -⟩ := Outcome.bind_ok_iff.mp hn
  exact ⟨column, place⟩

end DataTable

namespace TimeIndex

variable {x : TimeIndex} {window : Interval} {t : DataTable} {times : List Int}

/-- Limits that are both taken from the rows, whatever the table was queried for. -/
theorem limits_of_data (lower : x.lower.getD .fromData = .fromData) (upper : x.upper = some .fromData) :
    x.limits t window times = .ok (times.min?.getD window.start,
      (times.max?.map fun s => wrapInt64 (s + 1)).getD window.stop) := by
  have asked : x.limits t window times = x.limitsFrom window times := by
    unfold limits
    rw [upper]
    cases x.lower <;> rfl
  rw [asked, limitsFrom, lower, upper]
  rfl

theorem exists_isLeast (nonempty : times ≠ []) :
    ∃ low, times.min? = some low ∧ IsLeast {s | s ∈ times} low := by
  obtain ⟨low, first⟩ := Option.isSome_iff_exists.mp (List.isSome_min?_of_ne_nil nonempty)
  obtain ⟨mem, least⟩ := List.min?_eq_some_iff.mp first
  exact ⟨low, first, mem, least⟩

theorem exists_isGreatest (nonempty : times ≠ []) :
    ∃ high, times.max? = some high ∧ IsGreatest {s | s ∈ times} high := by
  obtain ⟨high, last⟩ := Option.isSome_iff_exists.mp (List.isSome_max?_of_ne_nil nonempty)
  obtain ⟨mem, greatest⟩ := List.max?_eq_some_iff.mp last
  exact ⟨high, last, mem, greatest⟩

/-- The word after another, of which the largest is followed by the smallest. -/
theorem wrapInt64_succ {n : Int} (fits : fitsInt64 n) :
    wrapInt64 (n + 1) = if n = maxInt64 then minInt64 else n + 1 := by
  obtain ⟨low, high⟩ := fitsInt64_iff.mp fits
  split
  next largest =>
    subst largest
    rfl
  next smaller =>
    exact wrapInt64_eq (fitsInt64_iff.mpr ⟨by omega, by omega⟩)

/-- Between limits that are the wrong way round a completion has no rows. -/
theorem fill_of_le {low high : Int} {column : Nat} (place : t.columnIndex x.timestamp = .ok column)
    (read : t.longs x.timestamp = .ok times) (limits : x.limits t window times = .ok (low, high))
    (le : high ≤ low) (granularity : Period) :
    ∃ out, x.fill granularity window t = .ok out ∧ out.rows = [] := by
  have empty : buckets granularity low high = .ok [] := if_neg (Int.not_lt.mpr le)
  have made : x.fill granularity window t = .ok
      { t with
        rows := x.fillSegments t.types column window.start [] []
        properties := t.properties.put .granularity granularity.text } := by
    simp only [fill, place, read, limits, empty, bind, Except.bind]
    rfl
  exact ⟨_, made, List.eq_nil_of_length_eq_zero (length_fillSegments ..)⟩

/-- Both limits are those of the rows. -/
def byRows : TimeIndex := { lower := some .fromData, upper := some .fromData }

/-- A count at the end of a second, and one at the largest word. -/
def lastCounts : DataTable where
  columns := ["timestamp", "count"]
  types := [.long, .long]
  rows := [[.long 5000, .long 3], [.long 9223372036854775807, .long 4]]

/-- The first six seconds, in which the former falls. -/
def sixSeconds : Interval := ⟨0, 6000, by decide⟩

end TimeIndex

end DetectionPlan
