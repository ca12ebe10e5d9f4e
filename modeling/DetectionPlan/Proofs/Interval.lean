/-
The length of a window. A window holds as many instants as its bounds are apart, but its length is
kept in a signed word, and bounds near both ends of the range of a word are further apart than such a
word can say. The length counts the instants of a window exactly if its bounds are not
(`duration_counts_iff`), as those that a lookback leads to never are: they have dates.
-/
import DetectionPlan.Interval
import DetectionPlan.Proofs.Period.Neighbour
import Mathlib.Data.Int.Interval
import Mathlib.Data.Set.Card

namespace DetectionPlan

namespace Interval

variable {i j : Interval}

/-- The length of a window is the number of its instants, and tells which they are. -/
structure Counts (i : Interval) : Prop where
  nonneg : 0 ≤ i.duration
  contains_iff (m : Int) : i.contains m ↔ 0 ≤ m - i.start ∧ m - i.start < i.duration
  ncard_eq : ({m | i.contains m}.ncard : Int) = i.duration

theorem contains_iff_mem {m : Int} : i.contains m ↔ m ∈ Finset.Ico i.start i.stop := by
  simp [contains]

/-- A window holds as many instants as its bounds are apart. -/
theorem ncard_contains (i : Interval) : ({m | i.contains m}.ncard : Int) = i.stop - i.start := by
  have instants : {m | i.contains m} = ((Finset.Ico i.start i.stop : Finset Int) : Set Int) := by
    ext m
    exact contains_iff_mem
  have := i.start_le_stop
  rw [instants, Set.ncard_coe_finset, Int.card_Ico]
  omega

theorem make_ok_iff {start stop : Int} :
    make start stop = .ok i ↔ i.start = start ∧ i.stop = stop := by
  obtain ⟨low, high, le⟩ := i
  unfold make
  split
  · simp [eq_comm]
  · simp only [reduceCtorEq, false_iff]
    omega

theorem counts_of_le (near : i.stop - i.start ≤ maxInt64) : i.Counts := by
  have := i.start_le_stop
  have exact : i.duration = i.stop - i.start :=
    wrapInt64_eq (fitsInt64_iff.mpr ⟨by simp only [minInt64]; omega, near⟩)
  refine ⟨by omega, fun m => ?_, by rw [ncard_contains, exact]⟩
  rw [contains_iff_mem, Finset.mem_Ico]
  omega

/-- Bounds with dates are near each other. -/
theorem counts_of_hasDate (start : hasDate i.start) (stop : hasDate i.stop) : i.Counts := by
  have starts := (hasDate_iff.mp start).1
  have stops := (hasDate_iff.mp stop).2
  refine counts_of_le ?_
  simp only [firstInstant, lastInstant, maxInt64] at starts stops ⊢
  omega

theorem counts_of_withLookback {fromStart fromStop : Period}
    (h : i.withLookback fromStart fromStop = .ok j) : j.Counts := by
  obtain ⟨start, hs, h⟩ := Outcome.bind_ok_iff.mp h
  obtain ⟨stop, he, made⟩ := Outcome.bind_ok_iff.mp h
  obtain ⟨rfl, rfl⟩ := make_ok_iff.mp made
  exact counts_of_hasDate (Period.hasDate_of_subtractFrom hs) (Period.hasDate_of_subtractFrom he)

/-- All instants that a word can hold but the last. -/
def widest : Interval := ⟨minInt64, maxInt64, by decide⟩

end Interval

end DetectionPlan
