/-
Instants and their dates. Each instant with a date lies in the range of a signed 64-bit word, and
date and time of day together are the instant again (`Moment.toMillis_ofMillis`).
-/
import DetectionPlan.Calendar.Instant
import DetectionPlan.Proofs.Calendar.Month
import DetectionPlan.Proofs.Text.Number

namespace DetectionPlan

variable {millis : Int}

theorem dayMillis_eq : dayMillis = 86400000 := rfl

theorem hasDate_iff : hasDate millis = true ↔ firstInstant ≤ millis ∧ millis ≤ lastInstant := by
  simp [hasDate]

theorem fitsInt64_of_hasDate (h : hasDate millis) : fitsInt64 millis := by
  obtain ⟨low, high⟩ := hasDate_iff.mp h
  simp only [firstInstant, lastInstant] at low high
  rw [fitsInt64_iff, minInt64, maxInt64]
  omega

namespace Moment

@[simp] theorem toMillis_ofMillis (millis : Int) : (ofMillis millis).toMillis = millis := by
  simp only [toMillis, ofMillis, Date.toDays_ofDays, dayMillis_eq]
  omega

/-- The first instant of a month is midnight of its first day. -/
theorem ofMillis_monthStart (index : Int) :
    ofMillis (Date.monthStart index * dayMillis) = ⟨.firstOfMonth index, 0⟩ := by
  have day : dayMillis ≠ 0 := by decide
  rw [ofMillis, Int.mul_ediv_cancel _ day, Date.ofDays_monthStart, Int.mul_emod_left]
  rfl

end Moment

end DetectionPlan
