/-
Steps of a period go on: whatever months they lead through and whatever is left of the day of the
month, a period leads from an instant to a later one unless it has no length at all
(`lt_addTo_iff`).
-/
import DetectionPlan.Proofs.Period.Neighbour

namespace DetectionPlan.Period

variable {p : Period} {millis shifted : Int}

theorem monthCount_pos (calendar : p.isCalendar) : 0 < p.monthCount := by
  have zero (n : UInt32) (h : n.toNat = 0) : n = 0 := UInt32.toNat_inj.mp h
  by_contra none
  unfold monthCount at none
  rw [isCalendar_eq_false_iff.mpr ⟨zero _ (by omega), zero _ (by omega)⟩] at calendar
  cases calendar

theorem fixedPart_pos_iff (fixed : p.isCalendar = false) : 0 < p.fixedPart ↔ p.isZero = false := by
  refine ⟨fun positive => ?_, fun nonzero => fixedPart_pos nonzero fixed⟩
  by_contra zero
  obtain rfl : p = .zero := by simpa [isZero] using zero
  exact absurd positive (by decide)

/-- Without months a step adds the length of the period. -/
theorem addTo_fixed (fixed : p.isCalendar = false) (h : p.addTo millis = .ok shifted) :
    shifted = millis + p.fixedPart := by
  obtain ⟨place, -⟩ := moveBy_ok (p.addTo_eq _ ▸ h)
  have valid : (Moment.ofMillis millis).date.Valid := (Date.ofDays_spec _).1
  have same : (Moment.mk (Moment.ofMillis millis).date (Moment.ofMillis millis).time).toMillis = millis :=
    Moment.toMillis_ofMillis millis
  rw [monthCount_of_fixed fixed, Int.natCast_zero, Int.mul_zero, Date.addMonths_zero valid, same] at place
  omega

/-- Months lead to a later day. -/
theorem lt_addTo_calendar (calendar : p.isCalendar) (h : p.addTo millis = .ok shifted) :
    millis < shifted := by
  obtain ⟨place, -⟩ := moveBy_ok (p.addTo_eq _ ▸ h)
  have valid : (Moment.ofMillis millis).date.Valid := (Date.ofDays_spec _).1
  have months : (0 : Int) < 1 * p.monthCount := by
    have := monthCount_pos calendar
    omega
  have later := valid.toDays_lt_addMonths months
  have start := Moment.toMillis_ofMillis millis
  have rest := p.fixedPart_bounds.1
  simp only [Moment.toMillis, dayMillis_eq] at place start
  omega

/-- A step leads on exactly if the period has a length, and never back. -/
theorem lt_addTo_iff (h : p.addTo millis = .ok shifted) :
    (millis < shifted ↔ p.isZero = false) ∧ millis ≤ shifted := by
  cases calendar : p.isCalendar with
  | true =>
    have later := lt_addTo_calendar calendar h
    exact ⟨iff_of_true later (isZero_of_isCalendar calendar), later.le⟩
  | false =>
    have place := addTo_fixed calendar h
    have rest := p.fixedPart_bounds.1
    rw [← fixedPart_pos_iff calendar]
    omega

end DetectionPlan.Period
