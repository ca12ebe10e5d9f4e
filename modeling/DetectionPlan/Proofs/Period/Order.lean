/-
Shifts and the order of instants. Moving along the calendar keeps the time of day and takes the
last day of a month that is too short, so two days at the end of a month can become one. Of two
instants on such days the one that was later may come out earlier, and there is no other way in
which a shift turns instants around (`moveBy_le_iff`).
-/
import DetectionPlan.Interval
import DetectionPlan.Proofs.Period.Neighbour

namespace DetectionPlan.Period

open Outcome (bind_error_iff bind_ok_iff)

variable {p : Period} {a b a' b' : Int}

/-- Two moments on days that become one after a move by months, of which the one on the earlier day
has the later time. -/
structure Cross (months : Int) (m n : Moment) : Prop where
  days : Date.Meet months m.date n.date
  times : n.time < m.time

/-- The moment of an instant: a date of the calendar and a time within the day. -/
theorem ofMillis_spec (millis : Int) : (Moment.ofMillis millis).date.Valid ∧
    (Moment.ofMillis millis).time < dayMillis ∧
    millis = (Moment.ofMillis millis).date.toDays * dayMillis + (Moment.ofMillis millis).time := by
  refine ⟨(Date.ofDays_spec _).1, ?_, (Moment.toMillis_ofMillis millis).symm⟩
  show ((millis % dayMillis).toNat : Int) < dayMillis
  rw [dayMillis_eq]
  omega

theorem not_cross_of_date_eq {months : Int} {m n : Moment} (same : m.date = n.date) : ¬ Cross months m n := by
  intro cross
  have before := cross.days.before
  rw [same] at before
  exact Nat.lt_irrefl _ before

/-- A step keeps two instants in order exactly if they do not cross, and those that cross come out
less than a day apart. -/
theorem moveBy_le_iff {count : Int} (le : a ≤ b) (ha : p.moveBy count a = .ok a')
    (hb : p.moveBy count b = .ok b') :
    (a' ≤ b' ↔ ¬ Cross (count * p.monthCount) (.ofMillis a) (.ofMillis b)) ∧ a' < b' + dayMillis := by
  obtain ⟨rfl, -⟩ := moveBy_ok ha
  obtain ⟨rfl, -⟩ := moveBy_ok hb
  obtain ⟨validA, timeA, placeA⟩ := ofMillis_spec a
  obtain ⟨validB, timeB, placeB⟩ := ofMillis_spec b
  generalize Moment.ofMillis a = m at validA timeA placeA ⊢
  generalize Moment.ofMillis b = n at validB timeB placeB ⊢
  simp only [Moment.toMillis, dayMillis_eq] at timeA placeA timeB placeB ⊢
  by_cases days : m.date.toDays < n.date.toDays
  · rcases Date.toDays_addMonths_cases validA validB days (count * p.monthCount) with
      ⟨lt, apart⟩ | ⟨eq, meet⟩
    · refine ⟨⟨fun _ cross => apart cross.days, fun _ => ?_⟩, ?_⟩ <;> omega
    · -- On one day the times decide.
      refine ⟨⟨fun kept cross => ?_, fun straight => ?_⟩, ?_⟩
      · have times := cross.times
        omega
      · by_contra turned
        exact straight ⟨meet, by omega⟩
      · omega
  · have same : m.date = n.date := validA.eq_of_toDays_eq validB (by omega)
    rw [same] at placeA ⊢
    refine ⟨⟨fun _ => not_cross_of_date_eq same, fun _ => ?_⟩, ?_⟩ <;> omega

/-! ## Intervals moved back -/

theorem make_error_iff {start stop : Int} {e : Failure} :
    Interval.make start stop = .error e ↔ stop < start ∧ e = .invalidInterval start stop := by
  unfold Interval.make
  by_cases h : start ≤ stop
  · simp only [dif_pos h, reduceCtorEq, false_iff]
    omega
  · simp only [dif_neg h, Except.error.injEq, Int.not_le.mp h, true_and, eq_comm]

/-- What keeps an instant from being moved is no fault of an interval. -/
theorem subtractFrom_error {millis : Int} {e : Failure} (h : p.subtractFrom millis = .error e) :
    e = .timeOutOfRange millis ∨ e = .invalidPeriod p.text .tooManyMonths :=
  moveBy_error (p.subtractFrom_eq _ ▸ h)

/-- Moving an interval back by one period leaves no interval if the bounds are turned around. -/
theorem withLookback_invalid_iff {i : Interval} {start stop : Int} :
    i.withLookback p p = .error (.invalidInterval start stop) ↔
      p.subtractFrom i.start = .ok start ∧ p.subtractFrom i.stop = .ok stop ∧ stop < start := by
  constructor
  · intro h
    rcases bind_error_iff.mp h with failed | ⟨from', hs, h⟩
    · rcases subtractFrom_error failed with e | e <;> cases e
    · rcases bind_error_iff.mp h with failed | ⟨upTo, he, h⟩
      · rcases subtractFrom_error failed with e | e <;> cases e
      · obtain ⟨turned, e⟩ := make_error_iff.mp h
        cases e
        exact ⟨hs, he, turned⟩
  · intro ⟨hs, he, turned⟩
    exact bind_error_iff.mpr (.inr ⟨start, hs,
      bind_error_iff.mpr (.inr ⟨stop, he, make_error_iff.mpr ⟨turned, rfl⟩⟩)⟩)

/-- **Shifts and order.** Of two instants in order, both moved on or back by one period, the first
stays the first unless the two cross: unless they lie on two different days of one month that the
months of the period lead to one day, the last of a shorter month, and the first has the later time
of day. Those that cross come out less than a day apart. An interval moved back by one period at both
ends is refused as turned around exactly if its bounds cross. -/
theorem shift_le_iff (p : Period) {a b : Int} (le : a ≤ b) :
    (∀ a' b', p.addTo a = .ok a' → p.addTo b = .ok b' →
      (a' ≤ b' ↔ ¬ Cross p.monthCount (.ofMillis a) (.ofMillis b)) ∧ a' < b' + dayMillis) ∧
    (∀ a' b', p.subtractFrom a = .ok a' → p.subtractFrom b = .ok b' →
      (a' ≤ b' ↔ ¬ Cross (-p.monthCount) (.ofMillis a) (.ofMillis b)) ∧ a' < b' + dayMillis) ∧
    ∀ i, Interval.make a b = .ok i → ∀ start stop,
      (i.withLookback p p = .error (.invalidInterval start stop) ↔
        p.subtractFrom a = .ok start ∧ p.subtractFrom b = .ok stop ∧
          Cross (-p.monthCount) (.ofMillis a) (.ofMillis b)) := by
  have back (a' b') (ha : p.subtractFrom a = .ok a') (hb : p.subtractFrom b = .ok b') :
      (a' ≤ b' ↔ ¬ Cross (-p.monthCount) (.ofMillis a) (.ofMillis b)) ∧ a' < b' + dayMillis := by
    have := moveBy_le_iff le (p.subtractFrom_eq _ ▸ ha) (p.subtractFrom_eq _ ▸ hb)
    rwa [Int.neg_one_mul] at this
  refine ⟨fun a' b' ha hb => ?_, back, fun i made start stop => ?_⟩
  · have := moveBy_le_iff le (p.addTo_eq _ ▸ ha) (p.addTo_eq _ ▸ hb)
    rwa [Int.one_mul] at this
  · have bounds : i = ⟨a, b, le⟩ := by
      rw [Interval.make, dif_pos le] at made
      exact (Except.ok.inj made).symm
    rw [bounds, withLookback_invalid_iff]
    constructor
    · intro ⟨hs, he, turned⟩
      refine ⟨hs, he, ?_⟩
      by_contra straight
      have := (back _ _ hs he).1.mpr straight
      omega
    · intro ⟨hs, he, cross⟩
      refine ⟨hs, he, ?_⟩
      by_contra kept
      exact (back _ _ hs he).1.mp (by omega) cross

/-- One month before 2024-03-30T23:00 and one before 2024-03-31T01:00 are both on February 29. -/
theorem shift_le_iff_leapDay :
    ((1711839600000 : Int) ≤ 1711846800000 ∧
      Period.subtractFrom { months := 1 } 1711839600000 = .ok 1709247600000 ∧
      Period.subtractFrom { months := 1 } 1711846800000 = .ok 1709168400000) ∧
    Cross (-1) (.ofMillis 1711839600000) (.ofMillis 1711846800000) ∧
    (1709247600000 : Int) < 1709168400000 + dayMillis ∧
    Interval.withLookback ⟨1711839600000, 1711846800000, by decide⟩ { months := 1 } { months := 1 } =
      .error (.invalidInterval 1709247600000 1709168400000) := by
  have le : (1711839600000 : Int) ≤ 1711846800000 := by decide
  have start : Period.subtractFrom { months := 1 } 1711839600000 = .ok 1709247600000 :=
    Outcome.ok_of_toOption (by decide +kernel)
  have stop : Period.subtractFrom { months := 1 } 1711846800000 = .ok 1709168400000 :=
    Outcome.ok_of_toOption (by decide +kernel)
  obtain ⟨-, back, refused⟩ := shift_le_iff { months := 1 } le
  have cross : Cross (-1) (.ofMillis 1711839600000) (.ofMillis 1711846800000) := by
    by_contra straight
    exact absurd ((back _ _ start stop).1.mpr straight) (by decide)
  exact ⟨⟨le, start, stop⟩, cross, (back _ _ start stop).2,
    (refused ⟨1711839600000, 1711846800000, le⟩ rfl _ _).mpr ⟨start, stop, cross⟩⟩

/-- Shifts do not always keep the order. One month before 2021-03-30T23:00 it is 23:00 on February
28, and one month before 2021-03-31T01:00 it is 01:00 on the same day, so the interval between the
two cannot be moved back by one month; nor does adding one month keep the order of 2021-01-30T23:00
and 2021-01-31T01:00. -/
theorem shift_turns_around :
    ((1617145200000 : Int) ≤ 1617152400000 ∧
      Period.subtractFrom { months := 1 } 1617145200000 = .ok 1614553200000 ∧
      Period.subtractFrom { months := 1 } 1617152400000 = .ok 1614474000000 ∧
      ¬ (1614553200000 : Int) ≤ 1614474000000) ∧
    ((1612047600000 : Int) ≤ 1612054800000 ∧
      Period.addTo { months := 1 } 1612047600000 = .ok 1614553200000 ∧
      Period.addTo { months := 1 } 1612054800000 = .ok 1614474000000) ∧
    ∃ i, Interval.make 1617145200000 1617152400000 = .ok i ∧
      i.withLookback { months := 1 } { months := 1 } =
        .error (.invalidInterval 1614553200000 1614474000000) := by
  have start : Period.subtractFrom { months := 1 } 1617145200000 = .ok 1614553200000 :=
    Outcome.ok_of_toOption (by decide +kernel)
  have stop : Period.subtractFrom { months := 1 } 1617152400000 = .ok 1614474000000 :=
    Outcome.ok_of_toOption (by decide +kernel)
  exact ⟨⟨by decide, start, stop, by decide⟩,
    ⟨by decide, Outcome.ok_of_toOption (by decide +kernel), Outcome.ok_of_toOption (by decide +kernel)⟩,
    ⟨1617145200000, 1617152400000, by decide⟩, rfl,
    withLookback_invalid_iff.mpr ⟨start, stop, by decide⟩⟩

end DetectionPlan.Period
