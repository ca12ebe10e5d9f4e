/-
The walk over the buckets of a completion, without anything that counts its steps (`Walk`): it adds a
period to an instant for as long as the last one is not passed. A period with a length leads on with
every step, so a walk of it ends, and in what the completion takes for its buckets (`walk_iff`). The
period without one stays where it is and goes on for ever; no completion that is accepted walks by it
(`walk_ends`).
-/
import DetectionPlan.Operator.Builtin
import DetectionPlan.Proofs.Period.Progress
import DetectionPlan.Proofs.Table.Buckets

namespace DetectionPlan

open Outcome (bind_ok_iff)

namespace Period

/-- The period without a length leads nowhere. -/
theorem addTo_zero {millis : Int} (dated : hasDate millis) : addTo .zero millis = .ok millis := by
  have from' : withDate millis = .ok (.ofMillis millis) := withDate_ok_iff.mpr ⟨dated, rfl⟩
  have months : calendarMonths .zero = .ok 0 := by rfl
  have same : shift? (.ofMillis millis) ((0 : Nat) : Int) (fixedPart .zero) = some millis := by
    have here : (Moment.mk (Moment.ofMillis millis).date (Moment.ofMillis millis).time).toMillis = millis :=
      Moment.toMillis_ofMillis millis
    have rest : fixedPart .zero = 0 := by decide
    simp [shift?, here, rest, dated]
  rw [addTo, from', months]
  simp only [bind, Except.bind, same]

end Period

namespace TimeIndex

variable {x : TimeIndex} {p : Period} {t last next : Int} {found : List Int} {e : Failure}
  {r r' : Outcome (List Int)}

/-- A walk from an instant, and what it ends in: the instants it came by, or the failure of a step. -/
inductive Walk (p : Period) (last : Int) : Int → Outcome (List Int) → Prop
  | past {t : Int} (outside : last < t) : Walk p last t (.ok [])
  | stopped {t : Int} {e : Failure} (inside : t ≤ last) (step : p.addTo t = .error e) :
      Walk p last t (.error e)
  | step {t next : Int} {r : Outcome (List Int)} (inside : t ≤ last) (step : p.addTo t = .ok next)
      (rest : Walk p last next r) : Walk p last t (r.map (t :: ·))

namespace Walk

/-- A walk ends in one way only. -/
theorem unique (w : Walk p last t r) (w' : Walk p last t r') : r = r' := by
  induction w generalizing r' with
  | past outside =>
    cases w' with
    | past => rfl
    | stopped inside | step inside => exact absurd inside (Int.not_le.mpr outside)
  | stopped inside step =>
    cases w' with
    | past outside => exact absurd inside (Int.not_le.mpr outside)
    | stopped _ step' => exact congrArg Except.error (Except.error.inj (step.symm.trans step'))
    | step _ step' => cases step.symm.trans step'
  | step inside step _ ih =>
    cases w' with
    | past outside => exact absurd inside (Int.not_le.mpr outside)
    | stopped _ step' => cases step.symm.trans step'
    | step _ step' rest' =>
      obtain rfl := Except.ok.inj (step.symm.trans step')
      rw [ih rest']

/-- A walk that leads on takes no more steps than there are instants up to the last. -/
theorem length_le (onwards : ∀ s next, p.addTo s = .ok next → s < next) (w : Walk p last t r)
    (ends : r = .ok found) : found.length ≤ (last + 1 - t).toNat := by
  induction w generalizing found with
  | past =>
    obtain rfl := Except.ok.inj ends
    exact Nat.zero_le _
  | stopped => cases ends
  | @step s next r inside step _ ih =>
    obtain ⟨later, walked, rfl⟩ := Outcome.map_ok_iff.mp ends
    have steps := ih walked
    have further := onwards s next step
    rw [List.length_cons]
    omega

/-- A walk that fails does so for the months of the period or for where a step leads. -/
theorem failure (onwards : ∀ s next, p.addTo s = .ok next → s < next) (w : Walk p last t r)
    (fails : r = .error e) :
    e = .invalidPeriod p.text .tooManyMonths ∨ ∃ s, t ≤ s ∧ s ≤ last ∧ e = .timeOutOfRange s := by
  induction w with
  | past => cases fails
  | @stopped s e inside step =>
    obtain rfl := Except.error.inj fails
    rcases Period.moveBy_error (p.addTo_eq s ▸ step) with rfl | rfl
    · exact .inr ⟨s, le_rfl, inside, rfl⟩
    · exact .inl rfl
  | @step s next r inside step _ ih =>
    cases r with
    | ok found => cases fails
    | error e' =>
      obtain rfl := Except.error.inj fails
      refine (ih rfl).imp_right fun ⟨u, from', upTo, same⟩ => ⟨u, ?_, upTo, same⟩
      exact (onwards s next step).le.trans from'

/-- Nothing ends a walk that stays where it is. -/
theorem not_zero (dated : hasDate t) (inside : t ≤ last) : ¬ Walk .zero last t r := by
  intro w
  induction w with
  | past outside => exact absurd inside (Int.not_le.mpr outside)
  | stopped _ step => cases step.symm.trans (Period.addTo_zero dated)
  | step _ step _ ih =>
    obtain rfl := Except.ok.inj (step.symm.trans (Period.addTo_zero dated))
    exact ih dated inside

end Walk

theorem bucketsFrom_past (outside : last < t) : bucketsFrom p t last = .ok [] := by
  rw [bucketsFrom, if_neg (Int.not_le.mpr outside)]

theorem bucketsFrom_stopped (inside : t ≤ last) (step : p.addTo t = .error e) :
    bucketsFrom p t last = .error e := by
  rw [bucketsFrom, if_pos inside, step]
  rfl

theorem bucketsFrom_step (inside : t ≤ last) (step : p.addTo t = .ok next) (later : t < next) :
    bucketsFrom p t last = (bucketsFrom p next last).map (t :: ·) := by
  rw [bucketsFrom, if_pos inside, step]
  simp only [bind, Except.bind, if_pos later]
  cases bucketsFrom p next last <;> rfl

/-- What a completion takes for its buckets ends a walk that leads on. -/
theorem walk_bucketsFrom (onwards : ∀ s next, p.addTo s = .ok next → s < next) (t last : Int) :
    Walk p last t (bucketsFrom p t last) := by
  -- on the instants left up to the last one
  induction left : (last + 1 - t).toNat using Nat.strong_induction_on generalizing t with
  | _ n ih =>
    rcases lt_or_ge last t with outside | inside
    · rw [bucketsFrom_past outside]
      exact .past outside
    · cases step : p.addTo t with
      | error e =>
        rw [bucketsFrom_stopped inside step]
        exact .stopped inside step
      | ok next =>
        have later := onwards t next step
        rw [bucketsFrom_step inside step later]
        exact .step inside step (ih _ (by omega) next rfl)

theorem walk_iff (onwards : ∀ s next, p.addTo s = .ok next → s < next) :
    Walk p last t r ↔ bucketsFrom p t last = r := by
  have w := walk_bucketsFrom onwards t last
  exact ⟨w.unique, fun same => same ▸ w⟩

/-- A completion that is of use with any table walks by no period without a length. -/
theorem granularityFor_nonzero {table : DataTable} (accepted : x.defect? = none)
    (h : x.granularityFor table = some p) : p.isZero = false := by
  unfold granularityFor at h
  split at h
  next asked =>
    obtain rfl := Option.some.inj h
    unfold defect? at accepted
    split at accepted
    · cases accepted
    · split at accepted
      · cases accepted
      next nonzero => simpa [asked] using nonzero
  next => simpa using (Option.filter_eq_some_iff.mp h).2

theorem defect?_of_prepare {task : Task} {job : Job} (h : Operator.timeIndexFiller.prepare task = .ok job)
    (read : task.node.readParams shape.decode = .ok x) : x.defect? = none := by
  obtain ⟨x', read', h⟩ := bind_ok_iff.mp h
  obtain rfl := Except.ok.inj (read.symm.trans read')
  cases defect : x.defect? with
  | none => rfl
  | some reason =>
    rw [defect] at h
    cases h

/-- **Walks end.** A walk from whatever instant to whatever last one ends if the period has a length,
and only then. Each of its steps leads to a later instant, it ends in the buckets of the completion
after no more steps than there are instants up to the last one, and if it fails then for the months of
the period or for a step out of the calendar. Both the period that a completion asks for and the one in
the properties of a table have a length by the time the buckets are walked. -/
theorem walk_ends (p : Period) :
    (p.isZero = false ↔ ∀ first last, ∃ r, Walk p last first r) ∧
    (p.isZero = false → (∀ s next, p.addTo s = .ok next → s < next) ∧
      ∀ first last r, Walk p last first r → r = bucketsFrom p first last ∧
        (∀ found, r = .ok found → found.length ≤ (last + 1 - first).toNat) ∧
        ∀ e, r = .error e → e = .invalidPeriod p.text .tooManyMonths ∨
          ∃ s, first ≤ s ∧ s ≤ last ∧ e = .timeOutOfRange s) ∧
    ∀ task job x table, Operator.timeIndexFiller.prepare task = .ok job →
      task.node.readParams shape.decode = .ok x → x.granularityFor table = some p →
      p.isZero = false := by
  have onwards (nonzero : p.isZero = false) (s next) (step : p.addTo s = .ok next) : s < next :=
    (Period.lt_addTo_iff step).1.mpr nonzero
  refine ⟨⟨fun nonzero first last => ⟨_, walk_bucketsFrom (onwards nonzero) first last⟩, fun ends => ?_⟩,
    fun nonzero => ⟨onwards nonzero, fun first last r w => ⟨?_, fun _ => w.length_le (onwards nonzero),
      fun _ => w.failure (onwards nonzero)⟩⟩, fun task job x table prepared read asked => ?_⟩
  · by_contra zero
    obtain rfl : p = .zero := by simpa [Period.isZero] using zero
    obtain ⟨r, w⟩ := ends 0 0
    exact w.not_zero (by decide) le_rfl
  · exact ((walk_iff (onwards nonzero)).mp w).symm
  · exact granularityFor_nonzero (defect?_of_prepare prepared read) asked

/-- A month and a day. -/
def monthAndDay : Period := { months := 1, days := 1 }

/-- A table that was made with steps of a month and a day. -/
def steppedCounts : DataTable where
  columns := ["timestamp"]
  types := [.long]
  properties := ⟨[("granularity", "P1M1D")]⟩

/-- A task that leaves the period to the table. -/
def leftToTable : Task where
  node := { name := "fill", type := "TimeIndexFiller" }
  interval := ⟨2592000000, 5097600001, by decide⟩

/-- From the last day of January a month and a day lead to the first of March. -/
theorem walk_ends_monthAndDay :
    ((∃ job, Operator.timeIndexFiller.prepare leftToTable = .ok job) ∧
      leftToTable.node.readParams shape.decode = .ok {} ∧
      ({} : TimeIndex).granularityFor steppedCounts = some monthAndDay) ∧
    monthAndDay.addTo 2592000000 = .ok 5097600000 ∧ (2592000000 : Int) < 5097600000 ∧
    ∃ r, Walk monthAndDay 5097600000 2592000000 r := by
  have read : leftToTable.node.readParams shape.decode = .ok {} := by rfl
  have prepared : ∃ job, Operator.timeIndexFiller.prepare leftToTable = .ok job := ⟨_, by rfl⟩
  have asked : ({} : TimeIndex).granularityFor steppedCounts = some monthAndDay := by decide +kernel
  have step : monthAndDay.addTo 2592000000 = .ok 5097600000 :=
    Outcome.ok_of_toOption (by decide +kernel)
  obtain ⟨job, taken⟩ := prepared
  obtain ⟨ends, leads, nonzero⟩ := walk_ends monthAndDay
  have length := nonzero _ _ _ _ taken read asked
  exact ⟨⟨⟨job, taken⟩, read, asked⟩, step, (leads length).1 _ _ step, ends.mp length _ _⟩

end TimeIndex

end DetectionPlan
