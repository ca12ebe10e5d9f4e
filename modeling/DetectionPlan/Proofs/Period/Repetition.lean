/-
Periods with several components of one unit. A component is entered in the place of what was there
before (`addDate_cases`, `addTime_cases`), so that of the components of a unit the last one counts,
and their sum only if those before it are zero (`parse_keeps_last`).
-/
import DetectionPlan.Proofs.Period.Reading
import Mathlib.Algebra.GroupWithZero.Nat

namespace DetectionPlan.Period

open Outcome (bind_ok_iff map_ok_iff)

/-! ## What components say -/

/-- The components that a text is written with: those of the date and those of the time. -/
inductive IsWrittenWith : List Char → List Component → List Component → Prop
  | date {letter : Char} {dates : List Component} (begins : letter = 'P' ∨ letter = 'p')
      (kinds : ∀ c ∈ dates, IsDate c.1 c.2) (filled : dates ≠ []) :
      IsWrittenWith (letter :: spelled dates) dates []
  | time {letter mark : Char} {dates times : List Component} (begins : letter = 'P' ∨ letter = 'p')
      (kinds : ∀ c ∈ dates, IsDate c.1 c.2) (marks : mark = 'T' ∨ mark = 't')
      (kinds' : ∀ c ∈ times, IsTime c.1 c.2) (filled : times ≠ []) :
      IsWrittenWith (letter :: (spelled dates ++ mark :: spelled times)) dates times

/-- The number that digits stand for. -/
def wholeValue (number : List Char) : Nat := Nat.ofDigitChars 10 number 0

/-- The milliseconds that a number of seconds stands for, with its decimals. -/
def secondsValue (number : List Char) : Nat :=
  let fraction := (number.dropWhile (!isPoint ·)).drop 1
  wholeValue (number.takeWhile (!isPoint ·)) * 1000 + wholeValue fraction * 10 ^ (3 - fraction.length)

/-- A unit that components are written in: its letter, what a number of it stands for, and where a
period has it. -/
structure UnitField where
  letter : Char
  worth : List Char → Nat
  field : Period → Nat

/-- The units of a date. -/
def dateUnits : List UnitField := [
  ⟨'Y', wholeValue, (·.years.toNat)⟩, ⟨'M', wholeValue, (·.months.toNat)⟩,
  ⟨'W', wholeValue, (·.weeks.toNat)⟩, ⟨'D', wholeValue, (·.days.toNat)⟩]

/-- The units of a time, in which seconds and their thousandths are one. -/
def timeUnits : List UnitField := [
  ⟨'H', wholeValue, (·.hours.toNat)⟩, ⟨'M', wholeValue, (·.minutes.toNat)⟩,
  ⟨'S', secondsValue, fun p => p.seconds.toNat * 1000 + p.millis.toNat⟩]

/-- The numbers that the components of a unit stand for, in their order. -/
def UnitField.values (u : UnitField) (cs : List Component) : List Nat :=
  cs.filterMap fun c => if c.2.toUpper = u.letter then some (u.worth c.1) else none

/-- A number that is the last of some, and zero when there are none. It is their sum only if those
before it add nothing. -/
structure IsLast (n : Nat) (values : List Nat) : Prop where
  last : n = values.getLastD 0
  total : n = values.sum ↔ ∀ v ∈ values.dropLast, v = 0

/-- Each unit of a period is what the last of its components says. -/
structure KeepsLast (p : Period) (dates times : List Component) : Prop where
  date : ∀ u ∈ dateUnits, IsLast (u.field p) (u.values dates)
  time : ∀ u ∈ timeUnits, IsLast (u.field p) (u.values times)

theorem isLast_of_getLastD {n : Nat} {values : List Nat} (h : n = values.getLastD 0) : IsLast n values := by
  refine ⟨h, ?_⟩
  rcases List.eq_nil_or_concat values with rfl | ⟨before, last, rfl⟩
  · simp [h]
  · obtain rfl : n = last := by simpa using h
    have zero : n = before.sum + n ↔ before.sum = 0 := by omega
    rw [List.concat_eq_append, List.sum_append, List.sum_singleton, zero, List.dropLast_concat, List.sum_eq_zero_iff_forall_eq_nat]

/-! ## Entering one component -/

variable {p q : Period} {c : Component} {cs dates times : List Component}

theorem addDate_cases (h : addDate p c = .ok q) : ∃ n : UInt32, n.toNat = wholeValue c.1 ∧
    (c.2.toUpper = 'Y' ∧ q = { p with years := n } ∨ c.2.toUpper = 'M' ∧ q = { p with months := n } ∨
      c.2.toUpper = 'W' ∧ q = { p with weeks := n } ∨ c.2.toUpper = 'D' ∧ q = { p with days := n }) := by
  obtain ⟨n, read, h⟩ := bind_ok_iff.mp h
  refine ⟨n, (readWhole_ok_iff.mp read).2, ?_⟩
  split at h
  next unit => exact .inl ⟨unit, (Except.ok.inj h).symm⟩
  next unit => exact .inr (.inl ⟨unit, (Except.ok.inj h).symm⟩)
  next unit => exact .inr (.inr (.inl ⟨unit, (Except.ok.inj h).symm⟩))
  next unit => exact .inr (.inr (.inr ⟨unit, (Except.ok.inj h).symm⟩))
  next => cases h

/-- Seconds are read as what they stand for in milliseconds. -/
theorem readSeconds_value {number : List Char} {seconds millis : UInt32}
    (h : readSeconds number = .ok (seconds, millis)) :
    seconds.toNat * 1000 + millis.toNat = secondsValue number := by
  unfold secondsValue
  rcases exists_first isPoint number with whole | ⟨front, point, fraction, rfl, others, mark⟩
  · rw [readSeconds_whole whole] at h
    obtain ⟨n, read, same⟩ := map_ok_iff.mp h
    obtain ⟨rfl, rfl⟩ := Prod.mk.inj same
    obtain ⟨before, after⟩ := cut_nowhere whole
    rw [before, after, (readWhole_ok_iff.mp read).2]
    rfl
  · obtain ⟨few, start, read⟩ := (readSeconds_decimals_ok_iff others mark).mp h
    obtain ⟨decimals, value⟩ := readWhole_ok_iff.mp read
    have same : fraction.map dotted = fraction := by
      refine map_dotted fun d hd => isPoint_of_isDigit (isDigit_of_dotted ?_)
      exact decimals.digits _ (List.mem_append_left _ (List.mem_map_of_mem hd))
    have whole : seconds.toNat = wholeValue front := by
      rcases start with ⟨rfl, rfl⟩ | ⟨-, read⟩
      · rfl
      · exact (readWhole_ok_iff.mp read).2
    obtain ⟨before, after⟩ := cut_at_first others mark fraction
    rw [same, Nat.ofDigitChars_append, Nat.ofDigitChars_replicate_zero] at value
    rw [before, after, whole, value, List.drop_one, List.tail_cons, Nat.mul_comm (10 ^ _)]
    rfl

theorem addTime_cases (h : addTime p c = .ok q) :
    (∃ n : UInt32, n.toNat = wholeValue c.1 ∧
      (c.2.toUpper = 'H' ∧ q = { p with hours := n } ∨ c.2.toUpper = 'M' ∧ q = { p with minutes := n })) ∨
    ∃ seconds millis : UInt32, seconds.toNat * 1000 + millis.toNat = secondsValue c.1 ∧
      c.2.toUpper = 'S' ∧ q = { p with seconds, millis } := by
  unfold addTime at h
  split at h
  next unit =>
    obtain ⟨n, read, h⟩ := bind_ok_iff.mp h
    exact .inl ⟨n, (readWhole_ok_iff.mp read).2, .inl ⟨unit, (Except.ok.inj h).symm⟩⟩
  next unit =>
    obtain ⟨n, read, h⟩ := bind_ok_iff.mp h
    exact .inl ⟨n, (readWhole_ok_iff.mp read).2, .inr ⟨unit, (Except.ok.inj h).symm⟩⟩
  next unit =>
    obtain ⟨⟨seconds, millis⟩, read, h⟩ := bind_ok_iff.mp h
    exact .inr ⟨seconds, millis, readSeconds_value read, unit, (Except.ok.inj h).symm⟩
  next => cases h

/-! ## Entering components in a row -/

/-- A way to enter components by which those of a unit, and no others, go into its field. -/
def Enters (add : Period → Component → Except PeriodDefect Period) (u : UnitField) : Prop :=
  ∀ {p c q}, add p c = .ok q → u.field q = if c.2.toUpper = u.letter then u.worth c.1 else u.field p

/-- After a row of components the field of a unit has what the last one of the unit says. -/
theorem Enters.row {add : Period → Component → Except PeriodDefect Period} {u : UnitField}
    (enters : Enters add u) (h : cs.foldlM add p = .ok q) :
    u.field q = (u.values cs).getLastD (u.field p) := by
  induction cs generalizing p with
  | nil => exact congrArg u.field (Outcome.pure_ok_iff.mp h).symm
  | cons c cs ih =>
    rw [List.foldlM_cons] at h
    obtain ⟨mid, first, rest⟩ := bind_ok_iff.mp h
    rw [ih rest, enters first, UnitField.values, UnitField.values, List.filterMap_cons]
    by_cases unit : c.2.toUpper = u.letter
    · rw [if_pos unit, if_pos unit, List.getLastD_cons]
    · rw [if_neg unit, if_neg unit]

theorem addDate_enters : ∀ u ∈ dateUnits, Enters addDate u := by
  simp only [dateUnits, List.forall_mem_cons, Enters]
  refine ⟨?_, ?_, ?_, ?_, nofun⟩ <;> intro p c q h <;>
    obtain ⟨n, value, ⟨unit, rfl⟩ | ⟨unit, rfl⟩ | ⟨unit, rfl⟩ | ⟨unit, rfl⟩⟩ := addDate_cases h <;>
    simp [unit, value]

theorem addTime_enters : ∀ u ∈ timeUnits, Enters addTime u := by
  simp only [timeUnits, List.forall_mem_cons, Enters]
  refine ⟨?_, ?_, ?_, nofun⟩ <;> intro p c q h <;>
    obtain ⟨n, value, ⟨unit, rfl⟩ | ⟨unit, rfl⟩⟩ | ⟨seconds, millis, value, unit, rfl⟩ := addTime_cases h <;>
    simp [unit, value]

/-- The components of a time leave the units of the date as they are. -/
theorem addTime_leaves {u : UnitField} (hu : u ∈ dateUnits) (h : times.foldlM addTime p = .ok q) :
    u.field q = u.field p := by
  refine Outcome.foldlM_keeps (I := fun r => u.field r = u.field p) (fun b c r same entered => ?_) rfl h
  rw [← same]
  simp only [dateUnits, List.mem_cons, List.not_mem_nil, or_false] at hu
  obtain ⟨n, -, ⟨-, rfl⟩ | ⟨-, rfl⟩⟩ | ⟨seconds, millis, -, -, rfl⟩ := addTime_cases entered <;>
    rcases hu with rfl | rfl | rfl | rfl <;> rfl

/-- And those of a date the units of the time. -/
theorem addDate_leaves {u : UnitField} (hu : u ∈ timeUnits) (h : dates.foldlM addDate p = .ok q) :
    u.field q = u.field p := by
  refine Outcome.foldlM_keeps (I := fun r => u.field r = u.field p) (fun b c r same entered => ?_) rfl h
  rw [← same]
  simp only [timeUnits, List.mem_cons, List.not_mem_nil, or_false] at hu
  obtain ⟨n, -, ⟨-, rfl⟩ | ⟨-, rfl⟩ | ⟨-, rfl⟩ | ⟨-, rfl⟩⟩ := addDate_cases entered <;>
    rcases hu with rfl | rfl | rfl <;> rfl

theorem field_zero {u : UnitField} (hu : u ∈ dateUnits ++ timeUnits) : u.field zero = 0 := by
  simp only [dateUnits, timeUnits, List.cons_append, List.nil_append, List.mem_cons, List.not_mem_nil,
    or_false] at hu
  rcases hu with rfl | rfl | rfl | rfl | rfl | rfl | rfl <;> rfl

/-! ## Reading a whole text -/

/-- A text is read by entering its components one after the other. -/
theorem entered_of_read {text : List Char} (written : IsWrittenWith text dates times) (h : read text = .ok p) :
    ∃ q, dates.foldlM addDate zero = .ok q ∧ times.foldlM addTime q = .ok p := by
  obtain ⟨letter, body, same, -, components⟩ := read_ok h
  cases written with
  | date begins kinds filled =>
    obtain ⟨rfl, rfl⟩ := List.cons.inj same
    have unmarked := not_isTimeMark_of_isRow (isRow_iff.mpr ⟨dates, rfl, kinds⟩)
    rw [readBody_date unmarked (spelled_ne_nil filled),
      readSection_spelled fun c hc => (kinds c hc).isComponent] at components
    exact ⟨p, components, rfl⟩
  | time begins kinds marks kinds' filled =>
    obtain ⟨rfl, rfl⟩ := List.cons.inj same
    have unmarked := not_isTimeMark_of_isRow (isRow_iff.mpr ⟨dates, rfl, kinds⟩)
    rw [readBody_time unmarked (isTimeMark_iff.mpr marks) (spelled_ne_nil filled)] at components
    obtain ⟨q, date, time⟩ := bind_ok_iff.mp components
    rw [readSection_spelled fun c hc => (kinds c hc).isComponent] at date
    rw [readSection_spelled fun c hc => (kinds' c hc).isComponent] at time
    exact ⟨q, date, time⟩

/-- A text that is read is written with some components. -/
theorem exists_isWrittenWith {text : List Char} (h : IsWritten text) :
    ∃ dates times, IsWrittenWith text dates times := by
  obtain @⟨letter, body, begins, components⟩ := h
  cases components with
  | date dates filled =>
    obtain ⟨cs, rfl, kinds⟩ := isRow_iff.mp dates
    exact ⟨cs, [], .date begins kinds fun none => filled (by rw [none]; rfl)⟩
  | time dates marks times filled =>
    obtain ⟨cs, rfl, kinds⟩ := isRow_iff.mp dates
    obtain ⟨cs', rfl, kinds'⟩ := isRow_iff.mp times
    exact ⟨cs, cs', .time begins kinds marks kinds' fun none => filled (by rw [none]; rfl)⟩

/-- **What repeated components come to.** A text that is read is written with components, and each
unit of the period is what the last component of the unit says, zero without one. So of a unit
that is written more than once nothing is lost only if all components of it but the last are zero. -/
theorem parse_keeps_last {s : String} (h : parse s = .ok p) :
    (∃ dates times, IsWrittenWith (trimBy isBlank s.toList) dates times) ∧
      ∀ dates times, IsWrittenWith (trimBy isBlank s.toList) dates times → p.KeepsLast dates times := by
  have accepted := parse_ok_iff.mp h
  refine ⟨exists_isWrittenWith (exists_read_iff.mp ⟨p, accepted⟩), fun dates times written => ?_⟩
  obtain ⟨q, date, time⟩ := entered_of_read written accepted
  refine ⟨fun u hu => isLast_of_getLastD ?_, fun u hu => isLast_of_getLastD ?_⟩
  · rw [addTime_leaves hu time, Enters.row (addDate_enters u hu) date,
      field_zero (List.mem_append_left _ hu)]
  · rw [Enters.row (addTime_enters u hu) time, addDate_leaves hu date,
      field_zero (List.mem_append_right _ hu)]

/-- Days and seconds that are written more than once. -/
theorem parse_keeps_last_repeated :
    parse "P2D0W5DT1.5S1H,25S" = .ok { days := 5, hours := 1, millis := 250 } ∧
    IsWrittenWith (trimBy isBlank "P2D0W5DT1.5S1H,25S".toList) [(['2'], 'D'), (['0'], 'W'), (['5'], 'D')]
      [(['1', '.', '5'], 'S'), (['1'], 'H'), ([',', '2', '5'], 'S')] ∧
    KeepsLast { days := 5, hours := 1, millis := 250 } [(['2'], 'D'), (['0'], 'W'), (['5'], 'D')]
      [(['1', '.', '5'], 'S'), (['1'], 'H'), ([',', '2', '5'], 'S')] := by
  have accepted : parse "P2D0W5DT1.5S1H,25S" = .ok { days := 5, hours := 1, millis := 250 } :=
    Outcome.ok_of_toOption (by decide +kernel)
  have dates : ∀ c ∈ [(['2'], 'D'), (['0'], 'W'), (['5'], 'D')], IsDate c.1 c.2 := by
    simp only [List.forall_mem_cons, ← exists_addDate_iff zero]
    exact ⟨⟨_, rfl⟩, ⟨_, rfl⟩, ⟨_, rfl⟩, nofun⟩
  have times : ∀ c ∈ [(['1', '.', '5'], 'S'), (['1'], 'H'), ([',', '2', '5'], 'S')], IsTime c.1 c.2 := by
    simp only [List.forall_mem_cons, ← exists_addTime_iff zero]
    exact ⟨⟨_, rfl⟩, ⟨_, rfl⟩, ⟨_, rfl⟩, nofun⟩
  have text : trimBy isBlank "P2D0W5DT1.5S1H,25S".toList =
      'P' :: (spelled [(['2'], 'D'), (['0'], 'W'), (['5'], 'D')] ++
        'T' :: spelled [(['1', '.', '5'], 'S'), (['1'], 'H'), ([',', '2', '5'], 'S')]) := by decide +kernel
  have written := IsWrittenWith.time (.inl rfl) dates (.inl rfl) times (List.cons_ne_nil _ _)
  rw [← text] at written
  exact ⟨accepted, written, (parse_keeps_last accepted).2 _ _ written⟩

/-- Of one day and two days the two are kept, and not the three that they come to. -/
theorem repeated_days_are_lost :
    parse "P1D2D" = .ok { days := 2 } ∧
    IsWrittenWith (trimBy isBlank "P1D2D".toList) [(['1'], 'D'), (['2'], 'D')] [] ∧
    ({ days := 2 } : Period).days.toNat ≠
      (UnitField.values ⟨'D', wholeValue, (·.days.toNat)⟩ [(['1'], 'D'), (['2'], 'D')]).sum := by
  have dates : ∀ c ∈ [(['1'], 'D'), (['2'], 'D')], IsDate c.1 c.2 := by
    simp only [List.forall_mem_cons, ← exists_addDate_iff zero]
    exact ⟨⟨_, rfl⟩, ⟨_, rfl⟩, nofun⟩
  have text : trimBy isBlank "P1D2D".toList = 'P' :: spelled [(['1'], 'D'), (['2'], 'D')] := by decide +kernel
  refine ⟨Outcome.ok_of_toOption (by decide +kernel), ?_, by decide⟩
  rw [text]
  exact .date (.inl rfl) dates (List.cons_ne_nil _ _)

end DetectionPlan.Period
