/-
Instants rounded down to the buckets of a period. The buckets of a period follow one another
(`bucketStart`), those of fixed length by arithmetic and those of the calendar by months, and
rounding down finds the one that the instant lies in (`floor_spec`). What holds of every
rounding, of either kind, follows from that (`floor_rounds_down`).
-/
import DetectionPlan.Period.Bucket
import DetectionPlan.Proofs.Calendar.Instant
import DetectionPlan.Proofs.Outcome
import Mathlib.Algebra.Order.BigOperators.Group.List
import Mathlib.Data.Int.ModEq
import Mathlib.Tactic.Ring

namespace DetectionPlan.Period

variable {p : Period} {millis bucket : Int}

/-! ## Lengths -/

/-- Without a length a period has no units but those of the calendar. -/
theorem eq_of_fixedPart_le_zero (h : p.fixedPart ≤ 0) : p = { years := p.years, months := p.months } := by
  obtain ⟨years, months, weeks, days, hours, minutes, seconds, millis⟩ := p
  have zero (n : UInt32) (h : n.toNat = 0) : n = 0 := UInt32.toNat_inj.mp h
  simp only [fixedPart, weekMillis, dayMillis, hourMillis, minuteMillis, secondMillis] at h
  rw [zero weeks (by omega), zero days (by omega), zero hours (by omega), zero minutes (by omega),
    zero seconds (by omega), zero millis (by omega)]

theorem isCalendar_eq_false_iff : p.isCalendar = false ↔ p.years = 0 ∧ p.months = 0 := by
  simp only [isCalendar, Bool.or_eq_false_iff, decide_eq_false_iff_not, not_pos_iff]

theorem isZero_of_isCalendar (calendar : p.isCalendar) : p.isZero = false := by
  by_contra zero
  have none : p = Period.zero := by simpa [isZero] using zero
  rw [none] at calendar
  cases calendar

theorem fixedPart_pos (nonzero : p.isZero = false) (fixed : p.isCalendar = false) :
    0 < p.fixedPart := by
  by_contra none
  have only := eq_of_fixedPart_le_zero (Int.not_lt.mp none)
  obtain ⟨years, months⟩ := isCalendar_eq_false_iff.mp fixed
  rw [years, months] at only
  rw [only] at nonzero
  cases nonzero

theorem fixedPart_bounds (p : Period) : 0 ≤ p.fixedPart ∧ p.fixedPart ≤ 2984405274000000000 := by
  have weeks := p.weeks.toNat_lt
  have days := p.days.toNat_lt
  have hours := p.hours.toNat_lt
  have minutes := p.minutes.toNat_lt
  have seconds := p.seconds.toNat_lt
  have millis := p.millis.toNat_lt
  simp only [fixedPart, weekMillis, dayMillis, hourMillis, minuteMillis, secondMillis]
  omega

/-- The units of fixed length, each with how many of it a period has. -/
def fixedUnits (p : Period) : List (Int × Int) :=
  [(p.weeks.toNat, weekMillis), (p.days.toNat, dayMillis), (p.hours.toNat, hourMillis),
    (p.minutes.toNat, minuteMillis), (p.seconds.toNat, secondMillis), (p.millis.toNat, 1)]

/-- Add some units to a length, in signed 64-bit words. -/
def addUnits? (length : Int) (units : Int × Int) : Option Int := do
  int64? (length + (← int64? (units.1 * units.2)))

/-- The length summed up in signed 64-bit words. There is none if a step leaves their range. -/
def wordLength? (p : Period) : Option Int := p.fixedUnits.foldlM addUnits? 0

/-- No step of a sum leaves the range when no summand is negative and the sum is in it. -/
theorem foldlM_addUnits? {units : List (Int × Int)} {length : Int} (start : 0 ≤ length)
    (summands : ∀ u ∈ units, 0 ≤ u.1 * u.2)
    (fits : length + (units.map fun u => u.1 * u.2).sum ≤ maxInt64) :
    units.foldlM addUnits? length = some (length + (units.map fun u => u.1 * u.2).sum) := by
  induction units generalizing length with
  | nil => simp
  | cons u units ih =>
    have first := summands u List.mem_cons_self
    have others : ∀ v ∈ units, 0 ≤ v.1 * v.2 := fun v hv => summands v (List.mem_cons_of_mem _ hv)
    have rest : 0 ≤ (units.map fun u => u.1 * u.2).sum :=
      List.sum_nonneg fun n hn => by
        obtain ⟨v, hv, rfl⟩ := List.mem_map.mp hn
        exact others v hv
    rw [List.map_cons, List.sum_cons, ← Int.add_assoc] at fits ⊢
    have least : minInt64 ≤ 0 := by decide
    have product : int64? (u.1 * u.2) = some (u.1 * u.2) :=
      int64?_of_fits (fitsInt64_iff.mpr ⟨by omega, by omega⟩)
    have sum : int64? (length + u.1 * u.2) = some (length + u.1 * u.2) :=
      int64?_of_fits (fitsInt64_iff.mpr ⟨by omega, by omega⟩)
    have step : addUnits? length u = some (length + u.1 * u.2) := by
      simp only [addUnits?, product, Option.bind_eq_bind, Option.bind_some, sum]
    rw [List.foldlM_cons, step]
    exact ih (by omega) others fits

/-- The length is computed without leaving the range of a signed 64-bit word. -/
theorem wordLength?_eq (p : Period) : p.wordLength? = some p.fixedPart := by
  have total : 0 + (p.fixedUnits.map fun u => u.1 * u.2).sum = p.fixedPart := by
    simp only [fixedUnits, fixedPart, List.map_cons, List.map_nil, List.sum_cons, List.sum_nil]
    omega
  have bounds := p.fixedPart_bounds
  rw [← total]
  refine foldlM_addUnits? le_rfl ?_ ?_
  · simp only [fixedUnits, List.forall_mem_cons, weekMillis, dayMillis, hourMillis, minuteMillis,
      secondMillis]
    exact ⟨by omega, by omega, by omega, by omega, by omega, by omega, nofun⟩
  · rw [total, maxInt64]
    omega

/-! ## Multiples -/

/-- A number lies between the multiple of a length below it and the next one. -/
theorem multiple_bounds {length : Int} (positive : 0 < length) (n : Int) :
    n / length * length ≤ n ∧ n < (n / length + 1) * length :=
  ⟨Int.ediv_mul_le n (Int.ne_of_gt positive), Int.lt_ediv_add_one_mul_self n positive⟩

/-! ## Buckets of fixed length -/

theorem origin_cases (p : Period) :
    p.origin = 0 ∨ p.origin = firstMonday ∧ p.fixedPart % weekMillis = 0 := by
  unfold origin
  split
  next weeks =>
    simp only [Bool.and_eq_true, beq_iff_eq] at weeks
    exact .inr ⟨rfl, weeks.2⟩
  · exact .inl rfl

theorem origin_bounds (p : Period) : 0 ≤ p.origin ∧ p.origin ≤ firstMonday := by
  rcases p.origin_cases with zero | ⟨monday, -⟩
  · rw [zero]
    decide
  · rw [monday]
    decide

/-- The start of a bucket of fixed length, computed in signed 64-bit words. -/
def fixedFloor? (p : Period) (millis : Int) : Option Int :=
  (int64? (millis - p.origin)).bind fun shifted =>
    (int64? (shifted / p.fixedPart * p.fixedPart)).bind fun multiple => int64? (multiple + p.origin)

theorem fixedFloor?_eq_some_iff : p.fixedFloor? millis = some bucket ↔ fitsInt64 (millis - p.origin) ∧
    fitsInt64 ((millis - p.origin) / p.fixedPart * p.fixedPart) ∧ fitsInt64 bucket ∧
    bucket = (millis - p.origin) / p.fixedPart * p.fixedPart + p.origin := by
  simp only [fixedFloor?, Option.bind_eq_some_iff, int64?_eq_some_iff]
  constructor
  · rintro ⟨_, ⟨h, rfl⟩, _, ⟨h', rfl⟩, h'', rfl⟩
    exact ⟨h, h', h'', rfl⟩
  · rintro ⟨h, h', h'', rfl⟩
    exact ⟨_, ⟨h, rfl⟩, _, ⟨h', rfl⟩, h'', rfl⟩

theorem floor_fixed (nonzero : p.isZero = false) (fixed : p.isCalendar = false) (millis : Int) :
    p.floor millis = (p.fixedFloor? millis).elim (.error (.timeOutOfRange millis)) .ok := by
  cases found : p.fixedFloor? millis <;>
    (unfold fixedFloor? at found
     simp only [floor, nonzero, fixed, Bool.false_eq_true, if_false, found]
     rfl)

/-- A bucket of fixed length starts at its origin or some lengths from it. -/
theorem floor_ok_iff (nonzero : p.isZero = false) (fixed : p.isCalendar = false) :
    p.floor millis = .ok bucket ↔ fitsInt64 (millis - p.origin) ∧
      fitsInt64 ((millis - p.origin) / p.fixedPart * p.fixedPart) ∧ fitsInt64 bucket ∧
      bucket = (millis - p.origin) / p.fixedPart * p.fixedPart + p.origin := by
  rw [← fixedFloor?_eq_some_iff, floor_fixed nonzero fixed]
  cases p.fixedFloor? millis <;> simp

/-! ## Buckets of the calendar -/

/-- How many months a bucket has. -/
def bucketMonths (p : Period) : Int := if p.months == 0 then 12 else 1

theorem bucketMonths_of_years (h : p.months = 0) : p.bucketMonths = 12 := if_pos (beq_iff_eq.mpr h)

theorem bucketMonths_of_months (h : p.months ≠ 0) : p.bucketMonths = 1 := if_neg (by simpa using h)

theorem bucketMonths_cases (p : Period) : p.bucketMonths = 12 ∨ p.bucketMonths = 1 := by
  by_cases h : p.months = 0
  · exact .inl (bucketMonths_of_years h)
  · exact .inr (bucketMonths_of_months h)

theorem bucketMonths_pos (p : Period) : 0 < p.bucketMonths := by
  rcases p.bucketMonths_cases with unit | unit <;> rw [unit] <;> decide

theorem withDate_ok_iff {m : Moment} :
    withDate millis = .ok m ↔ hasDate millis ∧ m = .ofMillis millis := by
  unfold withDate moment?
  cases hasDate millis <;> simp [eq_comm]

theorem floor_calendar (calendar : p.isCalendar) :
    p.floor millis =
      (withDate millis).map fun m => (Moment.mk (p.calendarFloor m.date) 0).toMillis := by
  simp only [floor, isZero_of_isCalendar calendar, calendar, Bool.false_eq_true, if_false, if_true]
  rfl

/-- The start of a date's bucket is the first day of the first of its months. -/
theorem calendarFloor_eq (p : Period) {d : Date} (h : d.month < 12) :
    p.calendarFloor d = .firstOfMonth (d.monthIndex / p.bucketMonths * p.bucketMonths) := by
  unfold calendarFloor bucketMonths Date.firstOfMonth Date.monthIndex
  split <;> rw [Date.mk.injEq] <;> omega

theorem floor_calendar_ok_iff (calendar : p.isCalendar) :
    p.floor millis = .ok bucket ↔ hasDate millis ∧ bucket = Date.monthStart
      ((Date.ofDays (millis / dayMillis)).monthIndex / p.bucketMonths * p.bucketMonths) * dayMillis := by
  have start (number : Int) : (Moment.mk (Date.firstOfMonth number) 0).toMillis =
      Date.monthStart number * dayMillis := Int.add_zero _
  rw [floor_calendar calendar, Outcome.map_ok_iff]
  have floored : (Moment.mk (p.calendarFloor (Date.ofDays (millis / dayMillis))) 0).toMillis =
      Date.monthStart
        ((Date.ofDays (millis / dayMillis)).monthIndex / p.bucketMonths * p.bucketMonths) * dayMillis := by
    rw [p.calendarFloor_eq (Date.ofDays_spec _).1.month, start]
  constructor
  · rintro ⟨m, found, rfl⟩
    obtain ⟨dated, rfl⟩ := withDate_ok_iff.mp found
    exact ⟨dated, floored⟩
  · rintro ⟨dated, rfl⟩
    exact ⟨_, withDate_ok_iff.mpr ⟨dated, rfl⟩, floored⟩

/-! ## Buckets in a row -/

/-- Where a bucket starts. The buckets are numbered through all time. -/
def bucketStart (p : Period) (number : Int) : Int :=
  if p.isCalendar then Date.monthStart (number * p.bucketMonths) * dayMillis
  else number * p.fixedPart + p.origin

theorem bucketStart_strictMono (nonzero : p.isZero = false) : StrictMono p.bucketStart := by
  intro a b h
  unfold bucketStart
  split
  next calendar =>
    have months := Int.mul_lt_mul_of_pos_right h p.bucketMonths_pos
    have := Date.monthStart_strictMono months
    rw [dayMillis_eq]
    omega
  next fixed =>
    have positive := fixedPart_pos nonzero (Bool.eq_false_iff.mpr fixed)
    have := Int.mul_lt_mul_of_pos_right h positive
    omega

/-- Rounding down leads to the start of the bucket that an instant lies in. -/
theorem floor_spec (nonzero : p.isZero = false) (h : p.floor millis = .ok bucket) :
    ∃ number, bucket = p.bucketStart number ∧
      bucket ≤ millis ∧ millis < p.bucketStart (number + 1) := by
  unfold bucketStart
  by_cases calendar : p.isCalendar
  · obtain ⟨-, rfl⟩ := (floor_calendar_ok_iff calendar).mp h
    refine ⟨_, by rw [if_pos calendar], ?_⟩
    rw [if_pos calendar]
    -- The bucket holds the month of the instant, which holds its day.
    obtain ⟨low, high⟩ := Date.ofDays_within (millis / dayMillis)
    generalize (Date.ofDays (millis / dayMillis)).monthIndex = month at low high ⊢
    obtain ⟨below, above⟩ := multiple_bounds p.bucketMonths_pos month
    have before := Date.monthStart_strictMono.monotone below
    have after := Date.monthStart_strictMono.monotone (Int.add_one_le_of_lt above)
    rw [dayMillis_eq] at low high ⊢
    omega
  · have fixed : p.isCalendar = false := Bool.eq_false_iff.mpr calendar
    obtain ⟨-, -, -, start⟩ := (floor_ok_iff nonzero fixed).mp h
    refine ⟨_, by rw [if_neg calendar]; exact start, ?_⟩
    rw [if_neg calendar, start]
    obtain ⟨low, high⟩ := multiple_bounds (fixedPart_pos nonzero fixed) (millis - p.origin)
    omega

/-- If the start of a bucket can be rounded down, it stays where it is. -/
theorem floor_bucketStart (nonzero : p.isZero = false) {number : Int}
    (h : p.floor (p.bucketStart number) = .ok bucket) : bucket = p.bucketStart number := by
  have mono := bucketStart_strictMono nonzero
  obtain ⟨other, start, low, high⟩ := floor_spec nonzero h
  have notAfter : other ≤ number := mono.le_iff_le.mp (start ▸ low)
  have notBefore : number < other + 1 := mono.lt_iff_lt.mp high
  rw [start, Int.le_antisymm notAfter (by omega)]

/-! ## When rounding succeeds -/

/-- An instant with a date can be rounded down. -/
theorem exists_floor (nonzero : p.isZero = false) (dated : hasDate millis) :
    ∃ b, p.floor millis = .ok b := by
  by_cases calendar : p.isCalendar
  · exact ⟨_, (floor_calendar_ok_iff calendar).mpr ⟨dated, rfl⟩⟩
  · have fixed : p.isCalendar = false := Bool.eq_false_iff.mpr calendar
    have bounds := p.fixedPart_bounds
    have origin := p.origin_bounds
    obtain ⟨low, high⟩ := multiple_bounds (fixedPart_pos nonzero fixed) (millis - p.origin)
    have range := hasDate_iff.mp dated
    rw [Int.add_mul, Int.one_mul] at high
    rw [firstMonday, dayMillis_eq] at origin
    simp only [firstInstant, lastInstant] at range
    refine ⟨_, (floor_ok_iff nonzero fixed).mpr ⟨?_, ?_, ?_, rfl⟩⟩ <;>
      simp only [fitsInt64_iff, minInt64, maxInt64] <;> omega

theorem floor_error (nonzero : p.isZero = false) {e : Failure} (h : p.floor millis = .error e) :
    e = .timeOutOfRange millis := by
  by_cases calendar : p.isCalendar
  · rw [floor_calendar calendar, withDate] at h
    cases dated : moment? millis with
    | some m =>
      rw [dated] at h
      cases h
    | none =>
      rw [dated] at h
      exact (Except.error.inj h).symm
  · rw [floor_fixed nonzero (Bool.eq_false_iff.mpr calendar)] at h
    cases found : p.fixedFloor? millis with
    | some start =>
      rw [found] at h
      cases h
    | none =>
      rw [found] at h
      exact (Except.error.inj h).symm

/-- The start of the calendar is the start of a bucket. -/
theorem exists_bucketStart_eq_firstInstant (calendar : p.isCalendar) :
    ∃ number, p.bucketStart number = firstInstant := by
  simp only [bucketStart, if_pos calendar]
  rcases p.bucketMonths_cases with unit | unit <;> rw [unit]
  · exact ⟨-262143, by decide +kernel⟩
  · exact ⟨-262143 * 12, by decide +kernel⟩

/-- The start of the bucket of an instant that has one can be rounded down itself. -/
theorem exists_floor_floor (nonzero : p.isZero = false) (h : p.floor millis = .ok bucket) :
    ∃ b, p.floor bucket = .ok b := by
  by_cases calendar : p.isCalendar
  · obtain ⟨dated, -⟩ := (floor_calendar_ok_iff calendar).mp h
    obtain ⟨number, rfl, low, high⟩ := floor_spec nonzero h
    obtain ⟨first, begins⟩ := exists_bucketStart_eq_firstInstant calendar
    have mono := bucketStart_strictMono nonzero
    obtain ⟨early, late⟩ := hasDate_iff.mp dated
    have earlier : first < number + 1 := mono.lt_iff_lt.mp (by rw [begins]; omega)
    have inside : p.bucketStart first ≤ p.bucketStart number := mono.monotone (by omega)
    exact exists_floor nonzero (hasDate_iff.mpr ⟨begins ▸ inside, low.trans late⟩)
  · have fixed : p.isCalendar = false := Bool.eq_false_iff.mpr calendar
    obtain ⟨-, multiple, fits, rfl⟩ := (floor_ok_iff nonzero fixed).mp h
    have whole := Int.mul_ediv_cancel ((millis - p.origin) / p.fixedPart)
      (Int.ne_of_gt (fixedPart_pos nonzero fixed))
    refine ⟨(millis - p.origin) / p.fixedPart * p.fixedPart + p.origin,
      (floor_ok_iff nonzero fixed).mpr ?_⟩
    rw [Int.add_sub_cancel, whole]
    exact ⟨multiple, multiple, fits, rfl⟩

/-- The start of a bucket is in its own bucket. -/
theorem floor_floor (nonzero : p.isZero = false) (h : p.floor millis = .ok bucket) :
    p.floor bucket = .ok bucket := by
  obtain ⟨again, ha⟩ := exists_floor_floor nonzero h
  obtain ⟨number, rfl, -, -⟩ := floor_spec nonzero h
  rw [ha, floor_bucketStart nonzero ha]

theorem floor_mono (nonzero : p.isZero = false) {a b start stop : Int} (le : a ≤ b)
    (ha : p.floor a = .ok start) (hb : p.floor b = .ok stop) : start ≤ stop := by
  have mono := bucketStart_strictMono nonzero
  obtain ⟨i, rfl, low, -⟩ := floor_spec nonzero ha
  obtain ⟨j, rfl, -, high⟩ := floor_spec nonzero hb
  have notAfter : i < j + 1 := mono.lt_iff_lt.mp (by omega)
  exact mono.monotone (by omega)

/-- Buckets of fixed length start at the first Monday, or some lengths from it, if they are
whole weeks, and at the epoch otherwise. -/
theorem floor_modEq (nonzero : p.isZero = false) (fixed : p.isCalendar = false)
    (h : p.floor millis = .ok bucket) :
    bucket ≡
      if 0 < p.weeks ∧ weekMillis ∣ p.fixedPart then (Moment.mk ⟨1970, 0, 5⟩ 0).toMillis else 0
      [ZMOD p.fixedPart] := by
  obtain ⟨-, -, -, rfl⟩ := (floor_ok_iff nonzero fixed).mp h
  have monday : firstMonday = (Moment.mk ⟨1970, 0, 5⟩ 0).toMillis := by decide
  have origin : p.origin =
      if 0 < p.weeks ∧ weekMillis ∣ p.fixedPart then (Moment.mk ⟨1970, 0, 5⟩ 0).toMillis else 0 := by
    simp only [origin, Bool.and_eq_true, decide_eq_true_eq, beq_iff_eq, Int.dvd_iff_emod_eq_zero,
      monday]
  rw [← origin]
  exact Int.modEq_iff_dvd.mpr ⟨-((millis - p.origin) / p.fixedPart), by ring⟩

theorem fixedMillis?_eq_some_iff {length : Int} :
    p.fixedMillis? = some length ↔ p.isCalendar = false ∧ p.fixedPart = length := by
  unfold fixedMillis?
  cases p.isCalendar <;> simp

/-- **Rounding down.** For every period there is, the instant found is not after the one
rounded, stays as it is when rounded again, and does not fall as the instant rises. All instants
with a date can be rounded, and where one cannot, it is reported as out of range. The units of
fixed length are summed up without leaving the range of a signed 64-bit word. With a fixed length
an instant is less than the length after the start of its bucket, and buckets start some lengths
from the first Monday after the epoch, 1970-01-05, when they are whole weeks, or from the epoch. -/
theorem floor_rounds_down (nonzero : p.isZero = false) :
    (∀ millis bucket, p.floor millis = .ok bucket →
      bucket ≤ millis ∧ p.floor bucket = .ok bucket) ∧
    (∀ a b start stop, a ≤ b → p.floor a = .ok start → p.floor b = .ok stop → start ≤ stop) ∧
    (∀ millis, hasDate millis → ∃ bucket, p.floor millis = .ok bucket) ∧
    (∀ millis e, p.floor millis = .error e → e = .timeOutOfRange millis) ∧
    p.wordLength? = some p.fixedPart ∧
    ∀ length, p.fixedMillis? = some length → ∀ millis bucket, p.floor millis = .ok bucket →
      millis < bucket + length ∧
        bucket ≡
          if 0 < p.weeks ∧ weekMillis ∣ length then (Moment.mk ⟨1970, 0, 5⟩ 0).toMillis else 0
          [ZMOD length] := by
  refine ⟨fun millis bucket h => ⟨?_, floor_floor nonzero h⟩,
    fun a b start stop => floor_mono nonzero, fun millis => exists_floor nonzero,
    fun millis e => floor_error nonzero, p.wordLength?_eq, fun length known millis bucket h => ?_⟩
  · obtain ⟨number, -, low, -⟩ := floor_spec nonzero h
    exact low
  · obtain ⟨fixed, rfl⟩ := fixedMillis?_eq_some_iff.mp known
    refine ⟨?_, floor_modEq nonzero fixed h⟩
    obtain ⟨number, rfl, -, high⟩ := floor_spec nonzero h
    simp only [bucketStart, fixed, Bool.false_eq_true, if_false, Int.add_mul] at high ⊢
    omega

/-- Weeks before the epoch: a millisecond before it lies in the week of Monday 1969-12-29. -/
theorem floor_rounds_down_weekly :
    Period.isZero { weeks := 1 } = false ∧ Period.floor { weeks := 1 } (-1) = .ok (-259200000) ∧
      Period.fixedMillis? { weeks := 1 } = some 604800000 ∧
      (-1 : Int) < -259200000 + 604800000 ∧
      -259200000 ≡ if 0 < ({ weeks := 1 } : Period).weeks ∧ weekMillis ∣ 604800000 then
        (Moment.mk ⟨1970, 0, 5⟩ 0).toMillis else 0 [ZMOD 604800000] := by
  have floored : Period.floor { weeks := 1 } (-1) = .ok (-259200000) :=
    Outcome.ok_of_toOption (by decide +kernel)
  obtain ⟨-, -, -, -, -, fixed⟩ := floor_rounds_down (p := { weeks := 1 }) (by decide)
  exact ⟨by decide, floored, by decide, fixed 604800000 (by decide) (-1) (-259200000) floored⟩

end DetectionPlan.Period
