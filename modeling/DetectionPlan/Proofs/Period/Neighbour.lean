/-
Buckets beside an instant. A period of fixed length, one month and one year lead from the start
of each bucket to the start of the next and of the one before (`addTo_bucketStart`,
`subtractFrom_bucketStart`), however they are computed. So the bucket starts that are found by
rounding down and taking a step are the nearest ones there are (`nearest_buckets`).
-/
import DetectionPlan.Proofs.Period.Floor
import Mathlib.Order.Bounds.Defs

namespace DetectionPlan.Period

open Outcome (bind_error_iff bind_ok_iff)

variable {p : Period} {millis shifted : Int}

/-! ## Steps of a period -/

theorem shift?_eq_some {m : Moment} {months : Int} (h : shift? m months millis = some shifted) :
    shifted =
        (Moment.mk (if months == 0 then m.date else m.date.addMonths months) m.time).toMillis + millis ∧
      hasDate shifted := by
  unfold shift? at h
  dsimp only at h
  generalize (if months == 0 then m.date else m.date.addMonths months) = date at h ⊢
  split at h
  · split at h
    next dated =>
      obtain rfl := Option.some.inj h
      exact ⟨rfl, (Bool.and_eq_true_iff.mp dated).2⟩
    · cases h
  · cases h

/-- Move an instant by some periods, forward or backward. -/
def moveBy (p : Period) (count millis : Int) : Outcome Int := do
  let m ← withDate millis
  let months ← p.calendarMonths
  match shift? m (count * months) (count * p.fixedPart) with
  | some shifted => .ok shifted
  | none => .error (.timeOutOfRange millis)

theorem addTo_eq (p : Period) (millis : Int) : p.addTo millis = p.moveBy 1 millis := by
  simp only [moveBy, Int.one_mul]
  rfl

theorem subtractFrom_eq (p : Period) (millis : Int) :
    p.subtractFrom millis = p.moveBy (-1) millis := by
  simp only [moveBy, Int.neg_one_mul]
  rfl

/-- The months that the units of the calendar come to. -/
def monthCount (p : Period) : Nat := p.years.toNat * 12 + p.months.toNat

theorem calendarMonths_ok {months : Nat} (h : p.calendarMonths = .ok months) :
    months = p.monthCount := by
  unfold calendarMonths at h
  dsimp only at h
  split at h
  · exact (Except.ok.inj h).symm
  · cases h

/-- A step starts from an instant with a date. -/
theorem hasDate_of_moveBy {count : Int} (h : p.moveBy count millis = .ok shifted) : hasDate millis := by
  obtain ⟨m, hm, -⟩ := bind_ok_iff.mp h
  exact (withDate_ok_iff.mp hm).1

/-- A step moves the date by months, leaves the time of day as it is, and adds the rest. -/
theorem moveBy_ok {count : Int} (h : p.moveBy count millis = .ok shifted) :
    shifted = (Moment.mk ((Moment.ofMillis millis).date.addMonths (count * p.monthCount))
        (Moment.ofMillis millis).time).toMillis + count * p.fixedPart ∧ hasDate shifted := by
  obtain ⟨m, hm, h⟩ := bind_ok_iff.mp h
  obtain ⟨-, rfl⟩ := withDate_ok_iff.mp hm
  obtain ⟨months, known, h⟩ := bind_ok_iff.mp h
  obtain rfl := calendarMonths_ok known
  split at h
  next found =>
    obtain rfl := Except.ok.inj h
    obtain ⟨place, dated⟩ := shift?_eq_some found
    refine ⟨?_, dated⟩
    rw [place]
    -- No step at all is a step by no months.
    split
    next zero =>
      have valid : (Moment.ofMillis millis).date.Valid := (Date.ofDays_spec _).1
      rw [eq_of_beq zero, Date.addMonths_zero valid]
    · rfl
  · cases h

/-- A step fails for its months or for where it leads. -/
theorem moveBy_error {count : Int} {e : Failure} (h : p.moveBy count millis = .error e) :
    e = .timeOutOfRange millis ∨ e = .invalidPeriod p.text .tooManyMonths := by
  unfold moveBy at h
  rcases bind_error_iff.mp h with undated | ⟨m, -, h⟩
  · unfold withDate at undated
    split at undated
    · cases undated
    · exact .inl (Except.error.inj undated).symm
  · rcases bind_error_iff.mp h with many | ⟨months, -, h⟩
    · unfold calendarMonths at many
      dsimp only at many
      split at many
      · cases many
      · exact .inr (Except.error.inj many).symm
    · split at h
      · cases h
      · exact .inl (Except.error.inj h).symm

/-- What a period leads back to has a date. -/
theorem hasDate_of_subtractFrom (h : p.subtractFrom millis = .ok shifted) : hasDate shifted := by
  exact (moveBy_ok (p.subtractFrom_eq _ ▸ h)).2

/-! ## From bucket to bucket -/

/-- Periods as long as their buckets: those of fixed length, one month and one year. -/
def Tiles (p : Period) : Prop := p.isCalendar = false ∨ p = { months := 1 } ∨ p = { years := 1 }

theorem monthCount_of_fixed (fixed : p.isCalendar = false) : p.monthCount = 0 := by
  obtain ⟨years, months⟩ := isCalendar_eq_false_iff.mp fixed
  rw [monthCount, years, months]
  rfl

/-- One month and one year have as many months as their buckets and no other part. -/
theorem Tiles.monthCount_eq (tiles : p.Tiles) (calendar : p.isCalendar) :
    (p.monthCount : Int) = p.bucketMonths ∧ p.fixedPart = 0 := by
  rcases tiles with fixed | rfl | rfl
  · rw [fixed] at calendar
    cases calendar
  all_goals decide

/-- From the start of a bucket of the calendar a step leads to the start of a month, and the rest
of the period on from there. -/
theorem moveBy_calendar (calendar : p.isCalendar) {count number : Int}
    (h : p.moveBy count (p.bucketStart number) = .ok shifted) :
    shifted = Date.monthStart (number * p.bucketMonths + count * p.monthCount) * dayMillis +
      count * p.fixedPart ∧ hasDate shifted := by
  obtain ⟨place, dated⟩ := moveBy_ok h
  simp only [bucketStart, if_pos calendar] at place
  rw [Moment.ofMillis_monthStart] at place
  dsimp only at place
  rw [Date.addMonths_firstOfMonth] at place
  exact ⟨place.trans (congrArg (· + count * p.fixedPart) (Int.add_zero _)), dated⟩

/-- From the start of a bucket such a period leads as many buckets on as it is taken times. -/
theorem moveBy_bucketStart (tiles : p.Tiles) {count number : Int}
    (h : p.moveBy count (p.bucketStart number) = .ok shifted) :
    shifted = p.bucketStart (number + count) ∧ hasDate shifted := by
  by_cases calendar : p.isCalendar
  · obtain ⟨place, dated⟩ := moveBy_calendar calendar h
    obtain ⟨unit, none⟩ := tiles.monthCount_eq calendar
    rw [unit, none, Int.mul_zero, Int.add_zero, ← Int.add_mul] at place
    exact ⟨place.trans (if_pos calendar).symm, dated⟩
  · have fixed : p.isCalendar = false := Bool.eq_false_iff.mpr calendar
    obtain ⟨place, dated⟩ := moveBy_ok h
    have valid : (Moment.ofMillis (p.bucketStart number)).date.Valid := (Date.ofDays_spec _).1
    have same : (Moment.mk (Moment.ofMillis (p.bucketStart number)).date
        (Moment.ofMillis (p.bucketStart number)).time).toMillis = p.bucketStart number :=
      Moment.toMillis_ofMillis _
    rw [monthCount_of_fixed fixed, Int.natCast_zero, Int.mul_zero, Date.addMonths_zero valid, same] at place
    refine ⟨?_, dated⟩
    simp only [bucketStart, fixed, Bool.false_eq_true, if_false] at place ⊢
    rw [place, Int.add_mul]
    omega

theorem addTo_bucketStart (tiles : p.Tiles) {number : Int}
    (h : p.addTo (p.bucketStart number) = .ok shifted) :
    shifted = p.bucketStart (number + 1) ∧ hasDate shifted :=
  moveBy_bucketStart tiles (p.addTo_eq _ ▸ h)

theorem subtractFrom_bucketStart (tiles : p.Tiles) {number : Int}
    (h : p.subtractFrom (p.bucketStart number) = .ok shifted) :
    shifted = p.bucketStart (number - 1) ∧ hasDate shifted :=
  moveBy_bucketStart tiles (p.subtractFrom_eq _ ▸ h)

/-! ## The nearest bucket starts -/

/-- The instant starts a bucket: it is its own bucket's start. -/
def IsBucketStart (p : Period) (millis : Int) : Prop := p.floor millis = .ok millis

theorem IsBucketStart.exists_number (nonzero : p.isZero = false) (h : p.IsBucketStart millis) :
    ∃ number, millis = p.bucketStart number := by
  obtain ⟨number, start, -, -⟩ := floor_spec nonzero h
  exact ⟨number, start⟩

theorem isBucketStart_of_hasDate (nonzero : p.isZero = false) {number : Int}
    (dated : hasDate (p.bucketStart number)) : p.IsBucketStart (p.bucketStart number) := by
  obtain ⟨b, hb⟩ := exists_floor nonzero dated
  rw [IsBucketStart, hb, floor_bucketStart nonzero hb]

/-- The first bucket start from an instant on is the instant itself, or a step from the start of
the bucket that the instant lies within. -/
theorem firstBucketAtOrAfter_ok (nonzero : p.isZero = false) {first : Int}
    (h : p.firstBucketAtOrAfter millis = .ok first) :
    p.IsBucketStart millis ∧ first = millis ∨
      ¬ p.IsBucketStart millis ∧ ∃ number, p.bucketStart number < millis ∧
        millis < p.bucketStart (number + 1) ∧ p.addTo (p.bucketStart number) = .ok first := by
  obtain ⟨floored, hf, h⟩ := bind_ok_iff.mp h
  obtain ⟨number, rfl, low, high⟩ := floor_spec nonzero hf
  by_cases same : p.bucketStart number = millis
  · rw [if_pos (beq_iff_eq.mpr same)] at h
    rw [same] at hf
    exact .inl ⟨hf, (Except.ok.inj h).symm⟩
  · rw [if_neg (by simpa using same)] at h
    refine .inr ⟨fun starts => ?_, number, by omega, high, h⟩
    exact same (Except.ok.inj (hf.symm.trans starts))

/-- The last bucket start before an instant is a step back from the instant if it starts a bucket,
and otherwise the start of the bucket that the instant lies within. -/
theorem lastBucketBefore_ok (nonzero : p.isZero = false) {last : Int}
    (h : p.lastBucketBefore millis = .ok last) :
    (∃ number, p.IsBucketStart millis ∧ millis = p.bucketStart number ∧
        p.subtractFrom (p.bucketStart number) = .ok last) ∨
      ¬ p.IsBucketStart millis ∧ ∃ number, p.IsBucketStart last ∧ last = p.bucketStart number ∧
        last < millis ∧ millis < p.bucketStart (number + 1) := by
  obtain ⟨floored, hf, h⟩ := bind_ok_iff.mp h
  obtain ⟨number, rfl, low, high⟩ := floor_spec nonzero hf
  by_cases same : p.bucketStart number = millis
  · rw [if_pos (beq_iff_eq.mpr same), ← same] at h
    rw [same] at hf
    exact .inl ⟨number, hf, same.symm, h⟩
  · rw [if_neg (by simpa using same)] at h
    obtain rfl := Except.ok.inj h
    refine .inr ⟨fun starts => ?_, number, floor_floor nonzero hf, rfl, by omega, high⟩
    exact same (Except.ok.inj (hf.symm.trans starts))

theorem isLeast_firstBucketAtOrAfter (nonzero : p.isZero = false) (tiles : p.Tiles) {first : Int}
    (h : p.firstBucketAtOrAfter millis = .ok first) :
    IsLeast {b | p.IsBucketStart b ∧ millis ≤ b} first := by
  have mono := bucketStart_strictMono nonzero
  rcases firstBucketAtOrAfter_ok nonzero h with ⟨starts, rfl⟩ | ⟨-, number, low, high, h⟩
  · exact ⟨⟨starts, le_rfl⟩, fun b hb => hb.2⟩
  · obtain ⟨rfl, dated⟩ := addTo_bucketStart tiles h
    refine ⟨⟨isBucketStart_of_hasDate nonzero dated, Int.le_of_lt high⟩, ?_⟩
    intro b ⟨starts, after⟩
    obtain ⟨k, rfl⟩ := starts.exists_number nonzero
    have later : number < k := mono.lt_iff_lt.mp (by omega)
    exact mono.monotone later

/-- The start of the bucket that an instant lies within is the greatest before it. -/
theorem isGreatest_bucketStart (nonzero : p.isZero = false) {number : Int}
    (starts : p.IsBucketStart (p.bucketStart number)) (low : p.bucketStart number < millis)
    (high : millis < p.bucketStart (number + 1)) :
    IsGreatest {b | p.IsBucketStart b ∧ b < millis} (p.bucketStart number) := by
  have mono := bucketStart_strictMono nonzero
  refine ⟨⟨starts, low⟩, ?_⟩
  intro b ⟨starts, before⟩
  obtain ⟨k, rfl⟩ := starts.exists_number nonzero
  have notAfter : k < number + 1 := mono.lt_iff_lt.mp (by omega)
  exact mono.monotone (by omega)

theorem isGreatest_lastBucketBefore (nonzero : p.isZero = false) (tiles : p.Tiles) {last : Int}
    (h : p.lastBucketBefore millis = .ok last) :
    IsGreatest {b | p.IsBucketStart b ∧ b < millis} last := by
  have mono := bucketStart_strictMono nonzero
  rcases lastBucketBefore_ok nonzero h with ⟨number, -, rfl, back⟩ | ⟨-, number, starts, rfl, low, high⟩
  · obtain ⟨rfl, dated⟩ := subtractFrom_bucketStart tiles back
    refine ⟨⟨isBucketStart_of_hasDate nonzero dated, mono (by omega)⟩, ?_⟩
    intro b ⟨starts, before⟩
    obtain ⟨k, rfl⟩ := starts.exists_number nonzero
    have earlier : k < number := mono.lt_iff_lt.mp before
    exact mono.monotone (by omega)
  · exact isGreatest_bucketStart nonzero starts low high

/-- **The nearest bucket starts.** For a period of fixed length, one month or one year, the
first bucket start that is found at or after an instant is the least one there is, and the last
one found before an instant is the greatest. -/
theorem nearest_buckets (nonzero : p.isZero = false) (tiles : p.Tiles) (millis : Int) :
    (∀ first, p.firstBucketAtOrAfter millis = .ok first →
      IsLeast {b | p.IsBucketStart b ∧ millis ≤ b} first) ∧
    (∀ last, p.lastBucketBefore millis = .ok last →
      IsGreatest {b | p.IsBucketStart b ∧ b < millis} last) :=
  ⟨fun _ => isLeast_firstBucketAtOrAfter nonzero tiles,
    fun _ => isGreatest_lastBucketBefore nonzero tiles⟩

/-- Noon of 2020-02-29 lies between the first days of February and of March. -/
theorem nearest_buckets_leapDay :
    (Period.isZero { months := 1 } = false ∧ Period.Tiles { months := 1 } ∧
      Period.firstBucketAtOrAfter { months := 1 } 1582977600000 = .ok 1583020800000 ∧
      Period.lastBucketBefore { months := 1 } 1582977600000 = .ok 1580515200000) ∧
    IsLeast {b | Period.IsBucketStart { months := 1 } b ∧ 1582977600000 ≤ b} 1583020800000 ∧
    IsGreatest {b | Period.IsBucketStart { months := 1 } b ∧ b < 1582977600000} 1580515200000 := by
  have tiles : Period.Tiles { months := 1 } := .inr (.inl rfl)
  have first : Period.firstBucketAtOrAfter { months := 1 } 1582977600000 = .ok 1583020800000 :=
    Outcome.ok_of_toOption (by decide +kernel)
  have last : Period.lastBucketBefore { months := 1 } 1582977600000 = .ok 1580515200000 :=
    Outcome.ok_of_toOption (by decide +kernel)
  obtain ⟨least, greatest⟩ := nearest_buckets (by decide) tiles 1582977600000
  exact ⟨⟨by decide, tiles, first, last⟩, least _ first, greatest _ last⟩

/-! ## Periods longer than their buckets -/

theorem toNat_ne_zero {n : UInt32} (h : n ≠ 0) : n.toNat ≠ 0 := fun none => h (UInt32.toNat_inj.mp none)

theorem bucketMonths_le (calendar : p.isCalendar) : p.bucketMonths ≤ p.monthCount := by
  unfold monthCount
  by_cases none : p.months = 0
  · have years : p.years ≠ 0 := by
      intro none'
      rw [isCalendar_eq_false_iff.mpr ⟨none', none⟩] at calendar
      cases calendar
    have := toNat_ne_zero years
    rw [bucketMonths_of_years none]
    omega
  · have := toNat_ne_zero none
    rw [bucketMonths_of_months none]
    omega

/-- Of the periods that go along the calendar only one month and one year are no longer than
their buckets. -/
theorem tiles_of_le (calendar : p.isCalendar) (months : p.monthCount ≤ p.bucketMonths)
    (rest : p.fixedPart ≤ 0) : p.Tiles := by
  have only := eq_of_fixedPart_le_zero rest
  have least := bucketMonths_le calendar
  have count : p.monthCount = p.years.toNat * 12 + p.months.toNat := rfl
  by_cases none : p.months = 0
  · have zero : p.months.toNat = 0 := UInt32.toNat_inj.mpr none
    rw [bucketMonths_of_years none] at months least
    have one : p.years = 1 := UInt32.toNat_inj.mp (show p.years.toNat = 1 by omega)
    rw [one, none] at only
    exact .inr (.inr only)
  · have some := toNat_ne_zero none
    rw [bucketMonths_of_months none] at months
    have one : p.months = 1 := UInt32.toNat_inj.mp (show p.months.toNat = 1 by omega)
    have zero : p.years = 0 := UInt32.toNat_inj.mp (show p.years.toNat = 0 by omega)
    rw [one, zero] at only
    exact .inr (.inl only)

/-- From the start of a bucket a longer period leads past the start of the next one. -/
theorem lt_addTo_bucketStart (calendar : p.isCalendar) (uneven : ¬ p.Tiles) {number : Int}
    (h : p.addTo (p.bucketStart number) = .ok shifted) : p.bucketStart (number + 1) < shifted := by
  obtain ⟨rfl, -⟩ := moveBy_calendar calendar (p.addTo_eq _ ▸ h)
  have least := bucketMonths_le calendar
  have rest := p.fixedPart_bounds.1
  simp only [bucketStart, if_pos calendar, Int.add_mul, Int.one_mul, dayMillis_eq]
  by_cases more : p.bucketMonths < p.monthCount
  · have := Date.monthStart_strictMono (Int.add_lt_add_left more (number * p.bucketMonths))
    omega
  · have some : 0 < p.fixedPart := by
      by_contra none
      exact uneven (tiles_of_le calendar (by omega) (by omega))
    have := Date.monthStart_strictMono.monotone (Int.add_le_add_left least (number * p.bucketMonths))
    omega

/-- And back past the start of the one before. -/
theorem subtractFrom_bucketStart_lt (calendar : p.isCalendar) (uneven : ¬ p.Tiles) {number : Int}
    (h : p.subtractFrom (p.bucketStart number) = .ok shifted) : shifted < p.bucketStart (number - 1) := by
  obtain ⟨rfl, -⟩ := moveBy_calendar calendar (p.subtractFrom_eq _ ▸ h)
  have least := bucketMonths_le calendar
  have rest := p.fixedPart_bounds.1
  simp only [bucketStart, if_pos calendar, Int.sub_mul, Int.neg_mul, Int.one_mul, dayMillis_eq]
  by_cases more : p.bucketMonths < p.monthCount
  · have := Date.monthStart_strictMono
      (show number * p.bucketMonths + -(p.monthCount : Int) < number * p.bucketMonths - p.bucketMonths by omega)
    omega
  · have some : 0 < p.fixedPart := by
      by_contra none
      exact uneven (tiles_of_le calendar (by omega) (by omega))
    have := Date.monthStart_strictMono.monotone
      (show number * p.bucketMonths + -(p.monthCount : Int) ≤ number * p.bucketMonths - p.bucketMonths by omega)
    omega

/-- Whatever lies between two instants with a date has one. -/
theorem hasDate_of_between {low high : Int} (hl : hasDate low) (hh : hasDate high) (above : low ≤ millis)
    (below : millis ≤ high) : hasDate millis :=
  hasDate_iff.mpr ⟨(hasDate_iff.mp hl).1.trans above, below.trans (hasDate_iff.mp hh).2⟩

/-- From an instant within a bucket a longer period leads past the start of the next bucket. -/
theorem exists_skipped_after (calendar : p.isCalendar) (uneven : ¬ p.Tiles) {first : Int}
    (h : p.firstBucketAtOrAfter millis = .ok first) (inside : ¬ p.IsBucketStart millis) :
    ∃ b, p.IsBucketStart b ∧ millis < b ∧ b < first := by
  have nonzero := isZero_of_isCalendar calendar
  rcases firstBucketAtOrAfter_ok nonzero h with ⟨starts, -⟩ | ⟨-, number, low, high, step⟩
  · exact absurd starts inside
  · have past := lt_addTo_bucketStart calendar uneven step
    rw [addTo_eq] at step
    have dated := hasDate_of_between (hasDate_of_moveBy step) (moveBy_ok step).2 (by omega)
      (Int.le_of_lt past)
    exact ⟨_, isBucketStart_of_hasDate nonzero dated, high, past⟩

/-- From the start of a bucket a longer period leads back past the start of the one before. -/
theorem exists_skipped_before (calendar : p.isCalendar) (uneven : ¬ p.Tiles) {last : Int}
    (h : p.lastBucketBefore millis = .ok last) (starts : p.IsBucketStart millis) :
    ∃ b, p.IsBucketStart b ∧ last < b ∧ b < millis := by
  have nonzero := isZero_of_isCalendar calendar
  rcases lastBucketBefore_ok nonzero h with ⟨number, -, rfl, step⟩ | ⟨inside, -⟩
  · have past := subtractFrom_bucketStart_lt calendar uneven step
    have below : p.bucketStart (number - 1) < p.bucketStart number :=
      bucketStart_strictMono nonzero (by omega)
    rw [subtractFrom_eq] at step
    have dated := hasDate_of_between (moveBy_ok step).2 (hasDate_of_moveBy step) (Int.le_of_lt past)
      (Int.le_of_lt below)
    exact ⟨_, isBucketStart_of_hasDate nonzero dated, past, below⟩
  · exact absurd starts inside

/-- **What longer periods skip.** For a period that goes along the calendar and is neither one month
nor one year, the bucket start found at or after an instant is the least one only if the instant
starts a bucket itself: from anywhere else a bucket start on the way is left out. The one found
before an instant is the greatest only if the instant starts no bucket: from the start of one the
bucket start before it is left out. -/
theorem nearest_buckets_longer (calendar : p.isCalendar) (notMonth : p ≠ { months := 1 })
    (notYear : p ≠ { years := 1 }) (millis : Int) :
    (∀ first, p.firstBucketAtOrAfter millis = .ok first →
      (IsLeast {b | p.IsBucketStart b ∧ millis ≤ b} first ↔ p.IsBucketStart millis) ∧
      (¬ p.IsBucketStart millis → ∃ b, p.IsBucketStart b ∧ millis < b ∧ b < first)) ∧
    (∀ last, p.lastBucketBefore millis = .ok last →
      (IsGreatest {b | p.IsBucketStart b ∧ b < millis} last ↔ ¬ p.IsBucketStart millis) ∧
      (p.IsBucketStart millis → ∃ b, p.IsBucketStart b ∧ last < b ∧ b < millis)) := by
  have nonzero := isZero_of_isCalendar calendar
  have uneven : ¬ p.Tiles := by
    intro tiles
    rcases tiles with fixed | month | year
    · rw [fixed] at calendar
      cases calendar
    · exact notMonth month
    · exact notYear year
  constructor
  · intro first h
    refine ⟨⟨fun least => ?_, fun starts => ?_⟩, exists_skipped_after calendar uneven h⟩
    · -- What is skipped on the way is a lesser start.
      by_contra inside
      obtain ⟨b, starts, after, before⟩ := exists_skipped_after calendar uneven h inside
      exact Int.not_le.mpr before (least.2 ⟨starts, Int.le_of_lt after⟩)
    · rcases firstBucketAtOrAfter_ok nonzero h with ⟨-, rfl⟩ | ⟨inside, -⟩
      · exact ⟨⟨starts, le_rfl⟩, fun b hb => hb.2⟩
      · exact absurd starts inside
  · intro last h
    refine ⟨⟨fun greatest starts => ?_, fun inside => ?_⟩, exists_skipped_before calendar uneven h⟩
    · obtain ⟨b, start, after, before⟩ := exists_skipped_before calendar uneven h starts
      exact Int.not_le.mpr after (greatest.2 ⟨start, before⟩)
    · rcases lastBucketBefore_ok nonzero h with ⟨-, starts, -⟩ | ⟨-, number, starts, rfl, low, high⟩
      · exact absurd starts inside
      · exact isGreatest_bucketStart nonzero starts low high

/-- From 1970-01-01T00:00:00.001 two months lead to the first day of March, and from the epoch back
to that of November: the first days of February and of December are left out. -/
theorem nearest_buckets_longer_twoMonths :
    (Period.isCalendar { months := 2 } = true ∧ ({ months := 2 } : Period) ≠ { months := 1 } ∧
      ({ months := 2 } : Period) ≠ { years := 1 } ∧
      Period.firstBucketAtOrAfter { months := 2 } 1 = .ok 5097600000 ∧
      Period.lastBucketBefore { months := 2 } 0 = .ok (-5270400000)) ∧
    (∃ b, Period.IsBucketStart { months := 2 } b ∧ 1 < b ∧ b < 5097600000) ∧
    ∃ b, Period.IsBucketStart { months := 2 } b ∧ -5270400000 < b ∧ b < 0 := by
  have calendar : Period.isCalendar { months := 2 } = true := by decide
  have notMonth : ({ months := 2 } : Period) ≠ { months := 1 } := by decide
  have notYear : ({ months := 2 } : Period) ≠ { years := 1 } := by decide
  have first : Period.firstBucketAtOrAfter { months := 2 } 1 = .ok 5097600000 :=
    Outcome.ok_of_toOption (by decide +kernel)
  have last : Period.lastBucketBefore { months := 2 } 0 = .ok (-5270400000) :=
    Outcome.ok_of_toOption (by decide +kernel)
  have inside : ¬ Period.IsBucketStart { months := 2 } 1 := by
    intro starts
    have start : Period.floor { months := 2 } 1 = .ok 0 := Outcome.ok_of_toOption (by decide +kernel)
    cases start.symm.trans starts
  have starts : Period.IsBucketStart { months := 2 } 0 := Outcome.ok_of_toOption (by decide +kernel)
  obtain ⟨after, -⟩ := nearest_buckets_longer calendar notMonth notYear 1
  obtain ⟨-, before⟩ := nearest_buckets_longer calendar notMonth notYear 0
  exact ⟨⟨calendar, notMonth, notYear, first, last⟩, (after _ first).2 inside, (before _ last).2 starts⟩

end DetectionPlan.Period
