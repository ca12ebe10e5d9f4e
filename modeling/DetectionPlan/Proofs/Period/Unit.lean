/-
Single units as periods, from one year down to one millisecond. Their buckets start at the moments
with nothing below the unit (`isBucketStart_unit_iff`), and the search for the next start finds the least
one whenever it lies within the years of four digits (`firstBucketAtOrAfter_unit`).
-/
import DetectionPlan.Proofs.Calendar.Part
import DetectionPlan.Proofs.Period.Neighbour

namespace DetectionPlan.Period

open Outcome (bind_ok_iff)

variable {rank : Nat} {m : Moment} {millis : Int}

/-- The units that a moment's parts count, from the coarsest down. -/
def unit : Nat → Period
  | 0 => { years := 1 }
  | 1 => { months := 1 }
  | 2 => { days := 1 }
  | 3 => { hours := 1 }
  | 4 => { minutes := 1 }
  | 5 => { seconds := 1 }
  | _ => { millis := 1 }

theorem unit_isZero (rank : Nat) : (unit rank).isZero = false := by
  unfold unit
  split <;> decide

theorem unit_tiles (rank : Nat) : (unit rank).Tiles := by
  unfold unit
  split
  · exact .inr (.inr rfl)
  · exact .inr (.inl rfl)
  all_goals exact .inl rfl

/-! ## Where buckets start -/

variable {p : Period}

/-- The first day of a date's bucket is a date of the calendar. -/
theorem calendarFloor_valid (p : Period) {d : Date} (h : d.Valid) : (p.calendarFloor d).Valid := by
  have month : (p.calendarFloor d).month < 12 := by
    show (if p.months == 0 then 0 else d.month) < 12
    split
    · decide
    · exact h.month
  exact ⟨month, le_rfl, monthLength_pos _ month⟩

/-- A bucket of the calendar starts at midnight of its first day. -/
theorem isBucketStart_calendar (calendar : p.isCalendar) (valid : m.Valid) (dated : hasDate m.toMillis) :
    p.IsBucketStart m.toMillis ↔ p.calendarFloor m.date = m.date ∧ m.time = 0 := by
  have floored : p.floor m.toMillis = .ok (Moment.mk (p.calendarFloor m.date) 0).toMillis := by
    rw [floor_calendar calendar, withDate, moment?, if_pos dated, Moment.ofMillis_toMillis valid]
    rfl
  have start : (Moment.mk (p.calendarFloor m.date) 0).Valid :=
    ⟨p.calendarFloor_valid valid.date, Nat.zero_lt_succ _⟩
  rw [IsBucketStart, floored, Except.ok.injEq]
  constructor
  · intro same
    have whole := start.eq_of_toMillis_eq valid same
    exact ⟨congrArg Moment.date whole, (congrArg Moment.time whole).symm⟩
  · rintro ⟨date, time⟩
    rw [date, ← time]

/-- A bucket that has a length and begins at the epoch starts at each multiple of the length. -/
theorem isBucketStart_fixed (nonzero : p.isZero = false) (fixed : p.isCalendar = false)
    (origin : p.origin = 0) (dated : hasDate millis) :
    p.IsBucketStart millis ↔ millis % p.fixedPart = 0 := by
  have fits := fitsInt64_of_hasDate dated
  have place := Int.emod_add_ediv_mul millis p.fixedPart
  rw [IsBucketStart, floor_ok_iff nonzero fixed, origin, Int.sub_zero, Int.add_zero]
  constructor
  · rintro ⟨-, -, -, multiple⟩
    omega
  · intro whole
    have multiple : millis / p.fixedPart * p.fixedPart = millis := by omega
    rw [multiple]
    exact ⟨fits, fits, fits, rfl⟩

/-- From the day down the buckets of a unit start at the multiples of its length. -/
theorem isBucketStart_length {length : Int} (fixed : 2 ≤ rank) (long : (unit rank).fixedPart = length)
    (dated : hasDate millis) : (unit rank).IsBucketStart millis ↔ millis % length = 0 := by
  have clock : (unit rank).isCalendar = false ∧ (unit rank).origin = 0 := by
    unfold unit
    split
    · omega
    · omega
    all_goals decide
  rw [isBucketStart_fixed (unit_isZero rank) clock.1 clock.2 dated, long]

/-- The buckets of a unit start at the moments with nothing below it. -/
theorem isBucketStart_unit_iff (valid : m.Valid) (dated : hasDate m.toMillis) (small : rank < 7) :
    (unit rank).IsBucketStart m.toMillis ↔ m.Whole rank := by
  have time := valid.time
  have place : m.toMillis = m.date.toDays * 86400000 + m.time := rfl
  rw [Moment.whole_iff]
  simp only [Moment.hour, Moment.minute, Moment.second, Moment.millisecond]
  obtain rfl | rfl | rfl | rfl | rfl | rfl | rfl : rank = 0 ∨ rank = 1 ∨ rank = 2 ∨ rank = 3 ∨ rank = 4 ∨
    rank = 5 ∨ rank = 6 := by omega
  -- Years and months go along the calendar, all other units have one length.
  · have floor : (unit 0).calendarFloor m.date = ⟨m.date.year, 0, 1⟩ := rfl
    rw [isBucketStart_calendar (by decide) valid dated, floor]
    cases m.date
    simp only [Date.mk.injEq, true_and]
    omega
  · have floor : (unit 1).calendarFloor m.date = ⟨m.date.year, m.date.month, 1⟩ := rfl
    rw [isBucketStart_calendar (by decide) valid dated, floor]
    cases m.date
    simp only [Date.mk.injEq, true_and]
    omega
  · have length : (unit 2).fixedPart = 86400000 := by decide
    rw [isBucketStart_length (by decide) length dated]
    omega
  · have length : (unit 3).fixedPart = 3600000 := by decide
    rw [isBucketStart_length (by decide) length dated]
    omega
  · have length : (unit 4).fixedPart = 60000 := by decide
    rw [isBucketStart_length (by decide) length dated]
    omega
  · have length : (unit 5).fixedPart = 1000 := by decide
    rw [isBucketStart_length (by decide) length dated]
    omega
  · have length : (unit 6).fixedPart = 1 := by decide
    rw [isBucketStart_length (by decide) length dated]
    omega

/-! ## The next start -/

/-- A step succeeds if the instant, the one some months on and the one where the step ends all have
dates. -/
theorem addTo_of_hasDate {moved : Int} (dated : hasDate millis) (months : p.monthCount < 2147483648)
    (place : moved = (Moment.mk ((Moment.ofMillis millis).date.addMonths p.monthCount)
      (Moment.ofMillis millis).time).toMillis)
    (middle : hasDate moved) (last : hasDate (moved + p.fixedPart)) :
    p.addTo millis = .ok (moved + p.fixedPart) := by
  have found : withDate millis = .ok (.ofMillis millis) := withDate_ok_iff.mpr ⟨dated, rfl⟩
  have number : p.calendarMonths = .ok p.monthCount := by
    refine if_pos (show p.monthCount ≤ maxWord32 from ?_)
    simp only [maxWord32]
    omega
  have date : (if (p.monthCount : Int) == 0 then (Moment.ofMillis millis).date
      else (Moment.ofMillis millis).date.addMonths p.monthCount) =
        (Moment.ofMillis millis).date.addMonths p.monthCount := by
    split
    next zero =>
      rw [eq_of_beq zero, Date.addMonths_zero (Moment.ofMillis_valid millis).date]
    next => rfl
  have shifted : shift? (.ofMillis millis) p.monthCount p.fixedPart = some (moved + p.fixedPart) := by
    unfold shift?
    rw [date, if_pos (by omega)]
    simp only [← place, middle, last, Bool.and_self, if_true]
  refine bind_ok_iff.mpr ⟨_, found, bind_ok_iff.mpr ⟨_, number, ?_⟩⟩
  rw [shifted]

/-- From the start of a bucket a period as long as its buckets leads to the next start, if both have
dates. -/
theorem addTo_bucketStart_of_hasDate (tiles : p.Tiles) {number : Int}
    (dated : hasDate (p.bucketStart number)) (last : hasDate (p.bucketStart (number + 1))) :
    p.addTo (p.bucketStart number) = .ok (p.bucketStart (number + 1)) := by
  by_cases calendar : p.isCalendar
  · obtain ⟨months, none⟩ := tiles.monthCount_eq calendar
    have next : p.bucketStart (number + 1) = (Moment.mk ((Moment.ofMillis
        (p.bucketStart number)).date.addMonths p.monthCount)
          (Moment.ofMillis (p.bucketStart number)).time).toMillis := by
      simp only [bucketStart, if_pos calendar]
      rw [Moment.ofMillis_monthStart]
      dsimp only
      rw [Date.addMonths_firstOfMonth, months, Int.add_mul, Int.one_mul]
      exact (Int.add_zero _).symm
    have few : p.monthCount < 2147483648 := by
      rcases p.bucketMonths_cases with unit | unit <;> omega
    have := addTo_of_hasDate dated few next last (by rwa [none, Int.add_zero])
    rwa [none, Int.add_zero] at this
  · have fixed : p.isCalendar = false := Bool.eq_false_iff.mpr calendar
    have months := monthCount_of_fixed fixed
    have next : p.bucketStart (number + 1) = p.bucketStart number + p.fixedPart := by
      simp only [bucketStart, fixed, Bool.false_eq_true, if_false, Int.add_mul, Int.one_mul]
      omega
    rw [next] at last ⊢
    refine addTo_of_hasDate dated (by omega) ?_ dated last
    rw [months, Int.natCast_zero, Date.addMonths_zero (Moment.ofMillis_valid _).date]
    exact (Moment.toMillis_ofMillis _).symm

/-- The years of four digits. -/
def IsFourDigit (year : Int) : Prop := 0 ≤ year ∧ year ≤ 9999

theorem bounds_of_year (valid : m.Valid) (year : IsFourDigit m.date.year) :
    firstInstant < m.toMillis ∧ m.toMillis ≤ lastInstant := by
  have first : Date.monthStart 0 = -719528 := by decide +kernel
  have last : Date.monthStart 120000 = 2932897 := by decide +kernel
  obtain ⟨low, high⟩ := year
  have month := valid.date.month
  obtain ⟨after, before⟩ := valid.date.within
  have time := valid.time
  have bottom := Date.monthStart_strictMono.monotone (show (0 : Int) ≤ m.date.monthIndex by
    simp only [Date.monthIndex]
    omega)
  have top := Date.monthStart_strictMono.monotone (show m.date.monthIndex + 1 ≤ (120000 : Int) by
    simp only [Date.monthIndex]
    omega)
  rw [Moment.toMillis, dayMillis_eq, firstInstant, lastInstant]
  omega

theorem hasDate_of_year (valid : m.Valid) (year : IsFourDigit m.date.year) : hasDate m.toMillis := by
  obtain ⟨low, high⟩ := bounds_of_year valid year
  exact hasDate_iff.mpr ⟨Int.le_of_lt low, high⟩

/-- The start of the calendar starts a bucket of every unit. -/
theorem exists_unit_bucketStart_eq_firstInstant (rank : Nat) :
    ∃ number, (unit rank).bucketStart number = firstInstant := by
  by_cases calendar : (unit rank).isCalendar
  · exact exists_bucketStart_eq_firstInstant calendar
  · refine ⟨firstInstant / (unit rank).fixedPart, ?_⟩
    unfold unit at calendar ⊢
    split <;> first | exact absurd rfl calendar | decide

/-- The search for the next start finds the least one at or after an instant if that one has a
date and is not the start of the calendar. -/
theorem firstBucketAtOrAfter_unit {first : Int} (low : firstInstant < first) (high : first ≤ lastInstant)
    (least : IsLeast {b | (unit rank).IsBucketStart b ∧ millis ≤ b} first) :
    (unit rank).firstBucketAtOrAfter millis = .ok first := by
  have nonzero := unit_isZero rank
  have mono := bucketStart_strictMono nonzero
  obtain ⟨⟨starts, le⟩, below⟩ := least
  by_cases same : millis = first
  · rw [same]
    exact bind_ok_iff.mpr ⟨first, starts, if_pos BEq.rfl⟩
  · obtain ⟨number, rfl⟩ := starts.exists_number nonzero
    have next : number - 1 + 1 = number := by omega
    -- The start before has a date as well, so it lies before the instant.
    obtain ⟨origin, begins⟩ := exists_unit_bucketStart_eq_firstInstant rank
    have later : origin < number := mono.lt_iff_lt.mp (begins ▸ low)
    have early := mono.monotone (show origin ≤ number - 1 by omega)
    have step := mono (show number - 1 < number by omega)
    have dated : hasDate ((unit rank).bucketStart (number - 1)) := hasDate_iff.mpr ⟨by omega, by omega⟩
    have before : (unit rank).bucketStart (number - 1) < millis := by
      by_contra after
      exact absurd (below ⟨isBucketStart_of_hasDate nonzero dated, by omega⟩) (by omega)
    obtain ⟨floored, hf⟩ := exists_floor nonzero (hasDate_iff.mpr ⟨by omega, by omega⟩ : hasDate millis)
    obtain ⟨found, rfl, under, beyond⟩ := floor_spec nonzero hf
    have notAfter : found < number := mono.lt_iff_lt.mp (by omega)
    have notBefore : number - 1 < found + 1 := mono.lt_iff_lt.mp (before.trans beyond)
    obtain rfl : found = number - 1 := by omega
    refine bind_ok_iff.mpr ⟨_, hf, ?_⟩
    rw [if_neg (by simpa using Int.ne_of_lt before)]
    have stepped := addTo_bucketStart_of_hasDate (unit_tiles rank) dated
      (by rw [next]; exact hasDate_iff.mpr ⟨Int.le_of_lt low, high⟩)
    rwa [next] at stepped

end DetectionPlan.Period
