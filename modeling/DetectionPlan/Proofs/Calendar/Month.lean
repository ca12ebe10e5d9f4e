/-
Days and their dates. Every day has a date, and a month holds the days from its first one to
the first one of the month after it. With the months numbered through all years, the month of
a day is the only one that the day lies in (`monthIndex_ofDays_iff`), and moving the first day
of a month leads to the first day of another (`addMonths_firstOfMonth`). Moving any two dates
keeps their order, but two days of a month can become one (`toDays_addMonths_cases`).
-/
import DetectionPlan.Calendar.Date
import Mathlib.Algebra.GroupWithZero.Nat
import Mathlib.Data.Int.ConditionallyCompleteOrder
import Mathlib.Order.SuccPred.Basic

namespace DetectionPlan

/-! ## Years -/

def yearLength (year : Int) : Nat := if isLeapYear year then 366 else 365

theorem daysBeforeYear_succ (year : Int) :
    daysBeforeYear (year + 1) = daysBeforeYear year + yearLength year := by
  unfold daysBeforeYear yearLength isLeapYear
  simp only [Bool.and_eq_true, Bool.or_eq_true, beq_iff_eq, bne_iff_ne]
  split <;> omega

theorem sum_monthLengths (year : Int) : (monthLengths year).sum = yearLength year := by
  unfold monthLengths yearLength
  split <;> rfl

namespace Date

/-- The year found for a day is the one the day lies in. -/
theorem yearOfDay_within (n : Int) :
    daysBeforeYear (yearOfDay n) ≤ n ∧ n < daysBeforeYear (yearOfDay n + 1) := by
  -- The guess is the first of these two years or the one after it.
  have low : daysBeforeYear (n * 400 / 146097) ≤ n := by
    simp only [daysBeforeYear]
    omega
  have high : n < daysBeforeYear (n * 400 / 146097 + 3) := by
    simp only [daysBeforeYear]
    omega
  simp only [yearOfDay]
  split
  next early => exact ⟨by simpa using low, by simpa using early⟩
  next notEarly =>
    split
    next late => exact ⟨late, by simpa [Int.add_assoc] using high⟩
    next notLate => omega

end Date

/-! ## Months of a year -/

theorem daysBeforeMonth_eq_sum (year : Int) (month : Nat) :
    daysBeforeMonth year month = ((monthLengths year).take month).sum :=
  List.sum_eq_foldl.symm

theorem daysBeforeMonth_succ (year : Int) (month : Nat) :
    daysBeforeMonth year (month + 1) = daysBeforeMonth year month + monthLength year month := by
  rw [daysBeforeMonth_eq_sum, daysBeforeMonth_eq_sum, List.take_add_one, List.sum_append]
  congr 1
  rw [monthLength, List.getD_eq_getElem?_getD]
  cases (monthLengths year)[month]? <;> simp

theorem daysBeforeMonth_twelve (year : Int) : daysBeforeMonth year 12 = yearLength year := by
  rw [daysBeforeMonth_eq_sum, ← sum_monthLengths]
  rfl

theorem monthLength_pos (year : Int) {month : Nat} (h : month < 12) :
    0 < monthLength year month := by
  have positive : ∀ length ∈ monthLengths year, 0 < length := by
    unfold monthLengths
    split <;> decide
  have there : month < (monthLengths year).length := h
  rw [monthLength, List.getD_eq_getElem?_getD, List.getElem?_eq_getElem there]
  exact positive _ (List.getElem_mem there)

theorem monthLength_le (year : Int) (month : Nat) : monthLength year month ≤ 31 := by
  have most : ∀ length ∈ monthLengths year, length ≤ 31 := by
    unfold monthLengths
    split <;> decide
  rw [monthLength, List.getD_eq_getElem?_getD]
  cases there : (monthLengths year)[month]? with
  | none => exact Nat.zero_le 31
  | some length => exact most length (List.mem_of_getElem? there)

namespace Date

/-- Walking along months leads to the one that holds the day. -/
theorem monthOfDay_within {lengths : List Nat} {n : Nat} (h : n < lengths.sum) :
    ∃ length, lengths[(monthOfDay lengths n).1]? = some length ∧
      (monthOfDay lengths n).2 < length ∧
      (lengths.take (monthOfDay lengths n).1).sum + (monthOfDay lengths n).2 = n := by
  induction lengths generalizing n with
  | nil => simp at h
  | cons length rest ih =>
    rw [List.sum_cons] at h
    unfold monthOfDay
    split
    next here => exact ⟨length, rfl, here, by simp⟩
    next later =>
      obtain ⟨found, there, below, total⟩ := ih (n := n - length) (by omega)
      exact ⟨found, there, below, by simp only [List.take_succ_cons, List.sum_cons]; omega⟩

/-! ## Days and dates -/

/-- A date that the calendar has. -/
structure Valid (d : Date) : Prop where
  month : d.month < 12
  first : 1 ≤ d.day
  last : d.day ≤ monthLength d.year d.month

/-- The date of a day is one of the calendar and the day's own. -/
theorem ofDays_spec (days : Int) : (ofDays days).Valid ∧ (ofDays days).toDays = days := by
  have shape : ofDays days =
      let n := days + daysBeforeEpoch
      let place := monthOfDay (monthLengths (yearOfDay n)) (n - daysBeforeYear (yearOfDay n)).toNat
      ⟨yearOfDay n, place.1, place.2 + 1⟩ := rfl
  obtain ⟨low, high⟩ := yearOfDay_within (days + daysBeforeEpoch)
  rw [daysBeforeYear_succ] at high
  rw [shape]
  dsimp only
  generalize yearOfDay (days + daysBeforeEpoch) = year at low high ⊢
  have inside : (days + daysBeforeEpoch - daysBeforeYear year).toNat < (monthLengths year).sum := by
    rw [sum_monthLengths]
    omega
  obtain ⟨length, there, below, total⟩ := monthOfDay_within inside
  generalize monthOfDay (monthLengths year) (days + daysBeforeEpoch - daysBeforeYear year).toNat =
    place at there below total ⊢
  have held : monthLength year place.1 = length := by
    rw [monthLength, List.getD_eq_getElem?_getD, there, Option.getD_some]
  refine ⟨⟨(List.getElem?_eq_some_iff.mp there).1, Nat.le_add_left _ _, held ▸ below⟩, ?_⟩
  simp only [toDays, daysBeforeMonth_eq_sum]
  omega

@[simp] theorem toDays_ofDays (days : Int) : (ofDays days).toDays = days := (ofDays_spec days).2

/-! ## Months in a row -/

/-- The month of a date, counted through all years. -/
def monthIndex (d : Date) : Int := d.year * 12 + d.month

/-- The first day of a month counted through all years. -/
def firstOfMonth (index : Int) : Date := ⟨index / 12, (index % 12).toNat, 1⟩

/-- The day on which a month counted through all years begins. -/
def monthStart (index : Int) : Int := (firstOfMonth index).toDays

theorem firstOfMonth_monthIndex {d : Date} (h : d.month < 12) :
    firstOfMonth d.monthIndex = ⟨d.year, d.month, 1⟩ := by
  unfold firstOfMonth monthIndex
  rw [mk.injEq]
  omega

/-- A month begins when the one before it is over. -/
theorem monthStart_succ (index : Int) :
    monthStart (index + 1) = monthStart index + monthLength (index / 12) (index % 12).toNat := by
  have step := daysBeforeMonth_succ (index / 12) (index % 12).toNat
  unfold monthStart firstOfMonth toDays
  dsimp only
  by_cases last : index % 12 = 11
  · have year : (index + 1) / 12 = index / 12 + 1 := by omega
    have month : (index + 1) % 12 = 0 := by omega
    have whole := daysBeforeMonth_twelve (index / 12)
    have before : daysBeforeMonth (index / 12 + 1) 0 = 0 := rfl
    rw [last] at step ⊢
    rw [year, month, daysBeforeYear_succ]
    simp only [Int.reduceToNat, Nat.reduceAdd] at step ⊢
    omega
  · have year : (index + 1) / 12 = index / 12 := by omega
    have month : ((index + 1) % 12).toNat = (index % 12).toNat + 1 := by omega
    rw [year, month]
    omega

theorem monthStart_strictMono : StrictMono monthStart :=
  strictMono_int_of_lt_succ fun index => by
    have month : (index % 12).toNat < 12 := by omega
    have := monthLength_pos (index / 12) month
    rw [monthStart_succ]
    omega

theorem toDays_eq_monthStart {d : Date} (h : d.month < 12) :
    d.toDays = monthStart d.monthIndex + d.day - 1 := by
  rw [monthStart, firstOfMonth_monthIndex h]
  simp only [toDays]
  omega

/-- The length of a month counted through all years. -/
def monthDays (index : Int) : Nat := monthLength (index / 12) (index % 12).toNat

theorem monthDays_monthIndex {d : Date} (h : d.month < 12) :
    monthDays d.monthIndex = monthLength d.year d.month := by
  unfold monthDays monthIndex
  have year : (d.year * 12 + d.month) / 12 = d.year := by omega
  have month : ((d.year * 12 + d.month) % 12).toNat = d.month := by omega
  rw [year, month]

/-- A date lies between the start of its month and the start of the next one. -/
theorem Valid.within {d : Date} (h : d.Valid) :
    monthStart d.monthIndex ≤ d.toDays ∧ d.toDays < monthStart (d.monthIndex + 1) := by
  have place := toDays_eq_monthStart h.month
  have next : monthStart (d.monthIndex + 1) = monthStart d.monthIndex + monthDays d.monthIndex :=
    monthStart_succ d.monthIndex
  have first := h.first
  have last := h.last
  rw [monthDays_monthIndex h.month] at next
  omega

/-- A day lies in the month of its date. -/
theorem ofDays_within (days : Int) :
    monthStart (ofDays days).monthIndex ≤ days ∧
      days < monthStart ((ofDays days).monthIndex + 1) := by
  have := (ofDays_spec days).1.within
  rwa [toDays_ofDays] at this

/-- And in no other. -/
theorem monthIndex_ofDays_iff {days index : Int} :
    (ofDays days).monthIndex = index ↔
      monthStart index ≤ days ∧ days < monthStart (index + 1) := by
  obtain ⟨low, high⟩ := ofDays_within days
  constructor
  · rintro rfl
    exact ⟨low, high⟩
  · rintro ⟨low', high'⟩
    have := monthStart_strictMono.lt_iff_lt.mp (low.trans_lt high')
    have := monthStart_strictMono.lt_iff_lt.mp (low'.trans_lt high)
    omega

theorem ofDays_monthStart (index : Int) : ofDays (monthStart index) = firstOfMonth index := by
  obtain ⟨valid, same⟩ := ofDays_spec (monthStart index)
  have number : (ofDays (monthStart index)).monthIndex = index :=
    monthIndex_ofDays_iff.mpr ⟨le_rfl, monthStart_strictMono (Int.lt_succ index)⟩
  have place := toDays_eq_monthStart valid.month
  rw [same, number] at place
  have day : (ofDays (monthStart index)).day = 1 := by omega
  rw [← number, firstOfMonth_monthIndex valid.month, number, ← day]

/-- From the first day of a month every number of months leads to the first day of another. -/
theorem addMonths_firstOfMonth (index months : Int) :
    (firstOfMonth index).addMonths months = firstOfMonth (index + months) := by
  have number : index / 12 * 12 + ((index % 12).toNat : Int) + months = index + months := by omega
  have month : ((index + months) % 12).toNat < 12 := by omega
  have positive := monthLength_pos ((index + months) / 12) month
  simp only [firstOfMonth, addMonths, number]
  rw [mk.injEq]
  exact ⟨rfl, rfl, by omega⟩

/-! ## Dates some months on -/

theorem addMonths_eq (d : Date) (months : Int) :
    d.addMonths months = { firstOfMonth (d.monthIndex + months) with
      day := min d.day (monthDays (d.monthIndex + months)) } := rfl

theorem monthIndex_addMonths (d : Date) (months : Int) :
    (d.addMonths months).monthIndex = d.monthIndex + months := by
  rw [addMonths_eq]
  simp only [monthIndex, firstOfMonth]
  omega

/-- Moving a date by months leads to a date that the calendar has. -/
theorem Valid.addMonths {d : Date} (h : d.Valid) (months : Int) : (d.addMonths months).Valid := by
  have month : ((d.monthIndex + months) % 12).toNat < 12 := by omega
  have positive := monthLength_pos ((d.monthIndex + months) / 12) month
  have first := h.first
  exact ⟨month, Nat.le_min.mpr ⟨first, positive⟩, Nat.min_le_right _ _⟩

theorem toDays_addMonths (d : Date) (months : Int) :
    (d.addMonths months).toDays = monthStart (d.monthIndex + months) +
      (min d.day (monthDays (d.monthIndex + months)) : Nat) - 1 := by
  have month : (d.addMonths months).month < 12 := by
    show ((d.monthIndex + months) % 12).toNat < 12
    omega
  rw [toDays_eq_monthStart month, monthIndex_addMonths]
  rfl

/-- Some months on it is a later day: the month is another one, however short it is. -/
theorem Valid.toDays_lt_addMonths {d : Date} (h : d.Valid) {months : Int} (some : 0 < months) :
    d.toDays < (d.addMonths months).toDays := by
  have next : monthStart (d.monthIndex + 1) ≤ monthStart (d.monthIndex + months) :=
    monthStart_strictMono.monotone (by omega)
  have inside := (h.addMonths months).within.1
  rw [monthIndex_addMonths] at inside
  exact h.within.2.trans_le (next.trans inside)

theorem addMonths_zero {d : Date} (h : d.Valid) : d.addMonths 0 = d := by
  have last := h.last
  rw [← monthDays_monthIndex h.month] at last
  rw [addMonths_eq, Int.add_zero, firstOfMonth_monthIndex h.month, Nat.min_eq_left last]

theorem Valid.monthIndex_mono {d e : Date} (hd : d.Valid) (he : e.Valid) (le : d.toDays ≤ e.toDays) :
    d.monthIndex ≤ e.monthIndex := by
  have early := hd.within.1
  have late := he.within.2
  have := monthStart_strictMono.lt_iff_lt.mp (show monthStart d.monthIndex < monthStart (e.monthIndex + 1) by omega)
  omega

/-- A day has no date but its own. -/
theorem Valid.eq_of_toDays_eq {d e : Date} (hd : d.Valid) (he : e.Valid) (same : d.toDays = e.toDays) :
    d = e := by
  have le := hd.monthIndex_mono he (Int.le_of_eq same)
  have ge := he.monthIndex_mono hd (Int.le_of_eq same.symm)
  have index : d.monthIndex = e.monthIndex := Int.le_antisymm le ge
  rw [toDays_eq_monthStart hd.month, toDays_eq_monthStart he.month, index] at same
  have := hd.month
  have := he.month
  unfold monthIndex at index
  cases d
  cases e
  rw [mk.injEq]
  dsimp only at *
  omega

/-- Two days of one month that are one day after a move by months: the month that the move leads
to ends before the later of them and not after the earlier one. -/
structure Meet (months : Int) (d e : Date) : Prop where
  month : d.monthIndex = e.monthIndex
  before : d.day < e.day
  ends : monthDays (d.monthIndex + months) ≤ d.day

/-- Of two dates the earlier one stays the earlier one when both are moved by months, unless the
two meet. -/
theorem toDays_addMonths_cases {d e : Date} (hd : d.Valid) (he : e.Valid) (lt : d.toDays < e.toDays)
    (months : Int) :
    (d.addMonths months).toDays < (e.addMonths months).toDays ∧ ¬ Meet months d e ∨
      (d.addMonths months).toDays = (e.addMonths months).toDays ∧ Meet months d e := by
  have order := hd.monthIndex_mono he (Int.le_of_lt lt)
  by_cases same : d.monthIndex = e.monthIndex
  · -- Within one month it is the days that count.
    have before : d.day < e.day := by
      rw [toDays_eq_monthStart hd.month, toDays_eq_monthStart he.month, same] at lt
      omega
    rw [toDays_addMonths, toDays_addMonths, ← same]
    by_cases ends : monthDays (d.monthIndex + months) ≤ d.day
    · exact .inr ⟨by omega, same, before, ends⟩
    · exact .inl ⟨by omega, fun meet => ends meet.ends⟩
  · refine .inl ⟨?_, fun meet => same meet.month⟩
    have early := (hd.addMonths months).within.2
    have late := (he.addMonths months).within.1
    rw [monthIndex_addMonths] at early late
    have between : monthStart (d.monthIndex + months + 1) ≤ monthStart (e.monthIndex + months) :=
      monthStart_strictMono.monotone (by omega)
    omega

end Date

end DetectionPlan
