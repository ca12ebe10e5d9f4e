/-
Moments and their parts, from the year down to the millisecond. A moment of the calendar is made of
its parts (`Alike.eq`), and of two that agree in the coarser parts the earlier one does not
have the greater next part (`part_le_of_alike`).
-/
import DetectionPlan.Proofs.Calendar.Instant

namespace DetectionPlan.Moment

/-- A moment that the calendar has. -/
structure Valid (m : Moment) : Prop where
  date : m.date.Valid
  time : m.time < 86400000

/-- The parts of a moment: the year, the month counted from 0, the day, the hour, the minute, the
second and the millisecond. -/
def part (m : Moment) : Nat → Int
  | 0 => m.date.year
  | 1 => m.date.month
  | 2 => m.date.day
  | 3 => m.hour
  | 4 => m.minute
  | 5 => m.second
  | _ => m.millisecond

/-- The parts that moments agree in. -/
def Alike (known : Nat) (m n : Moment) : Prop := ∀ i < known, m.part i = n.part i

instance (known : Nat) (m n : Moment) : Decidable (Alike known m n) :=
  inferInstanceAs (Decidable (∀ i < known, m.part i = n.part i))

variable {m n : Moment} {known finest : Nat}

theorem ofMillis_valid (millis : Int) : (ofMillis millis).Valid := by
  refine ⟨(Date.ofDays_spec _).1, ?_⟩
  show (millis % dayMillis).toNat < 86400000
  rw [dayMillis_eq]
  omega

theorem ofMillis_toMillis (h : m.Valid) : ofMillis m.toMillis = m := by
  have time := h.time
  have days : m.toMillis / dayMillis = m.date.toDays := by
    simp only [toMillis, dayMillis_eq]
    omega
  have rest : m.toMillis % dayMillis = m.time := by
    simp only [toMillis, dayMillis_eq]
    omega
  have date := (Date.ofDays_spec m.date.toDays).1.eq_of_toDays_eq h.date (Date.toDays_ofDays _)
  rw [ofMillis, days, rest, date]
  rfl

theorem Valid.eq_of_toMillis_eq (hm : m.Valid) (hn : n.Valid) (same : m.toMillis = n.toMillis) : m = n := by
  rw [← ofMillis_toMillis hm, ← ofMillis_toMillis hn, same]

/-! ## Agreement -/

theorem Alike.mono {fewer : Nat} (h : Alike known m n) (le : fewer ≤ known) : Alike fewer m n :=
  fun i hi => h i (Nat.lt_of_lt_of_le hi le)

theorem Alike.succ (h : Alike known m n) (next : m.part known = n.part known) : Alike (known + 1) m n := by
  intro i hi
  rcases Nat.lt_succ_iff_lt_or_eq.mp hi with before | rfl
  · exact h i before
  · exact next

theorem Alike.year (h : Alike known m n) (le : 1 ≤ known) : m.date.year = n.date.year := h 0 le

theorem Alike.month (h : Alike known m n) (le : 2 ≤ known) : m.date.month = n.date.month :=
  Int.ofNat.inj (h 1 le)

theorem Alike.day (h : Alike known m n) (le : 3 ≤ known) : m.date.day = n.date.day :=
  Int.ofNat.inj (h 2 le)

theorem Alike.date (h : Alike known m n) (le : 3 ≤ known) : m.date = n.date := by
  cases hm : m.date
  cases hn : n.date
  have year := h.year (Nat.le_of_succ_le (Nat.le_of_succ_le le))
  have month := h.month (Nat.le_of_succ_le le)
  have day := h.day le
  rw [hm, hn] at year month day
  rw [Date.mk.injEq]
  exact ⟨year, month, day⟩

theorem Alike.hour (h : Alike known m n) (le : 4 ≤ known) : m.hour = n.hour := Int.ofNat.inj (h 3 le)

theorem Alike.minute (h : Alike known m n) (le : 5 ≤ known) : m.minute = n.minute :=
  Int.ofNat.inj (h 4 le)

theorem Alike.second (h : Alike known m n) (le : 6 ≤ known) : m.second = n.second :=
  Int.ofNat.inj (h 5 le)

theorem Alike.millisecond (h : Alike known m n) (le : 7 ≤ known) : m.millisecond = n.millisecond :=
  Int.ofNat.inj (h 6 le)

/-- A moment is made of its parts. -/
theorem Alike.eq (h : Alike known m n) (le : 7 ≤ known) : m = n := by
  have date := h.date (by omega)
  have hour := h.hour (by omega)
  have minute := h.minute (by omega)
  have second := h.second (by omega)
  have millisecond := h.millisecond le
  cases m
  cases n
  simp only [Moment.hour, Moment.minute, Moment.second, Moment.millisecond] at hour minute second millisecond
  rw [mk.injEq]
  exact ⟨date, by omega⟩

/-! ## Order -/

/-- Of two moments that agree in the coarser parts the earlier one does not have the greater next
part. -/
theorem Valid.part_le_of_alike (hm : m.Valid) (hn : n.Valid) (alike : Alike known m n)
    (le : m.toMillis ≤ n.toMillis) (more : known < 7) : m.part known ≤ n.part known := by
  have timeM := hm.time
  have timeN := hn.time
  simp only [toMillis, dayMillis_eq] at le
  have days : m.date.toDays ≤ n.date.toDays := by omega
  have months := hm.date.monthIndex_mono hn.date days
  have monthM := hm.date.month
  have monthN := hn.date.month
  simp only [Date.monthIndex] at months
  rcases known with _ | _ | _ | known
  · show m.date.year ≤ n.date.year
    omega
  · have year := alike.year le_rfl
    show (m.date.month : Int) ≤ n.date.month
    omega
  · have index : m.date.monthIndex = n.date.monthIndex := by
      rw [Date.monthIndex, Date.monthIndex, alike.year (by decide), alike.month le_rfl]
    rw [Date.toDays_eq_monthStart monthM, Date.toDays_eq_monthStart monthN, index] at days
    show (m.date.day : Int) ≤ n.date.day
    omega
  · -- On one day it is the time that counts.
    rw [alike.date (Nat.le_add_left 3 known)] at le
    have hour (h : 1 ≤ known) := alike.hour (Nat.add_le_add_right h 3)
    have minute (h : 2 ≤ known) := alike.minute (Nat.add_le_add_right h 3)
    have second (h : 3 ≤ known) := alike.second (Nat.add_le_add_right h 3)
    simp only [Moment.hour, Moment.minute, Moment.second] at hour minute second
    rcases known with _ | _ | _ | _ | known
    · show (m.hour : Int) ≤ n.hour
      simp only [Moment.hour]
      omega
    · show (m.minute : Int) ≤ n.minute
      simp only [Moment.minute]
      omega
    · show (m.second : Int) ≤ n.second
      simp only [Moment.second]
      omega
    · show (m.millisecond : Int) ≤ n.millisecond
      simp only [Moment.millisecond]
      omega
    · omega

/-! ## Whole units -/

/-- The least value of a part. Days count from 1. -/
def least : Nat → Int
  | 2 => 1
  | _ => 0

/-- Moments with nothing below their finest part. -/
def Whole (finest : Nat) (m : Moment) : Prop := ∀ i < 7, finest < i → m.part i = least i

instance (finest : Nat) (m : Moment) : Decidable (Whole finest m) :=
  inferInstanceAs (Decidable (∀ i < 7, finest < i → m.part i = least i))

theorem Whole.mono {finer : Nat} (h : m.Whole finest) (le : finest ≤ finer) : m.Whole finer :=
  fun i hi below => h i hi (Nat.lt_of_le_of_lt le below)

/-- Two moments that agree down to their finest part agree below it. -/
theorem Alike.of_whole (h : Alike known m n) (le : finest < known) (hm : m.Whole finest)
    (hn : n.Whole finest) : Alike 7 m n := by
  intro i hi
  by_cases before : i < known
  · exact h i before
  · rw [hm i hi (by omega), hn i hi (by omega)]

/-- Moments with nothing below their finest part, part by part. -/
theorem whole_iff : m.Whole finest ↔
    (finest < 1 → m.date.month = 0) ∧ (finest < 2 → m.date.day = 1) ∧ (finest < 3 → m.hour = 0) ∧
      (finest < 4 → m.minute = 0) ∧ (finest < 5 → m.second = 0) ∧ (finest < 6 → m.millisecond = 0) := by
  constructor
  · intro h
    exact ⟨fun below => Int.ofNat.inj (h 1 (by decide) below), fun below => Int.ofNat.inj (h 2 (by decide) below),
      fun below => Int.ofNat.inj (h 3 (by decide) below), fun below => Int.ofNat.inj (h 4 (by decide) below),
      fun below => Int.ofNat.inj (h 5 (by decide) below), fun below => Int.ofNat.inj (h 6 (by decide) below)⟩
  · rintro ⟨month, day, hour, minute, second, millisecond⟩ i hi below
    match i, hi with
    | 1, _ => exact congrArg Int.ofNat (month below)
    | 2, _ => exact congrArg Int.ofNat (day below)
    | 3, _ => exact congrArg Int.ofNat (hour below)
    | 4, _ => exact congrArg Int.ofNat (minute below)
    | 5, _ => exact congrArg Int.ofNat (second below)
    | 6, _ => exact congrArg Int.ofNat (millisecond below)

end DetectionPlan.Moment
