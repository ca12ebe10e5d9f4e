/-
The order of the texts that a date pattern writes. Texts are compared from the left, so a pattern
keeps the order of time if it writes the parts of a date from the coarsest down, each with a fixed
width, before anything that depends on them (`keepsOrder`). Every other pattern turns some two
instants around or writes them alike (`exists_turned`).
-/
import DetectionPlan.Proofs.Period.Unit
import DetectionPlan.Proofs.Text.Order
import DetectionPlan.TimeFormat.Pattern

namespace DetectionPlan

open Moment (Alike)
open Period (IsFourDigit)

/-- A moment of a year of four digits with nothing below its finest part. -/
structure Moment.Told (finest : Nat) (m : Moment) : Prop where
  valid : m.Valid
  year : IsFourDigit m.date.year
  whole : m.Whole finest

namespace PatternItem

variable {item : PatternItem} {m n : Moment} {known finest i : Nat}

/-- The part of a moment that an item tells something about. -/
def rank? : PatternItem → Option Nat
  | year | shortYear => some 0
  | number .month _ | monthName _ => some 1
  | number .day _ => some 2
  | number .hour _ | number .clockHour _ => some 3
  | number .minute _ => some 4
  | number .second _ => some 5
  | millis => some 6
  | text _ | weekdayName _ | halfDay | offset _ => none

/-- Whether an item writes its part in full and always with the same width. -/
def isFull : PatternItem → Bool
  | year | millis => true
  | number part padded => padded && part != .clockHour
  | _ => false

/-- How many parts of a moment, from the year on, decide what an item writes, if there is nothing
below the finest part. -/
def needs (finest : Nat) : PatternItem → Nat
  | weekdayName _ => min 3 (finest + 1)
  | halfDay => if finest < 3 then 0 else 4
  | item => (item.rank?.map (· + 1)).getD 0

theorem needs_of_rank? (h : item.rank? = some i) : item.needs finest = i + 1 := by
  cases item with
  | weekdayName full => cases h
  | halfDay => cases h
  | _ => simp only [needs, h, Option.map_some, Option.getD_some]

theorem rank?_lt (h : item.rank? = some i) : i < 7 := by
  unfold rank? at h
  split at h <;> cases h <;> decide

/-- Moments that agree in the parts that decide are written alike. -/
theorem render_eq (enough : item.needs finest ≤ known) (alike : Alike known m n) (hm : m.Whole finest)
    (hn : n.Whole finest) : item.render m = item.render n := by
  cases item with
  | text c => rfl
  | offset colon => rfl
  | year => rw [render, render, alike.year enough]
  | shortYear => rw [render, render, alike.year enough]
  | monthName full => rw [render, render, alike.month enough]
  | millis => rw [render, render, alike.millisecond enough]
  | number part padded =>
    have same : partValue m part = partValue n part := by
      cases part with
      | month => exact congrArg (· + 1) (alike.month enough)
      | day => exact alike.day enough
      | hour => exact alike.hour enough
      | clockHour => exact congrArg clockHour (alike.hour enough)
      | minute => exact alike.minute enough
      | second => exact alike.second enough
    rw [render, render, same]
  | weekdayName full =>
    have date : m.date = n.date := by
      rcases min_le_iff.mp enough with dates | all
      · exact alike.date dates
      · exact (alike.of_whole all hm hn).date (by decide)
    rw [render, render, date]
  | halfDay =>
    have hour : m.hour = n.hour := by
      by_cases days : finest < 3
      · rw [(Moment.whole_iff.mp hm).2.2.1 days, (Moment.whole_iff.mp hn).2.2.1 days]
      · exact alike.hour (by simpa [needs, days] using enough)
    rw [render, render, hour]

theorem yearText_eq {year : Int} (h : IsFourDigit year) : yearText year = padZeros 4 year.toNat :=
  if_pos (Bool.and_eq_true_iff.mpr ⟨decide_eq_true h.1, decide_eq_true h.2⟩)

/-- Of two moments the one with the lesser part has the lesser text of it. -/
theorem render_lt (full : item.isFull) (rank : item.rank? = some i) (hm : m.Told finest) (hn : n.Told finest)
    (lt : m.part i < n.part i) :
    (item.render m).toList.length = (item.render n).toList.length ∧
      (item.render m).toList < (item.render n).toList := by
  have month := hn.valid.date.month
  have day := hn.valid.date.last.trans (monthLength_le _ _)
  have time := hn.valid.time
  cases item with
  | year =>
    cases rank
    have lt : m.date.year < n.date.year := lt
    obtain ⟨low, -⟩ := hm.year
    obtain ⟨low', high'⟩ := hn.year
    rw [render, render, yearText_eq hm.year, yearText_eq hn.year]
    exact padZeros_lt (by decide) (by omega) (show n.date.year.toNat < 10000 by omega)
  | millis =>
    cases rank
    exact padZeros_lt (by decide) (Int.ofNat_lt.mp lt) (show n.time % 1000 < 1000 by omega)
  | number part padded =>
    obtain ⟨rfl, clock⟩ := Bool.and_eq_true_iff.mp full
    cases part with
    | month =>
      cases rank
      have lt : m.date.month < n.date.month := Int.ofNat_lt.mp lt
      exact padZeros_lt (by decide) (Nat.succ_lt_succ lt) (show n.date.month + 1 < 100 by omega)
    | day =>
      cases rank
      exact padZeros_lt (by decide) (Int.ofNat_lt.mp lt) (show n.date.day < 100 by omega)
    | hour =>
      cases rank
      exact padZeros_lt (by decide) (Int.ofNat_lt.mp lt) (show n.time / 3600000 < 100 by omega)
    | minute =>
      cases rank
      exact padZeros_lt (by decide) (Int.ofNat_lt.mp lt) (show n.time / 60000 % 60 < 100 by omega)
    | second =>
      cases rank
      exact padZeros_lt (by decide) (Int.ofNat_lt.mp lt) (show n.time / 1000 % 60 < 100 by omega)
    | clockHour => cases clock
  | _ => cases full

/-- The earlier of two moments of one day is not in the later half of it. -/
theorem render_halfDay (hm : m.Valid) (hn : n.Valid) (alike : Alike 3 m n) (le : m.toMillis ≤ n.toMillis) :
    halfDay.render m = halfDay.render n ∨
      (halfDay.render m).toList.length = (halfDay.render n).toList.length ∧
        (halfDay.render m).toList < (halfDay.render n).toList := by
  have hours : m.hour ≤ n.hour := Int.ofNat_le.mp (hm.part_le_of_alike hn alike le (by decide))
  simp only [render]
  by_cases late : m.hour < 12
  · rw [if_pos late]
    by_cases late' : n.hour < 12
    · rw [if_pos late']
      exact .inl rfl
    · rw [if_neg late']
      exact .inr (by decide)
  · rw [if_neg late, if_neg (by omega)]
    exact .inl rfl

end PatternItem

namespace DatePattern

variable {items : List PatternItem} {m n : Moment} {known finest : Nat}

/-- What items write for a moment. -/
def written (items : List PatternItem) (m : Moment) : List Char :=
  items.flatMap fun item => (item.render m).toList

theorem toList_render (p : DatePattern) (m : Moment) : (p.render m).toList = written p.items m := by
  rw [render, String.toList_join, List.flatMap_map]
  rfl

/-- Whether an item writes all moments alike that agree in the parts known, or puts the morning
before the afternoon where the day is all that is known. -/
def settled (finest known : Nat) (item : PatternItem) : Bool :=
  item.needs finest ≤ known || (item == .halfDay && known == 3)

/-- Whether items keep the order of moments with nothing below the finest part that agree in the
parts known: they write one more part after the other in full and, until then, nothing that takes
more parts to decide. -/
def keepsOrderFrom (finest : Nat) : (known : Nat) → List PatternItem → Bool
  | known, [] => finest < known
  | known, item :: rest =>
    if item.isFull && item.rank? == some known then keepsOrderFrom finest (known + 1) rest
    else settled finest known item && keepsOrderFrom finest known rest

/-- Of two moments the earlier one has the lesser text. -/
theorem written_lt (keeps : keepsOrderFrom finest known items) (hm : m.Told finest) (hn : n.Told finest)
    (alike : Alike known m n) (lt : m.toMillis < n.toMillis) : written items m < written items n := by
  induction items generalizing known with
  | nil =>
    have same : m = n :=
      (alike.of_whole (of_decide_eq_true keeps) hm.whole hn.whole).eq le_rfl
    exact absurd (same ▸ lt) (lt_irrefl _)
  | cons item rest ih =>
    have equal (text : item.render m = item.render n) (later : written rest m < written rest n) :
        written (item :: rest) m < written (item :: rest) n := by
      simp only [written, List.flatMap_cons]
      rw [text]
      exact append_lt_append_left_iff.mpr later
    unfold keepsOrderFrom at keeps
    split at keeps
    next next =>
      obtain ⟨full, isNext⟩ := Bool.and_eq_true_iff.mp next
      have rank := eq_of_beq isNext
      have le := hm.valid.part_le_of_alike hn.valid alike (Int.le_of_lt lt) (PatternItem.rank?_lt rank)
      -- The first part in which the moments differ decides; all before it is written alike.
      rcases Int.lt_or_eq_of_le le with less | same
      · obtain ⟨length, first⟩ := PatternItem.render_lt full rank hm hn less
        exact append_lt_append length first
      · have alike := alike.succ same
        have needs : item.needs finest ≤ known + 1 := Nat.le_of_eq (PatternItem.needs_of_rank? rank)
        exact equal (PatternItem.render_eq needs alike hm.whole hn.whole) (ih keeps alike)
    next =>
      obtain ⟨fixed, later⟩ := Bool.and_eq_true_iff.mp keeps
      rcases Bool.or_eq_true_iff.mp fixed with enough | half
      · exact equal (PatternItem.render_eq (of_decide_eq_true enough) alike hm.whole hn.whole) (ih later alike)
      · obtain ⟨isHalf, isDay⟩ := Bool.and_eq_true_iff.mp half
        rw [eq_of_beq isHalf] at equal ⊢
        rcases PatternItem.render_halfDay hm.valid hn.valid (eq_of_beq isDay ▸ alike) (Int.le_of_lt lt) with
          same | ⟨length, first⟩
        · exact equal same (ih later alike)
        · exact append_lt_append length first

/-! ## Patterns that do not keep the order -/

/-- Two moments, the earlier one first, that a pattern with a finest part tells apart only below the
parts known. They are in one half of the day if the day is known. -/
structure Pair (finest known : Nat) (m n : Moment) : Prop where
  first : m.Told finest
  second : n.Told finest
  alike : Alike known m n
  half : 3 ≤ known → PatternItem.halfDay.render m = PatternItem.halfDay.render n
  lt : m.toMillis < n.toMillis

instance (d : Date) : Decidable d.Valid :=
  decidable_of_iff (d.month < 12 ∧ 1 ≤ d.day ∧ d.day ≤ monthLength d.year d.month)
    ⟨fun ⟨month, first, last⟩ => ⟨month, first, last⟩, fun h => ⟨h.month, h.first, h.last⟩⟩

instance (m : Moment) : Decidable m.Valid :=
  decidable_of_iff (m.date.Valid ∧ m.time < 86400000)
    ⟨fun ⟨date, time⟩ => ⟨date, time⟩, fun h => ⟨h.date, h.time⟩⟩

instance (year : Int) : Decidable (IsFourDigit year) := inferInstanceAs (Decidable (_ ∧ _))

instance (finest : Nat) (m : Moment) : Decidable (m.Told finest) :=
  decidable_of_iff (m.Valid ∧ IsFourDigit m.date.year ∧ m.Whole finest)
    ⟨fun ⟨valid, year, whole⟩ => ⟨valid, year, whole⟩, fun h => ⟨h.valid, h.year, h.whole⟩⟩

instance (finest known : Nat) (m n : Moment) : Decidable (Pair finest known m n) :=
  decidable_of_iff (m.Told finest ∧ n.Told finest ∧ Alike known m n ∧
      (3 ≤ known → PatternItem.halfDay.render m = PatternItem.halfDay.render n) ∧ m.toMillis < n.toMillis)
    ⟨fun ⟨first, second, alike, half, lt⟩ => ⟨first, second, alike, half, lt⟩,
      fun h => ⟨h.first, h.second, h.alike, h.half, h.lt⟩⟩

theorem Pair.mono {coarser more : Nat} (h : Pair coarser more m n) (le : coarser ≤ finest)
    (le' : known ≤ more) : Pair finest known m n :=
  ⟨⟨h.first.valid, h.first.year, h.first.whole.mono le⟩, ⟨h.second.valid, h.second.year, h.second.whole.mono le⟩,
    h.alike.mono le', fun day => h.half (day.trans le'), h.lt⟩

/-- An item puts the later of two such moments first, whatever follows. -/
def Turns (finest known : Nat) (item : PatternItem) : Prop :=
  ∃ m n, Pair finest known m n ∧ comesAfter (item.render m).toList (item.render n).toList

theorem turns_of {coarser more : Nat} {item : PatternItem} (pair : Pair coarser more m n)
    (after : comesAfter (item.render m).toList (item.render n).toList) (le : coarser ≤ finest)
    (le' : known ≤ more) : Turns finest known item :=
  ⟨m, n, pair.mono le le', after⟩

/-- Moments that differ in the next part alone. -/
theorem exists_pair (small : known < 7) : ∃ m n, Pair known known m n := by
  match known, small with
  | 0, _ => exact ⟨⟨⟨2000, 0, 1⟩, 0⟩, ⟨⟨2001, 0, 1⟩, 0⟩, by decide +kernel⟩
  | 1, _ => exact ⟨⟨⟨2000, 0, 1⟩, 0⟩, ⟨⟨2000, 1, 1⟩, 0⟩, by decide +kernel⟩
  | 2, _ => exact ⟨⟨⟨2000, 0, 1⟩, 0⟩, ⟨⟨2000, 0, 2⟩, 0⟩, by decide +kernel⟩
  | 3, _ => exact ⟨⟨⟨2000, 0, 1⟩, 0⟩, ⟨⟨2000, 0, 1⟩, 3600000⟩, by decide +kernel⟩
  | 4, _ => exact ⟨⟨⟨2000, 0, 1⟩, 0⟩, ⟨⟨2000, 0, 1⟩, 60000⟩, by decide +kernel⟩
  | 5, _ => exact ⟨⟨⟨2000, 0, 1⟩, 0⟩, ⟨⟨2000, 0, 1⟩, 1000⟩, by decide +kernel⟩
  | 6, _ => exact ⟨⟨⟨2000, 0, 1⟩, 0⟩, ⟨⟨2000, 0, 1⟩, 1⟩, by decide +kernel⟩

/-- A number that is not the next part in full comes after a part that is missing, or it is not
padded: then 2 is written after 10. -/
theorem turns_number {part : DatePart} {padded : Bool} {i : Nat} {m' n' : Moment}
    (missing : Pair i (i - 1) m n) (two : PatternItem.partValue m part = 2)
    (one : PatternItem.partValue n part = 1) (unpadded : Pair i i m' n')
    (two' : PatternItem.partValue m' part = 2) (ten : PatternItem.partValue n' part = 10)
    (rank : (PatternItem.number part padded).rank? = some i) (clock : part ≠ .clockHour)
    (notNext : ¬ ((PatternItem.number part padded).isFull ∧ (PatternItem.number part padded).rank? = some known))
    (short : known < i + 1) (fine : i ≤ finest) : Turns finest known (.number part padded) := by
  by_cases before : known < i
  · refine turns_of missing ?_ fine (by omega)
    rw [PatternItem.render, PatternItem.render, two, one]
    cases padded <;> decide +kernel
  · have last : known = i := by omega
    have bare : padded = false := by
      by_contra other
      refine notNext ⟨Bool.and_eq_true_iff.mpr ⟨Bool.of_not_eq_false other, bne_iff_ne.mpr clock⟩, ?_⟩
      rw [rank, last]
    refine turns_of unpadded ?_ fine (by omega)
    rw [PatternItem.render, PatternItem.render, two', ten, bare]
    decide +kernel

/-- The part of a date or a time that is not the next one in full. -/
theorem turns_part {part : DatePart} {padded : Bool}
    (fine : ∀ i, (PatternItem.number part padded).rank? = some i → i ≤ finest)
    (notNext : ¬ ((PatternItem.number part padded).isFull ∧ (PatternItem.number part padded).rank? = some known))
    (short : known < (PatternItem.number part padded).needs finest) :
    Turns finest known (.number part padded) := by
  cases part with
  | month =>
    have missing : Pair 1 0 ⟨⟨2000, 1, 1⟩, 0⟩ ⟨⟨2001, 0, 1⟩, 0⟩ := by decide +kernel
    have unpadded : Pair 1 1 ⟨⟨2000, 1, 1⟩, 0⟩ ⟨⟨2000, 9, 1⟩, 0⟩ := by decide +kernel
    exact turns_number missing rfl rfl unpadded rfl rfl rfl nofun notNext short (fine 1 rfl)
  | day =>
    have missing : Pair 2 1 ⟨⟨2000, 0, 2⟩, 0⟩ ⟨⟨2000, 1, 1⟩, 0⟩ := by decide +kernel
    have unpadded : Pair 2 2 ⟨⟨2000, 0, 2⟩, 0⟩ ⟨⟨2000, 0, 10⟩, 0⟩ := by decide +kernel
    exact turns_number missing rfl rfl unpadded rfl rfl rfl nofun notNext short (fine 2 rfl)
  | hour =>
    have missing : Pair 3 2 ⟨⟨2000, 0, 1⟩, 7200000⟩ ⟨⟨2000, 0, 2⟩, 3600000⟩ := by decide +kernel
    have unpadded : Pair 3 3 ⟨⟨2000, 0, 1⟩, 7200000⟩ ⟨⟨2000, 0, 1⟩, 36000000⟩ := by decide +kernel
    exact turns_number missing rfl rfl unpadded rfl rfl rfl nofun notNext short (fine 3 rfl)
  | minute =>
    have missing : Pair 4 3 ⟨⟨2000, 0, 1⟩, 120000⟩ ⟨⟨2000, 0, 1⟩, 3660000⟩ := by decide +kernel
    have unpadded : Pair 4 4 ⟨⟨2000, 0, 1⟩, 120000⟩ ⟨⟨2000, 0, 1⟩, 600000⟩ := by decide +kernel
    exact turns_number missing rfl rfl unpadded rfl rfl rfl nofun notNext short (fine 4 rfl)
  | second =>
    have missing : Pair 5 4 ⟨⟨2000, 0, 1⟩, 2000⟩ ⟨⟨2000, 0, 1⟩, 61000⟩ := by decide +kernel
    have unpadded : Pair 5 5 ⟨⟨2000, 0, 1⟩, 2000⟩ ⟨⟨2000, 0, 1⟩, 10000⟩ := by decide +kernel
    exact turns_number missing rfl rfl unpadded rfl rfl rfl nofun notNext short (fine 5 rfl)
  | clockHour =>
    have short : known < 4 := short
    cases padded with
    | true =>
      -- Midnight is hour 12.
      have pair : Pair 3 3 ⟨⟨2000, 0, 1⟩, 0⟩ ⟨⟨2000, 0, 1⟩, 3600000⟩ := by decide +kernel
      exact turns_of pair (by decide +kernel) (fine 3 rfl) (by omega)
    | false =>
      have pair : Pair 3 3 ⟨⟨2000, 0, 1⟩, 7200000⟩ ⟨⟨2000, 0, 1⟩, 36000000⟩ := by decide +kernel
      exact turns_of pair (by decide +kernel) (fine 3 rfl) (by omega)

/-- The name of a weekday, which no part of a date decides but all of them together. -/
theorem turns_weekdayName {full : Bool} (short : known < min 3 (finest + 1)) :
    Turns finest known (.weekdayName full) := by
  obtain ⟨dates, parts⟩ := Nat.lt_min.mp short
  by_cases years : finest = 0
  · -- Saturday, and a Monday one year later.
    have pair : Pair 0 0 ⟨⟨2000, 0, 1⟩, 0⟩ ⟨⟨2001, 0, 1⟩, 0⟩ := by decide +kernel
    refine turns_of pair ?_ (Nat.zero_le _) (by omega)
    cases full <;> decide +kernel
  · by_cases months : finest = 1
    · -- Wednesday, and a Saturday one month later.
      have pair : Pair 1 1 ⟨⟨2000, 2, 1⟩, 0⟩ ⟨⟨2000, 3, 1⟩, 0⟩ := by decide +kernel
      refine turns_of pair ?_ (by omega) (by omega)
      cases full <;> decide +kernel
    · -- Saturday, and the Monday after it.
      have pair : Pair 2 2 ⟨⟨2000, 0, 1⟩, 0⟩ ⟨⟨2000, 0, 3⟩, 0⟩ := by decide +kernel
      refine turns_of pair ?_ (by omega) (by omega)
      cases full <;> decide +kernel

/-- An item that takes more parts than are known and is not the next part in full turns some two
moments around. -/
theorem turns_of_unsettled {item : PatternItem} (fine : ∀ i, item.rank? = some i → i ≤ finest)
    (notNext : ¬ (item.isFull ∧ item.rank? = some known)) (unsettled : settled finest known item = false) :
    Turns finest known item := by
  obtain ⟨few, notHalf⟩ := Bool.or_eq_false_iff.mp unsettled
  have short : known < item.needs finest := Nat.lt_of_not_le (of_decide_eq_false few)
  cases item with
  | text c => exact absurd short (Nat.not_lt_zero _)
  | offset colon => exact absurd short (Nat.not_lt_zero _)
  | year =>
    have short : known < 1 := short
    exact absurd ⟨rfl, congrArg some (by omega)⟩ notNext
  | shortYear =>
    have short : known < 1 := short
    have pair : Pair 0 0 ⟨⟨1999, 0, 1⟩, 0⟩ ⟨⟨2000, 0, 1⟩, 0⟩ := by decide +kernel
    exact turns_of pair (by decide +kernel) (Nat.zero_le _) (by omega)
  | monthName full =>
    have short : known < 2 := short
    have pair : Pair 1 1 ⟨⟨2000, 0, 1⟩, 0⟩ ⟨⟨2000, 1, 1⟩, 0⟩ := by decide +kernel
    refine turns_of pair ?_ (fine 1 rfl) (by omega)
    cases full <;> decide +kernel
  | millis =>
    have short : known < 7 := short
    have before : known ≠ 6 := fun same => notNext ⟨rfl, congrArg some same.symm⟩
    have pair : Pair 6 5 ⟨⟨2000, 0, 1⟩, 2⟩ ⟨⟨2000, 0, 1⟩, 1001⟩ := by decide +kernel
    exact turns_of pair (by decide +kernel) (fine 6 rfl) (by omega)
  | weekdayName full => exact turns_weekdayName short
  | halfDay =>
    have few : known < if finest < 3 then 0 else 4 := short
    have notDay : known ≠ 3 := fun same => by
      rw [same] at notHalf
      cases notHalf
    split at few
    · exact absurd few (Nat.not_lt_zero _)
    · have pair : Pair 3 2 ⟨⟨2000, 0, 1⟩, 43200000⟩ ⟨⟨2000, 0, 2⟩, 0⟩ := by decide +kernel
      exact turns_of pair (by decide +kernel) (by omega) (by omega)
  | number part padded => exact turns_part fine notNext short

/-- Where items do not keep the order, there are two such moments of which the earlier one does not
have the lesser text. -/
theorem exists_turned (broken : keepsOrderFrom finest known items = false)
    (fine : ∀ item ∈ items, ∀ i, item.rank? = some i → i ≤ finest) (small : finest < 7) :
    ∃ m n, Pair finest known m n ∧ ¬ written items m < written items n := by
  induction items generalizing known with
  | nil =>
    have few : known ≤ finest := Nat.le_of_not_lt (of_decide_eq_false broken)
    obtain ⟨m, n, pair⟩ := exists_pair (Nat.lt_of_le_of_lt few small)
    exact ⟨m, n, pair.mono few le_rfl, List.not_lt_nil _⟩
  | cons item rest ih =>
    have fine' : ∀ item ∈ rest, ∀ i, item.rank? = some i → i ≤ finest :=
      fun other ho => fine other (List.mem_cons_of_mem _ ho)
    have equal {m n : Moment} (text : item.render m = item.render n)
        (later : ¬ written rest m < written rest n) : ¬ written (item :: rest) m < written (item :: rest) n := by
      simp only [written, List.flatMap_cons]
      rw [text]
      exact append_lt_append_left_iff.not.mpr later
    unfold keepsOrderFrom at broken
    split at broken
    next next =>
      obtain ⟨-, isNext⟩ := Bool.and_eq_true_iff.mp next
      have rank := eq_of_beq isNext
      obtain ⟨m, n, pair, later⟩ := ih broken fine'
      have needs : item.needs finest ≤ known + 1 := Nat.le_of_eq (PatternItem.needs_of_rank? rank)
      refine ⟨m, n, pair.mono le_rfl (Nat.le_succ known), equal ?_ later⟩
      exact PatternItem.render_eq needs pair.alike pair.first.whole pair.second.whole
    next notNext =>
      by_cases fixed : settled finest known item
      · rw [fixed, Bool.true_and] at broken
        obtain ⟨m, n, pair, later⟩ := ih broken fine'
        refine ⟨m, n, pair, equal ?_ later⟩
        rcases Bool.or_eq_true_iff.mp fixed with enough | half
        · exact PatternItem.render_eq (of_decide_eq_true enough) pair.alike pair.first.whole pair.second.whole
        · obtain ⟨isHalf, isDay⟩ := Bool.and_eq_true_iff.mp half
          rw [eq_of_beq isHalf]
          exact pair.half (Nat.le_of_eq (eq_of_beq isDay).symm)
      · have notNext : ¬ (item.isFull ∧ item.rank? = some known) := fun ⟨full, rank⟩ =>
          notNext (Bool.and_eq_true_iff.mpr ⟨full, beq_iff_eq.mpr rank⟩)
        obtain ⟨m, n, pair, after⟩ := turns_of_unsettled (fine item List.mem_cons_self) notNext
          (Bool.eq_false_iff.mpr fixed)
        refine ⟨m, n, pair, ?_⟩
        simp only [written, List.flatMap_cons]
        exact not_lt_of_comesAfter after

end DatePattern

end DetectionPlan
