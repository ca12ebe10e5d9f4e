/-
Date patterns in range filters. A column of dates is compared with two texts, so a filter lets
through what it should exactly for the patterns whose texts are in the order of the instants that
they tell (`ordered_iff`).
-/
import DetectionPlan.Proofs.TimeFormat.Pattern
import DetectionPlan.TimeFormat.Basic

namespace DetectionPlan

open Outcome (bind_ok_iff)
open Period (IsFourDigit)

namespace DatePattern

variable {p : DatePattern} {pattern : String} {rank : Nat} {m : Moment} {millis : Int}

/-- The instants that a pattern tells exactly, in the years of four digits. -/
structure Tells (p : DatePattern) (millis : Int) : Prop where
  starts : p.resolution.IsBucketStart millis
  year : IsFourDigit (Moment.ofMillis millis).date.year

/-- Of the instants that a pattern tells the earlier one always has the lesser text. -/
def Ordered (p : DatePattern) : Prop :=
  ∀ early late, p.Tells early → p.Tells late → early < late →
    ∃ text text', p.format early = .ok text ∧ p.format late = .ok text' ∧ text < text'

/-- The finest part of a pattern, counted from the year. -/
def finest (p : DatePattern) : Nat := (List.range 7).findIdx fun rank => .unit rank == p.resolution

/-- Whether a pattern writes the parts of a date from the year down to its finest, each in full, and
in between nothing that takes more parts to decide. -/
def keepsOrder (p : DatePattern) : Bool := keepsOrderFrom p.finest 0 p.items

theorem finest_eq (small : rank < 7) (unit : p.resolution = .unit rank) : p.finest = rank := by
  unfold finest
  rw [unit]
  clear unit
  revert rank
  decide

theorem hasDate_of_tells (h : p.Tells millis) : hasDate millis := by
  have := Period.hasDate_of_year (Moment.ofMillis_valid millis) h.year
  rwa [Moment.toMillis_ofMillis] at this

/-- What a pattern tells is written as it is. -/
theorem format_of_tells (h : p.Tells millis) : p.format millis = .ok (p.render (.ofMillis millis)) := by
  have first : p.resolution.firstBucketAtOrAfter millis = .ok millis :=
    bind_ok_iff.mpr ⟨millis, h.starts, if_pos BEq.rfl⟩
  refine bind_ok_iff.mpr ⟨millis, first, ?_⟩
  rw [moment?, if_pos (hasDate_of_tells h)]

theorem tells_iff (small : rank < 7) (unit : p.resolution = .unit rank) (valid : m.Valid)
    (year : IsFourDigit m.date.year) : p.Tells m.toMillis ↔ m.Whole rank := by
  have dated := Period.hasDate_of_year valid year
  have starts := Period.isBucketStart_unit_iff valid dated small
  rw [← unit] at starts
  constructor
  · intro h
    exact starts.mp h.starts
  · intro whole
    exact ⟨starts.mpr whole, (Moment.ofMillis_toMillis valid).symm ▸ year⟩

theorem Tells.told (h : p.Tells millis) (small : rank < 7) (unit : p.resolution = .unit rank) :
    (Moment.ofMillis millis).Told rank := by
  have valid := Moment.ofMillis_valid millis
  refine ⟨valid, h.year, (tells_iff small unit valid h.year).mp ?_⟩
  rwa [Moment.toMillis_ofMillis]

/-- Of the instants that a pattern tells the earlier one has the lesser text, if the pattern keeps
the order. -/
theorem render_lt_of_tells (small : rank < 7) (unit : p.resolution = .unit rank)
    (keeps : keepsOrderFrom rank 0 p.items) {early late : Int} (he : p.Tells early) (hl : p.Tells late)
    (lt : early < late) : p.render (.ofMillis early) < p.render (.ofMillis late) := by
  rw [String.lt_iff_toList_lt, toList_render, toList_render]
  refine written_lt keeps (he.told small unit) (hl.told small unit) nofun ?_
  rwa [Moment.toMillis_ofMillis, Moment.toMillis_ofMillis]

/-- **Patterns in the order of time.** A pattern that is accepted writes the earlier of any two
instants it tells, in the years of four digits, as the lesser text if and only if it writes the parts
of a date from the year down to its finest, each in full with a fixed width, and before each of them
only what the parts before it decide, or the half of a known day. -/
theorem ordered_iff (h : parse pattern = .ok p) : p.Ordered ↔ p.keepsOrder := by
  obtain ⟨rank, small, unit, fine⟩ := parse_fine h
  rw [keepsOrder, finest_eq small unit]
  constructor
  · intro ordered
    by_contra broken
    obtain ⟨m, n, pair, notLess⟩ := exists_turned (Bool.eq_false_iff.mpr broken) fine small
    have tm := (tells_iff small unit pair.first.valid pair.first.year).mpr pair.first.whole
    have tn := (tells_iff small unit pair.second.valid pair.second.year).mpr pair.second.whole
    obtain ⟨text, text', hm, hn, less⟩ := ordered _ _ tm tn pair.lt
    rw [format_of_tells tm, Moment.ofMillis_toMillis pair.first.valid] at hm
    rw [format_of_tells tn, Moment.ofMillis_toMillis pair.second.valid] at hn
    cases hm
    cases hn
    rw [String.lt_iff_toList_lt, toList_render, toList_render] at less
    exact notLess less
  · intro keeps early late he hl lt
    exact ⟨_, _, format_of_tells he, format_of_tells hl, render_lt_of_tells small unit keeps he hl lt⟩

/-- Dates that begin with the day. -/
def dayFirst : DatePattern where
  items := [.number .day true, .text '.', .number .month true, .text '.', .year]
  resolution := { days := 1 }

/-- The last day of 2000 is written after the first one of 2001, so the filter on that one day lets
nothing through. -/
theorem ordered_iff_dayFirst :
    (parse "dd.MM.yyyy" = .ok dayFirst ∧ dayFirst.keepsOrder = false) ∧ ¬ dayFirst.Ordered ∧
    (TimeFormat.date "dd.MM.yyyy").filterBound 978220800000 = .ok "'31.12.2000'" ∧
    (TimeFormat.date "dd.MM.yyyy").filterBound 978307200000 = .ok "'01.01.2001'" ∧
    ¬ "31.12.2000" < "01.01.2001" := by
  have accepted : parse "dd.MM.yyyy" = .ok dayFirst := Outcome.ok_of_toOption (by decide +kernel)
  have unordered : dayFirst.keepsOrder = false := by decide +kernel
  refine ⟨⟨accepted, unordered⟩, fun ordered => ?_, Outcome.ok_of_toOption (by decide +kernel),
    Outcome.ok_of_toOption (by decide +kernel), by decide +kernel⟩
  rw [(ordered_iff accepted).mp ordered] at unordered
  cases unordered

/-! ## Bounds of a filter -/

variable {first : Int}

/-- The first instant that a pattern can tell, at or after another. -/
def IsRoundedUp (p : DatePattern) (millis first : Int) : Prop :=
  IsLeast {b | p.resolution.IsBucketStart b ∧ millis ≤ b} first ∧ IsFourDigit (Moment.ofMillis first).date.year

theorem IsRoundedUp.tells (h : p.IsRoundedUp millis first) : p.Tells first := ⟨h.1.1.1, h.2⟩

/-- Rounding up does not change what lies at or after an instant. -/
theorem IsRoundedUp.le_iff (h : p.IsRoundedUp millis first) {told : Int} (ht : p.Tells told) :
    first ≤ told ↔ millis ≤ told :=
  ⟨fun le => h.1.1.2.trans le, fun le => h.1.2 ⟨ht.starts, le⟩⟩

/-- An instant is written as the first one at or after it that the pattern can tell. -/
theorem format_of_isRoundedUp (unit : p.resolution = .unit rank) (h : p.IsRoundedUp millis first) :
    p.format millis = .ok (p.render (.ofMillis first)) := by
  obtain ⟨low, high⟩ := Period.bounds_of_year (Moment.ofMillis_valid first) h.2
  rw [Moment.toMillis_ofMillis] at low high
  have found : p.resolution.firstBucketAtOrAfter millis = .ok first := by
    have least := h.1
    rw [unit] at least ⊢
    exact Period.firstBucketAtOrAfter_unit low high least
  refine bind_ok_iff.mpr ⟨first, found, ?_⟩
  rw [moment?, if_pos (hasDate_of_tells h.tells)]

/-- The texts of a pattern that keeps the order compare as the instants do. -/
theorem render_lt_iff (small : rank < 7) (unit : p.resolution = .unit rank)
    (keeps : keepsOrderFrom rank 0 p.items) {a b : Int} (ha : p.Tells a) (hb : p.Tells b) :
    p.render (.ofMillis a) < p.render (.ofMillis b) ↔ a < b := by
  constructor
  · intro less
    by_contra notBefore
    rcases Int.lt_or_eq_of_le (Int.not_lt.mp notBefore) with after | same
    · exact lt_asymm less (render_lt_of_tells small unit keeps hb ha after)
    · rw [same] at less
      exact lt_irrefl _ less
  · exact render_lt_of_tells small unit keeps ha hb

end DatePattern

end DetectionPlan
