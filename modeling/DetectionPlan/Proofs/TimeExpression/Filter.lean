/-
The condition that a column lies within the interval of a request. It is read as the
conjunction of two comparisons, and holds of a number of units exactly when the instant
it stands for is within the interval (`timeFilter_holds_iff`).
-/
import DetectionPlan.Expansion.Builtin
import DetectionPlan.Proofs.Sql.Range
import DetectionPlan.TimeExpression.Ansi
import DetectionPlan.TimeExpression.Pinot

namespace DetectionPlan

open Outcome (bind_ok_iff)

/-! ## Rounding up -/

theorem EpochUnit.millis_pos (u : EpochUnit) : 0 < u.millis := by cases u <;> decide

namespace TimeFormat

variable {millis unit v : Int}

/-- A number of units is not before an instant when it is no less than the instant
rounded up. -/
theorem ceilDiv_le_iff (h : 0 < unit) : ceilDiv millis unit ≤ v ↔ millis ≤ v * unit := by
  have whole := Int.emod_add_mul_ediv millis unit
  have nonneg := Int.emod_nonneg millis (Int.ne_of_gt h)
  have small := Int.emod_lt_of_pos millis h
  unfold ceilDiv
  split
  next exact =>
    rw [beq_iff_eq] at exact
    rw [exact, Int.zero_add] at whole
    constructor
    · intro le
      have := Int.mul_le_mul_of_nonneg_right le (Int.le_of_lt h)
      linarith
    · intro le
      refine le_of_mul_le_mul_right ?_ h
      linarith
  next partial_ =>
    have positive : 0 < millis % unit := by
      rw [beq_iff_eq] at partial_
      omega
    constructor
    · intro le
      have := Int.mul_le_mul_of_nonneg_right le (Int.le_of_lt h)
      linarith
    · intro le
      have : millis / unit < v := by
        refine lt_of_mul_lt_mul_right ?_ (Int.le_of_lt h)
        linarith
      omega

theorem lt_ceilDiv_iff (h : 0 < unit) : v < ceilDiv millis unit ↔ v * unit < millis := by
  rw [← not_le, ceilDiv_le_iff h, not_le]

/-- Rounding a 64-bit instant does not leave the range of 64 bits, neither down nor up. -/
theorem fitsInt64_ceilDiv (h : 0 < unit) (fits : fitsInt64 millis) :
    fitsInt64 (millis / unit) ∧ fitsInt64 (ceilDiv millis unit) := by
  obtain ⟨low, high⟩ := fitsInt64_iff.mp fits
  simp only [minInt64, maxInt64] at low high
  have down : minInt64 ≤ millis / unit := by
    refine Int.le_ediv_of_mul_le h ?_
    simp only [minInt64]
    nlinarith
  have up : ceilDiv millis unit ≤ maxInt64 := by
    refine (ceilDiv_le_iff h).mpr ?_
    simp only [maxInt64]
    nlinarith
  have between : millis / unit ≤ ceilDiv millis unit := by
    unfold ceilDiv
    split <;> omega
  exact ⟨fitsInt64_iff.mpr ⟨down, between.trans up⟩, fitsInt64_iff.mpr ⟨down.trans between, up⟩⟩

end TimeFormat

/-! ## The text of the condition -/

namespace Sql

/-- The condition that a column is no less than one integer and less than another. -/
def rangeExpr (column : String) (low high : Int) : Expr :=
  .binary (.binary (columnExpr column) .gtEq (intExpr low)) .and
    (.binary (columnExpr column) .lt (intExpr high))

def rangeText (column : String) (low high : Int) : String :=
  column ++ " >= " ++ toString low ++ " AND " ++ column ++ " < " ++ toString high

variable {s : ParserSettings} {column : String}

/-- The text of the condition is read as the condition. -/
theorem parseExpr_range (h : IsColumn s.grammar column) (room : 4 ≤ s.recursionLimit) (low high : Int) :
    s.parseExpr (rangeText column low high) = .ok (rangeExpr column low high) := by
  have text : rangeText column low high = (Ident.within ⟨column, none⟩ low high).text :=
    (text_within ⟨column, none⟩ low high).symm
  rw [text]
  exact parseExpr_within (.plain h) room low high

/-- The condition holds of a value that is no less than the one integer and less than the other. -/
theorem truth_range (column : String) (low high value : Int) :
    (NumberRow.ofColumn column value).valuation.truth (rangeExpr column low high) = .true ↔
      low ≤ value ∧ value < high :=
  truth_within (i := ⟨column, none⟩) (by simp [NumberRow.ofColumn]) low high

end Sql

/-! ## The placeholder -/

/-- A request whose column counts units since the epoch: its data source takes that for
granted, or its dataset says so. -/
inductive RequestScope.Counts (s : RequestScope) (column : String) (unit : EpochUnit) : Prop where
  | source (undeclared : s.timeFormatOf column = none)
      (builder : s.expressions = TimeExpressions.ansi (.epoch unit) ∨
        s.expressions = TimeExpressions.pinot (.epoch unit))
  | dataset {text : String} {other : TimeFormat} (declared : s.timeFormatOf column = some text)
      (parsed : TimeFormat.parse text = .ok (.epoch unit))
      (builder : s.expressions = TimeExpressions.ansi other ∨ s.expressions = TimeExpressions.pinot other)

namespace Placeholder

open TimeFormat (ceilDiv)

variable {s : RequestScope} {column : String} {unit : EpochUnit}

theorem withLookback_ok {i bounds : Interval} {fromStart fromStop : Period}
    (h : i.withLookback fromStart fromStop = .ok bounds) :
    fromStart.subtractFrom i.start = .ok bounds.start ∧ fromStop.subtractFrom i.stop = .ok bounds.stop := by
  obtain ⟨start, hs, h⟩ := bind_ok_iff.mp h
  obtain ⟨stop, he, h⟩ := bind_ok_iff.mp h
  unfold Interval.make at h
  split at h
  · obtain rfl := Except.ok.inj h
    exact ⟨hs, he⟩
  · cases h

/-- The properties of a request with the time column and the bounds of its interval. -/
def withBounds (given : Properties) (column : String) (bounds : Interval) : Properties :=
  ((given.put .timeColumn column).put .minTimeMillis (toString bounds.start)).put .maxTimeMillis
    (toString bounds.stop)

theorem find?_withBounds (given : Properties) (column : String) (bounds : Interval) :
    (withBounds given column bounds).find? .minTimeMillis = some (toString bounds.start) ∧
      (withBounds given column bounds).find? .maxTimeMillis = some (toString bounds.stop) := by
  unfold withBounds Properties.find? Properties.put
  constructor
  · rw [Keyed.get?_insert, if_neg (by decide), Keyed.get?_insert, if_pos BEq.rfl]
  · rw [Keyed.get?_insert, if_pos BEq.rfl]

/-- A step that succeeds leaves the properties as they are. -/
theorem run_bind {α β : Type} {x : Outcome α} {a : α} (h : x = .ok a) (f : α → Preparing β)
    (given : Properties) : ((x : Preparing α) >>= f).run given = (f a).run given := by
  rw [h]
  rfl

theorem run_write {α : Type} (key : PropertyKey) (value : String) (f : Unit → Preparing α)
    (given : Properties) :
    (writeProperty key value >>= f).run given = (f ()).run (given.put key value) := rfl

theorem run_ok {α : Type} {x : Outcome α} {a : α} (h : x = .ok a) (given : Properties) :
    (x : Preparing α).run given = .ok (a, given) := by
  rw [h]
  rfl

/-- The placeholder becomes the condition on the bounds in the units of the column. -/
theorem filterColumn_eq {fromStart fromStop : Option String} {back back' : Period} {bounds : Interval}
    (first : lookbackArgument timeFilterName fromStart = .ok back)
    (last : lookbackArgument timeFilterName fromStop = .ok back')
    (moved : s.interval.withLookback back back' = .ok bounds) (counts : s.Counts column unit)
    (given : Properties) : (filterColumn s column fromStart fromStop).run given =
      .ok (Sql.rangeText column (ceilDiv bounds.start unit.millis) (ceilDiv bounds.stop unit.millis),
        withBounds given column bounds) := by
  let text := Sql.rangeText column (ceilDiv bounds.start unit.millis) (ceilDiv bounds.stop unit.millis)
  have range : timeRange column bounds.start bounds.stop (.epoch unit) = .ok text := rfl
  rw [filterColumn, run_bind first, run_bind last, run_bind moved, run_write, run_write, run_write,
    ← withBounds]
  cases counts with
  | source undeclared builder =>
    have filter : s.expressions.filter column bounds.start bounds.stop = .ok text := by
      rcases builder with h | h <;> (rw [h]; exact range)
    rw [undeclared]
    exact run_ok filter _
  | dataset declared parsed builder =>
    have filterIn : s.expressions.filterIn column bounds.start bounds.stop (.epoch unit) = .ok text := by
      rcases builder with h | h <;> (rw [h]; exact range)
    rw [declared]
    exact (run_bind parsed _ _).trans (run_ok filterIn _)

end Placeholder

/-- **What `__timeFilter` lets through.** The placeholder becomes a condition that holds of
a number of units exactly when the instant it stands for is not before the start of the
interval and before its end, both moved back by the lookbacks, and these two instants are
recorded. Rounding the instants up to units stays within 64 bits. -/
theorem timeFilter_holds_iff {s : RequestScope} {p : Sql.ParserSettings} {column fromStart fromStop : String}
    {back back' : Period} {bounds : Interval} {unit : EpochUnit} (bare : Sql.IsColumn p.grammar column)
    (room : 4 ≤ p.recursionLimit) (first : Period.parse fromStart = .ok back)
    (last : Period.parse fromStop = .ok back')
    (moved : s.interval.withLookback back back' = .ok bounds) (counts : s.Counts column unit)
    (given : Properties) :
    ∃ text properties e,
      (Placeholder.timeFilter.expand s [column, fromStart, fromStop]).run given = .ok (text, properties) ∧
      p.parseExpr text = .ok e ∧
      back.subtractFrom s.interval.start = .ok bounds.start ∧
      back'.subtractFrom s.interval.stop = .ok bounds.stop ∧
      (∀ value : Int, (NumberRow.ofColumn column value).valuation.truth e = .true ↔
        bounds.start ≤ value * unit.millis ∧ value * unit.millis < bounds.stop) ∧
      properties.find? .minTimeMillis = some (toString bounds.start) ∧
      properties.find? .maxTimeMillis = some (toString bounds.stop) ∧
      ∀ millis, fitsInt64 millis →
        fitsInt64 (millis / unit.millis) ∧ fitsInt64 (TimeFormat.ceilDiv millis unit.millis) := by
  have argument {text : String} {q : Period} (h : Period.parse text = .ok q) :
      Placeholder.lookbackArgument Placeholder.timeFilterName (some text) = .ok q := by
    rw [Placeholder.lookbackArgument, Placeholder.periodArgument, h]
    rfl
  obtain ⟨start, stop⟩ := Placeholder.withLookback_ok moved
  obtain ⟨minimum, maximum⟩ := Placeholder.find?_withBounds given column bounds
  refine ⟨_, _, _, Placeholder.filterColumn_eq (argument first) (argument last) moved counts given,
    Sql.parseExpr_range bare room _ _, start, stop, fun value => ?_, minimum, maximum,
    fun millis fits => TimeFormat.fitsInt64_ceilDiv unit.millis_pos fits⟩
  rw [Sql.truth_range, TimeFormat.ceilDiv_le_iff unit.millis_pos, TimeFormat.lt_ceilDiv_iff unit.millis_pos]

/-- An interval that a lookback of two seconds moves across the epoch. -/
def acrossEpoch : RequestScope where
  expressions := .ansi (.epoch .seconds)
  interval := ⟨500, 2500, by decide⟩

theorem timeFilter_holds_iff_acrossEpoch :
    (({} : Sql.ParserSettings).grammar.isPlainName "ts" ∧ 4 ≤ ({} : Sql.ParserSettings).recursionLimit ∧
      Period.parse "PT2S" = .ok { seconds := 2 } ∧
      acrossEpoch.interval.withLookback { seconds := 2 } { seconds := 2 } = .ok ⟨-1500, 500, by decide⟩ ∧
      acrossEpoch.Counts "ts" .seconds) ∧
    ∃ text properties e,
      (Placeholder.timeFilter.expand acrossEpoch ["ts", "PT2S", "PT2S"]).run .empty = .ok (text, properties) ∧
      ({} : Sql.ParserSettings).parseExpr text = .ok e ∧
      Period.subtractFrom { seconds := 2 } 500 = .ok (-1500) ∧
      Period.subtractFrom { seconds := 2 } 2500 = .ok 500 ∧
      (∀ value : Int, (NumberRow.ofColumn "ts" value).valuation.truth e = .true ↔
        -1500 ≤ value * 1000 ∧ value * 1000 < 500) ∧
      properties.find? .minTimeMillis = some (toString (-1500 : Int)) ∧
      properties.find? .maxTimeMillis = some (toString (500 : Int)) ∧
      ∀ millis, fitsInt64 millis →
        fitsInt64 (millis / 1000) ∧ fitsInt64 (TimeFormat.ceilDiv millis 1000) := by
  have bare : Sql.IsColumn .generic "ts" := ⟨by decide +kernel, by decide +kernel⟩
  have parsed : Period.parse "PT2S" = .ok { seconds := 2 } := by rfl
  have moved : acrossEpoch.interval.withLookback { seconds := 2 } { seconds := 2 } =
      .ok ⟨-1500, 500, by decide⟩ := Outcome.ok_of_toOption (by decide +kernel)
  have counts : acrossEpoch.Counts "ts" .seconds := .source rfl (.inl rfl)
  exact ⟨⟨bare.plain, by decide, parsed, moved, counts⟩,
    timeFilter_holds_iff (p := {}) bare (by decide) parsed parsed moved counts .empty⟩

end DetectionPlan
