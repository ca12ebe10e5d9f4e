/-
Columns rounded down by arithmetic. The text is read as a rounding whose value, exactly
computed, is the multiple of the granularity at or below the instant. That is the start
of the instant's bucket except for granularities of whole weeks, whose buckets start on
Mondays while the epoch was a Thursday (`floorGroup_bucket_iff`).
-/
import DetectionPlan.Proofs.Period.Floor
import DetectionPlan.Proofs.TimeExpression.Rounding

namespace DetectionPlan

open Outcome (bind_ok_iff map_ok_iff)

/-! ## Buckets -/

namespace Period

variable {p : Period} {millis bucket : Int}

/-- No bucket whose origin is not the epoch starts at a multiple of its length. -/
theorem origin_eq_zero_of_dvd (nonzero : p.isZero = false) (fixed : p.isCalendar = false)
    (h : p.fixedPart ∣ p.origin) : p.origin = 0 := by
  rcases p.origin_cases with zero | ⟨monday, weeks⟩
  · exact zero
  · have positive := fixedPart_pos nonzero fixed
    have below := Int.le_of_dvd (by rw [monday]; decide) h
    have week := Int.le_of_dvd positive (Int.dvd_of_emod_eq_zero weeks)
    rw [monday] at below
    exact absurd (week.trans below) (by decide)

/-- An instant rounded down to a multiple of the length is the start of its bucket, or of
any, only if the buckets start at the epoch. -/
theorem floor_multiple_iff (nonzero : p.isZero = false) (fixed : p.isCalendar = false)
    (h : p.floor millis = .ok bucket) :
    (millis / p.fixedPart * p.fixedPart = bucket ↔ p.origin = 0) ∧
      (p.floor (millis / p.fixedPart * p.fixedPart) = .ok (millis / p.fixedPart * p.fixedPart) ↔
        p.origin = 0) := by
  obtain ⟨-, -, -, start⟩ := (floor_ok_iff nonzero fixed).mp h
  have multiple {n m : Int} (h : n * p.fixedPart = m * p.fixedPart + p.origin) : p.origin = 0 :=
    origin_eq_zero_of_dvd nonzero fixed ⟨n - m, by linarith⟩
  have same (zero : p.origin = 0) : millis / p.fixedPart * p.fixedPart = bucket := by
    rw [start, zero, Int.sub_zero, Int.add_zero]
  refine ⟨⟨fun h => multiple (h.trans start), same⟩, fun h => ?_, fun zero => ?_⟩
  · exact multiple ((floor_ok_iff nonzero fixed).mp h).2.2.2
  · rw [same zero]
    exact floor_floor nonzero h

end Period

/-! ## The rounding of a column -/

namespace Sql

open TimeExpressions (floorText)

variable {s : ParserSettings} {column : String} {unit : EpochUnit} {length : Int}

/-- A column rounded down. -/
def floorExpr (column : String) (unit : EpochUnit) (length : Int) : Expr :=
  roundedExpr unit length (columnExpr column)

/-- The text of the rounding is read as the rounding. -/
theorem parseExpr_floor (h : IsColumn s.grammar column) (room : 4 ≤ s.recursionLimit) :
    s.parseExpr (floorText column unit length) = .ok (floorExpr column unit length) := by
  have text : (columnExpr column).text = column := by simp [columnExpr, Expr.text, nameText, Ident.quoted]
  have read : s.parseExpr (floorText (columnExpr column).text unit length) = .ok (floorExpr column unit length) :=
    parseExpr_rounded (.column (.plain h) (List.forall_mem_nil _)) room
  rwa [text] at read

/-- The rounding is the multiple of the length at or below the milliseconds. -/
theorem number?_floor (positive : 0 < length) (value : Int) :
    (floorExpr column unit length).number? (.ofColumn column value) =
      some ((value * unit.millis / length * length : Int) : ℚ) := by
  have scaled : (columnExpr column).scaleLast? (.ofColumn column value) ((unit.millis : ℚ) / length) =
      some (((value * unit.millis : Int) : ℚ) / length) := by
    have found : (columnExpr column).scaleLast? (.ofColumn column value) ((unit.millis : ℚ) / length) =
        ((columnExpr column).number? (.ofColumn column value)).map (· * ((unit.millis : ℚ) / length)) := rfl
    rw [found, number?_column, Option.map_some, Int.cast_mul, mul_div_assoc]
  obtain ⟨n, rfl⟩ := Int.eq_ofNat_of_zero_le (Int.le_of_lt positive)
  have quotient : ⌊((value * unit.millis : Int) : ℚ) / ((n : Int) : ℚ)⌋ = value * unit.millis / n := by
    rw [Int.cast_natCast]
    exact Rat.floor_intCast_div_natCast _ n
  rw [floorExpr, number?_rounded positive, scaled, Option.map_some, quotient]

end Sql

/-- **What a rounded column is.** The text of a rounding that is accepted is read as an
expression that is an integer for every number of units that has a bucket. For buckets that
start at the epoch the integer is the start of the bucket of that instant. For weeks, whose
buckets start on Mondays, it is neither that nor the start of any bucket. -/
theorem floorGroup_bucket_iff {s : Sql.ParserSettings} {column format text : String}
    {granularity : Period} {zone : Option String} (bare : Sql.IsColumn s.grammar column)
    (room : 4 ≤ s.recursionLimit) (nonzero : granularity.isZero = false)
    (accepted : TimeExpressions.floorGroup column format granularity zone = .ok text) :
    ∃ unit e, TimeFormat.parse format = .ok (.epoch unit) ∧ s.parseExpr text = .ok e ∧
      ∀ value bucket, granularity.floor (value * unit.millis) = .ok bucket →
        ∃ number : Int, e.number? (.ofColumn column value) = some (number : ℚ) ∧
          (number = bucket ↔ granularity.origin = 0) ∧
          (granularity.floor number = .ok number ↔ granularity.origin = 0) := by
  obtain ⟨unit, parsed, fixed, rfl⟩ := TimeExpressions.floorGroup_ok nonzero accepted
  have positive := Period.fixedPart_pos nonzero fixed
  exact ⟨unit, _, parsed, Sql.parseExpr_floor bare room, fun value bucket h =>
    ⟨_, Sql.number?_floor positive value, Period.floor_multiple_iff nonzero fixed h⟩⟩

/-- A column of seconds by weeks, at the epoch: a Thursday. -/
theorem floorGroup_bucket_iff_weekly :
    (({} : Sql.ParserSettings).grammar.isPlainName "ts" ∧ 4 ≤ ({} : Sql.ParserSettings).recursionLimit ∧
      ({ weeks := 1 } : Period).isZero = false ∧
      TimeExpressions.floorGroup "ts" "EPOCH" { weeks := 1 } (some "UTC") =
        .ok "FLOOR(ts * 1000 / 604800000) * 604800000" ∧
      Period.floor { weeks := 1 } 0 = .ok (-259200000) ∧ Period.origin { weeks := 1 } ≠ 0) ∧
    ∃ unit e, TimeFormat.parse "EPOCH" = .ok (.epoch unit) ∧
      ({} : Sql.ParserSettings).parseExpr "FLOOR(ts * 1000 / 604800000) * 604800000" = .ok e ∧
      ∀ value bucket, Period.floor { weeks := 1 } (value * unit.millis) = .ok bucket →
        ∃ number : Int, e.number? (.ofColumn "ts" value) = some (number : ℚ) ∧
          (number = bucket ↔ Period.origin { weeks := 1 } = 0) ∧
          (Period.floor { weeks := 1 } number = .ok number ↔ Period.origin { weeks := 1 } = 0) := by
  have bare : Sql.IsColumn .generic "ts" := ⟨by decide +kernel, by decide +kernel⟩
  have accepted : TimeExpressions.floorGroup "ts" "EPOCH" { weeks := 1 } (some "UTC") =
      .ok "FLOOR(ts * 1000 / 604800000) * 604800000" := Outcome.ok_of_toOption (by decide +kernel)
  have weekly : Period.floor { weeks := 1 } 0 = .ok (-259200000) :=
    Outcome.ok_of_toOption (by decide +kernel)
  exact ⟨⟨bare.plain, by decide, by decide, accepted, weekly, by decide⟩,
    floorGroup_bucket_iff (s := {}) bare (by decide) (by decide) accepted⟩

end DetectionPlan
