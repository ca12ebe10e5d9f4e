/-
Columns rounded by the conversions of Pinot. A rounding that is written is a call whose strings are
the format of the column, the number of units of the bucket and the time zone, each whole in a literal
of its own (`pinot_group_read`), and the starts of the buckets are the multiples of that many units
since the epoch (`IsStep`).
-/
import DetectionPlan.Proofs.Period.Floor
import DetectionPlan.Proofs.Sql.Applied
import DetectionPlan.TimeExpression.Pinot

namespace DetectionPlan

open Outcome (bind_ok_iff map_ok_iff)

/-! ## Numbers of one unit -/

namespace EpochUnit

/-- Some number of a unit, as a period. -/
def times (unit : EpochUnit) (n : UInt32) : Period :=
  match unit with
  | milliseconds => { millis := n }
  | seconds => { seconds := n }
  | minutes => { minutes := n }
  | hours => { hours := n }
  | days => { days := n }

/-- How many a period has of a unit. -/
def count (p : Period) : EpochUnit → UInt32
  | milliseconds => p.millis
  | seconds => p.seconds
  | minutes => p.minutes
  | hours => p.hours
  | days => p.days

theorem mem_all (unit : EpochUnit) : unit ∈ all := by cases unit <;> decide

end EpochUnit

namespace Period

variable {unit : EpochUnit} {n : UInt32} {p : Period}

theorem fixedPart_times (unit : EpochUnit) (n : UInt32) :
    (unit.times n).fixedPart = n.toNat * unit.millis := by
  cases unit <;> simp [EpochUnit.times, fixedPart, EpochUnit.millis]

theorem isCalendar_times (unit : EpochUnit) (n : UInt32) : (unit.times n).isCalendar = false := by
  cases unit <;> rfl

theorem origin_times (unit : EpochUnit) (n : UInt32) : (unit.times n).origin = 0 := by
  cases unit <;> rfl

theorem isZero_times (positive : 0 < n) : (unit.times n).isZero = false := by
  have other : n ≠ 0 := fun zero => absurd (zero ▸ positive) (by decide)
  cases unit <;> simpa [isZero, zero, EpochUnit.times] using other

/-- With one of these units alone, and nothing coarser, a period is some number of the unit. -/
theorem eq_times (coarse : p.years = 0 ∧ p.months = 0 ∧ p.weeks = 0) (counted : unit.count p = n)
    (others : ∀ other ≠ unit, other.count p = 0) : p = unit.times n := by
  have counts (other : EpochUnit) : other.count p = if other = unit then n else 0 := by
    split
    next same => rw [same, counted]
    next ne => exact others other ne
  have parts : p = ⟨p.years, p.months, p.weeks, EpochUnit.days.count p, EpochUnit.hours.count p,
      EpochUnit.minutes.count p, EpochUnit.seconds.count p, EpochUnit.milliseconds.count p⟩ := rfl
  rw [parts, coarse.1, coarse.2.1, coarse.2.2, counts .days, counts .hours, counts .minutes, counts .seconds,
    counts .milliseconds]
  cases unit <;> rfl

/-- Where buckets of fixed length start that start at the epoch. -/
theorem exists_floor_iff_dvd (nonzero : p.isZero = false) (fixed : p.isCalendar = false) (epoch : p.origin = 0)
    (bucket : Int) : (∃ millis, p.floor millis = .ok bucket) ↔ fitsInt64 bucket ∧ p.fixedPart ∣ bucket := by
  constructor
  · rintro ⟨millis, h⟩
    obtain ⟨-, -, fits, start⟩ := (floor_ok_iff nonzero fixed).mp h
    rw [epoch, Int.add_zero] at start
    exact ⟨fits, start ▸ Int.dvd_mul_left _ _⟩
  · rintro ⟨fits, multiple⟩
    refine ⟨bucket, (floor_ok_iff nonzero fixed).mpr ?_⟩
    rw [epoch, Int.sub_zero, Int.add_zero, Int.ediv_mul_cancel multiple]
    exact ⟨fits, fits, fits, rfl⟩

end Period

namespace TimeExpressions

open TimeFormat (stringLiteral)
open Sql (Applied Ident)

variable {granularity : Period} {step : String} {unit : EpochUnit} {n : UInt32}

/-- A granularity of some number of one unit. It has the length of so many units, and of the instants of
the range its buckets start at the multiples of that length since the epoch. -/
structure IsStep (granularity : Period) (n : UInt32) (unit : EpochUnit) : Prop where
  positive : 0 < n
  one : granularity = unit.times n
  length : granularity.fixedMillis? = some (n.toNat * unit.millis)
  starts : ∀ bucket, (∃ millis, granularity.floor millis = .ok bucket) ↔
    fitsInt64 bucket ∧ (n.toNat * unit.millis : Int) ∣ bucket

theorem isStep_times (positive : 0 < n) : IsStep (unit.times n) n unit where
  positive := positive
  one := rfl
  length := Period.fixedMillis?_eq_some_iff.mpr ⟨Period.isCalendar_times unit n, Period.fixedPart_times unit n⟩
  starts bucket := by
    rw [← Period.fixedPart_times]
    exact Period.exists_floor_iff_dvd (Period.isZero_times positive) (Period.isCalendar_times unit n)
      (Period.origin_times unit n) bucket

/-- The text of some number of a unit. -/
def stepText (n : UInt32) (unit : EpochUnit) : String := toString n.toNat ++ ":" ++ unit.name

/-- A granularity is written if it is some number of one unit, and as that number of that unit. -/
theorem pinotGranularity_ok_iff : pinotGranularity granularity = .ok step ↔
    ∃ n unit, IsStep granularity n unit ∧ step = stepText n unit := by
  constructor
  · intro h
    unfold pinotGranularity at h
    dsimp only at h
    split at h
    · cases h
    next calendar =>
      simp only [Bool.or_eq_true, decide_eq_true_eq, not_or, not_pos_iff] at calendar
      split at h
      · cases h
      next n name found =>
        -- One unit is left of those with a count, so the granularity is that many of it.
        have counted : (EpochUnit.all.reverse.map fun unit => (unit.count granularity, unit.name)).filter
            (0 < ·.1) = [(n, name)] := found
        rw [List.filter_map] at counted
        obtain ⟨unit, one, same⟩ := List.map_eq_singleton_iff.mp counted
        obtain ⟨rfl, rfl⟩ := Prod.mk.inj same
        have kept (other : EpochUnit) : 0 < other.count granularity ↔ other = unit := by
          rw [← List.mem_singleton, ← one, List.mem_filter]
          simp [EpochUnit.mem_all]
        have times := Period.eq_times ⟨calendar.1.1, calendar.1.2, calendar.2⟩ rfl fun other ne =>
          not_pos_iff.mp fun positive => ne ((kept other).mp positive)
        have step : IsStep (unit.times (unit.count granularity)) (unit.count granularity) unit :=
          isStep_times ((kept unit).mpr rfl)
        rw [← times] at step
        exact ⟨_, unit, step, (Except.ok.inj h).symm⟩
      · cases h
  · rintro ⟨n, unit, h, rfl⟩
    obtain rfl := h.one
    have positive := h.positive
    cases unit <;> simp [pinotGranularity, EpochUnit.times, positive] <;> rfl

theorem map_granularity_ok_iff {f : String → String} {text : String} :
    (pinotGranularity granularity).map f = .ok text ↔
      ∃ n unit, IsStep granularity n unit ∧ text = f (stepText n unit) := by
  rw [map_ok_iff]
  constructor
  · rintro ⟨step, granted, rfl⟩
    obtain ⟨n, unit, one, rfl⟩ := pinotGranularity_ok_iff.mp granted
    exact ⟨n, unit, one, rfl⟩
  · rintro ⟨n, unit, one, rfl⟩
    exact ⟨_, pinotGranularity_ok_iff.mpr ⟨n, unit, one, rfl⟩, rfl⟩

/-! ## Calls -/

/-- The format that carries a time zone through a conversion. -/
def zonedFormat (zone : String) : String := "1:DAYS:SIMPLE_DATE_FORMAT:" ++ zonedPattern ++ " tz(" ++ zone ++ ")"

/-- The call that converts a column from one format to another, in steps of some number of a unit. -/
def conversion (column : Ident) (format : TimeFormat) (target : String) (n : UInt32) (unit : EpochUnit) : Applied :=
  .call "DATETIMECONVERT" (.name column) [.string format.canonical, .string target, .string (stepText n unit)]

/-- The calls that round a column of a format to a granularity in a time zone: in UTC a conversion; in
any other zone a truncation, for a column since the epoch and a granularity of exactly one unit, and a
conversion to text in the zone and back for all others. -/
inductive IsRounding (column : Ident) (format : TimeFormat) (granularity : Period) (zone : Option String) :
    Applied → Prop where
  | utc {n : UInt32} {unit : EpochUnit} (inUtc : zone.all isUtc) (step : IsStep granularity n unit) :
    IsRounding column format granularity zone (conversion column format "1:MILLISECONDS:EPOCH" n unit)
  | truncated {unit : EpochUnit} {truncation area : String} (given : zone = some area)
    (other : isUtc area = false) (epoch : format = .epoch unit)
    (one : truncationUnits.lookup granularity = some truncation) :
    IsRounding column format granularity zone (.call "DATETRUNC" (.string truncation)
      [.name column, .string unit.name, .string area, .string "MILLISECONDS"])
  | zoned {n : UInt32} {unit : EpochUnit} {area : String} (given : zone = some area)
    (other : isUtc area = false) (rest : format.isEpoch → truncationUnits.lookup granularity = none)
    (step : IsStep granularity n unit) :
    IsRounding column format granularity zone (.call "FromDateTime"
      (conversion column format (zonedFormat area) n unit) [.string zonedPattern])

/-- Text without a quote is its own literal between quotes. -/
theorem stringLiteral_plain {text : String} (h : '\x27' ∉ text.toList) : stringLiteral text = "'" ++ text ++ "'" := by
  rw [← String.toList_inj, stringLiteral, doubleChar_eq_self h]
  simp

theorem quote_not_mem_stepText (n : UInt32) (unit : EpochUnit) : '\x27' ∉ (stepText n unit).toList := by
  have digits : '\x27' ∉ (toString n.toNat).toList := fun h => absurd (isDigit_of_mem_toString h) (by decide)
  have name : '\x27' ∉ unit.name.toList := by cases unit <;> decide
  simp only [stepText, String.toList_append, List.mem_append, not_or]
  exact ⟨⟨digits, by decide⟩, name⟩

theorem quote_not_mem_truncation {truncation : String} (h : truncationUnits.lookup granularity = some truncation) :
    '\x27' ∉ truncation.toList := by
  have all : ∀ entry ∈ truncationUnits, '\x27' ∉ entry.2.toList := by decide
  obtain ⟨front, back, split, -⟩ := List.lookup_eq_some_iff.mp h
  exact all (granularity, truncation) (by simp [split])

/-! ## Their texts -/

variable {column : Ident} {format : TimeFormat} {zone : Option String} {text : String}

theorem text_conversion (column : Ident) (format : TimeFormat) (target : String) (n : UInt32) (unit : EpochUnit) :
    (conversion column format target n unit).text = "DATETIMECONVERT(" ++ column.quoted ++ ", " ++
      stringLiteral format.canonical ++ ", " ++ stringLiteral target ++ ", '" ++ stepText n unit ++ "')" := by
  simp only [conversion, Applied.text, Applied.moreText, stringLiteral_plain (quote_not_mem_stepText n unit)]
  rw [← String.toList_inj]
  simp

/-- A column is rounded in UTC by a conversion. -/
theorem utcGroup_ok_iff : utcGroup column.quoted format granularity = .ok text ↔
    ∃ n unit, IsStep granularity n unit ∧ text = (conversion column format "1:MILLISECONDS:EPOCH" n unit).text := by
  have written (n : UInt32) (unit : EpochUnit) : "DATETIMECONVERT(" ++ column.quoted ++ ", " ++
      stringLiteral format.canonical ++ ", '1:MILLISECONDS:EPOCH', '" ++ stepText n unit ++ "')" =
        (conversion column format "1:MILLISECONDS:EPOCH" n unit).text := by
    have target : stringLiteral "1:MILLISECONDS:EPOCH" = "'1:MILLISECONDS:EPOCH'" := by decide +kernel
    rw [text_conversion, target, ← String.toList_inj]
    simp
  have converted : utcGroup column.quoted format granularity =
      (pinotGranularity granularity).map fun step => "DATETIMECONVERT(" ++ column.quoted ++ ", " ++
        stringLiteral format.canonical ++ ", '1:MILLISECONDS:EPOCH', '" ++ step ++ "')" := by
    unfold utcGroup
    cases pinotGranularity granularity <;> rfl
  rw [converted, map_granularity_ok_iff]
  simp only [written]

/-- A column since the epoch is truncated to a granularity of exactly one unit. -/
theorem zonedGroup_epoch {area truncation : String} (unit : EpochUnit)
    (one : truncationUnits.lookup granularity = some truncation) :
    zonedGroup column.quoted (.epoch unit) granularity area = .ok (Applied.call "DATETRUNC" (.string truncation)
      [.name column, .string unit.name, .string area, .string "MILLISECONDS"]).text := by
  have name : '\x27' ∉ unit.name.toList := by cases unit <;> decide
  have output : stringLiteral "MILLISECONDS" = "'MILLISECONDS'" := by decide +kernel
  unfold zonedGroup
  rw [one]
  simp only [Applied.text, Applied.moreText, stringLiteral_plain (quote_not_mem_truncation one),
    stringLiteral_plain name, output, Except.ok.injEq]
  rw [← String.toList_inj]
  simp

/-- All else is converted to text in the zone and back. -/
theorem zonedGroup_ok_iff {area : String}
    (rest : format.isEpoch → truncationUnits.lookup granularity = none) :
    zonedGroup column.quoted format granularity area = .ok text ↔ ∃ n unit, IsStep granularity n unit ∧
      text = (Applied.call "FromDateTime" (conversion column format (zonedFormat area) n unit)
        [.string zonedPattern]).text := by
  have written (n : UInt32) (unit : EpochUnit) : "FromDateTime(DATETIMECONVERT(" ++ column.quoted ++ ", " ++
      stringLiteral format.canonical ++ ", " ++ stringLiteral (zonedFormat area) ++ ", '" ++
        stepText n unit ++ "'), '" ++ zonedPattern ++ "')" = (Applied.call "FromDateTime"
          (conversion column format (zonedFormat area) n unit) [.string zonedPattern]).text := by
    have pattern : stringLiteral zonedPattern = "'" ++ zonedPattern ++ "'" := by decide +kernel
    simp only [Applied.text, Applied.moreText, text_conversion, pattern]
    rw [← String.toList_inj]
    simp
  have converted : zonedGroup column.quoted format granularity area =
      (pinotGranularity granularity).map fun step => "FromDateTime(DATETIMECONVERT(" ++ column.quoted ++ ", " ++
        stringLiteral format.canonical ++ ", " ++ stringLiteral (zonedFormat area) ++ ", '" ++ step ++
          "'), '" ++ zonedPattern ++ "')" := by
    unfold zonedGroup
    split
    next unit truncation one =>
      rw [rest rfl] at one
      cases one
    · cases pinotGranularity granularity <;> rfl
  rw [converted, map_granularity_ok_iff]
  simp only [written]

/-- A column that is rounded is rounded by one of the calls. -/
theorem exists_isRounding {own : TimeFormat} {given : String}
    (accepted : (pinot own).group column.quoted given granularity zone = .ok text) :
    ∃ format a, TimeFormat.parse given = .ok format ∧ IsRounding column format granularity zone a ∧
      text = a.text := by
  obtain ⟨format, parsed, h⟩ := bind_ok_iff.mp accepted
  split at h
  next area found =>
    obtain ⟨rfl, notUtc⟩ := Option.filter_eq_some_iff.mp found
    have other : isUtc area = false := by simpa using notUtc
    by_cases rest : format.isEpoch → truncationUnits.lookup granularity = none
    · obtain ⟨n, unit, step, rfl⟩ := (zonedGroup_ok_iff rest).mp h
      exact ⟨format, _, parsed, .zoned rfl other rest step, rfl⟩
    · obtain ⟨epoch, one⟩ := Classical.not_imp.mp rest
      obtain ⟨truncation, one⟩ := Option.ne_none_iff_exists'.mp one
      cases format with
      | epoch unit =>
        rw [zonedGroup_epoch unit one] at h
        exact ⟨_, _, parsed, .truncated rfl other rfl one, (Except.ok.inj h).symm⟩
      | date pattern => cases epoch
  next found =>
    have inUtc : zone.all isUtc := by
      cases zone with
      | none => rfl
      | some area => simpa [Option.filter] using found
    obtain ⟨n, unit, step, rfl⟩ := utcGroup_ok_iff.mp h
    exact ⟨format, _, parsed, .utc inUtc step, rfl⟩

/-! ## Reading them -/

variable {s : Sql.ParserSettings} {a : Applied}

/-- The functions that columns are rounded by. -/
def functions : List String := ["DATETIMECONVERT", "DATETRUNC", "FromDateTime"]

/-- No grammar has a keyword of such a name. -/
theorem isArgument_function {function : String} (h : function ∈ functions) :
    (⟨function, none⟩ : Ident).IsArgument s := by
  have noKeyword : ∀ word ∈ functions, Sql.Keyword.ofWord? word = none := by decide +kernel
  have plain (g : Sql.Grammar) : ∀ word ∈ functions, g.isPlainName word := by cases g <;> decide +kernel
  exact Ident.isArgument_of_plain (plain _ function h) (noKeyword function h)

theorem isPlain_of_isRounding (h : column.IsArgument s) (rounding : IsRounding column format granularity zone a) :
    a.IsPlain s := by
  have conversions (target : String) (n : UInt32) (unit : EpochUnit) :
      (conversion column format target n unit).IsPlain s :=
    .call (isArgument_function (by decide)) (.name h) (by simp [Applied.IsPlain.string])
  cases rounding with
  | utc inUtc step => exact conversions _ _ _
  | truncated given other epoch one =>
    exact .call (isArgument_function (by decide)) (.string _)
      (by simp [Applied.IsPlain.string, Applied.IsPlain.name h])
  | zoned given other rest step =>
    exact .call (isArgument_function (by decide)) (conversions _ _ _) (by simp [Applied.IsPlain.string])

theorem levels_of_isRounding (rounding : IsRounding column format granularity zone a) : a.levels ≤ 2 := by
  cases rounding <;> simp [conversion, Applied.levels, Applied.moreLevels]

end TimeExpressions

open TimeExpressions in
/-- **Columns rounded by Pinot.** Whenever a column is rounded, the text is one of the calls of
`IsRounding`. Where two quotes are read as one, it is cut into the tokens of that call and read as the
call, so its strings are exactly the full form of the column's format or the name of its unit, the step
or the unit it is truncated to, the time zone, alone or within the pattern that carries it, and the fixed
formats, whatever the format and the zone hold. A step is some number of a unit, which together are the
length of the granularity, and its multiples since the epoch are the starts of the buckets. -/
theorem pinot_group_read {s : Sql.ParserSettings} {own : TimeFormat} {column : Sql.Ident} {given text : String}
    {granularity : Period} {zone : Option String} (plain : s.PlainStrings) (argument : column.IsArgument s)
    (room : 3 ≤ s.recursionLimit)
    (accepted : (pinot own).group column.quoted given granularity zone = .ok text) :
    ∃ format a, TimeFormat.parse given = .ok format ∧ IsRounding column format granularity zone a ∧
      text = a.text ∧ Sql.Lexer.scan s text = .ok a.tokens ∧ s.parseExpr text = .ok a.expr := by
  obtain ⟨format, a, parsed, rounding, rfl⟩ := exists_isRounding accepted
  have levels := levels_of_isRounding rounding
  obtain ⟨cut, read⟩ := Sql.parseExpr_applied plain (isPlain_of_isRounding argument rounding) (by omega)
  exact ⟨format, a, parsed, rounding, rfl, cut, read⟩

/-- A column rounded by the hour, with quotes in its format and in the time zone. -/
def quotesTwice : String :=
  "FromDateTime(DATETIMECONVERT(ts, '1:DAYS:SIMPLE_DATE_FORMAT:yyyy-MM-dd''T''HH', " ++
    "'1:DAYS:SIMPLE_DATE_FORMAT:yyyy-MM-dd HH:mm:ss.SSSZ tz(it''s)', '1:HOURS'), " ++
    "'yyyy-MM-dd HH:mm:ss.SSSZ')"

theorem pinot_group_read_quotesTwice :
    (({} : Sql.ParserSettings).PlainStrings ∧ (⟨"ts", none⟩ : Sql.Ident).IsArgument {} ∧
      3 ≤ ({} : Sql.ParserSettings).recursionLimit ∧
      (TimeExpressions.pinot (.epoch .seconds)).group "ts" "yyyy-MM-dd'T'HH" { hours := 1 } (some "it's") =
        .ok quotesTwice) ∧
    ∃ format a, TimeFormat.parse "yyyy-MM-dd'T'HH" = .ok format ∧
      TimeExpressions.IsRounding ⟨"ts", none⟩ format { hours := 1 } (some "it's") a ∧ quotesTwice = a.text ∧
      Sql.Lexer.scan {} quotesTwice = .ok a.tokens ∧ ({} : Sql.ParserSettings).parseExpr quotesTwice = .ok a.expr := by
  have plain : ({} : Sql.ParserSettings).PlainStrings := ⟨by decide, by decide, by decide⟩
  have argument : (⟨"ts", none⟩ : Sql.Ident).IsArgument {} :=
    Sql.Ident.isArgument_of_plain (by decide +kernel) (by decide +kernel)
  have accepted : (TimeExpressions.pinot (.epoch .seconds)).group "ts" "yyyy-MM-dd'T'HH" { hours := 1 }
      (some "it's") = .ok quotesTwice := Outcome.ok_of_toOption (by decide +kernel)
  exact ⟨⟨plain, argument, by decide, accepted⟩, pinot_group_read plain argument (by decide) accepted⟩

end DetectionPlan
