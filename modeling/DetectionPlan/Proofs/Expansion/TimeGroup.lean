/-
What a call of `__timeGroup` becomes that has a term in the place of the column. The text of the
term is pasted into the rounding, so the factor and the divisor scale the last summand of a sum
alone. All other terms are rounded down as columns are (`timeGroup_value_iff`).
-/
import DetectionPlan.Proofs.Expansion.Argument
import DetectionPlan.Proofs.Expansion.TimeQuery
import DetectionPlan.Proofs.Period.Floor
import DetectionPlan.Proofs.TimeExpression.Rounding

namespace DetectionPlan

open Sql (Call Expr)

/-! ## Sums -/

namespace Sql.Expr

/-- Sums and differences, but for those between parentheses. -/
def isSum : Expr → Bool
  | .binary _ .plus _ | .binary _ .minus _ => true
  | _ => false

variable {row : NumberRow} {e : Expr} {value : ℚ}

theorem scaleLast?_of_not_isSum (h : e.isSum = false) (factor : ℚ) :
    e.scaleLast? row factor = (e.number? row).map (· * factor) := by
  unfold isSum at h
  unfold scaleLast?
  split <;> simp_all

/-- The last summand of a number can be scaled. -/
theorem exists_scaleLast? (h : e.number? row = some value) (factor : ℚ) :
    ∃ scaled, e.scaleLast? row factor = some scaled := by
  have sum {left right : Expr} {op : BinaryOp} (h : (Expr.binary left op right).number? row = some value) :
      ∃ a b, left.number? row = some a ∧ right.number? row = some b := by
    obtain ⟨a, first, h⟩ := Option.bind_eq_some_iff.mp h
    obtain ⟨b, last, -⟩ := Option.bind_eq_some_iff.mp h
    exact ⟨a, b, first, last⟩
  unfold scaleLast?
  split
  · obtain ⟨a, b, first, last⟩ := sum h
    exact ⟨a + b * factor, by simp [first, last]⟩
  · obtain ⟨a, b, first, last⟩ := sum h
    exact ⟨a - b * factor, by simp [first, last]⟩
  · exact ⟨value * factor, by rw [h]; rfl⟩

end Sql.Expr

/-! ## The call -/

namespace Expansion

variable {x : Expansion} {c : Call} {e : Expr} {unit : EpochUnit} {p : Period}

/-- A call of `__timeGroup` on a term of units, which arithmetic can round down to buckets of a fixed
length. In the place of a quoted text the call gets what stands between the quotes. -/
structure Rounds (x : Expansion) (c : Call) (e : Expr) (unit : EpochUnit) (p : Period) : Prop where
  callee : ∃ name, x.callee? c = some (name, Placeholder.timeGroup)
  arguments : ∃ quantifier format period, c.arguments = .list quantifier [.positional e, format, period] ∧
    TimeFormat.parse (argumentText x.scope.render format) = .ok (.epoch unit) ∧
    Period.parse (argumentText x.scope.render period) = .ok p
  term : e.IsTerm x.parser.grammar 0
  unquoted : x.scope.render.literalQuote = '\x27' ∨ e.text.toList.head? ≠ some x.scope.render.literalQuote
  builder : ∃ format, x.scope.expressions = TimeExpressions.ansi format
  utc : ∀ zone ∈ x.scope.timezone, isUtc zone
  fixed : p.isCalendar = false
  nonzero : p.isZero = false
  room : e.levels + 5 ≤ x.parser.recursionLimit

theorem unquoteLiteral_other {r : Sql.RenderSettings} {text : String}
    (h : text.toList.head? ≠ some r.literalQuote) : r.unquoteLiteral text = text :=
  Sql.RenderSettings.unquoteLiteral_eq_self fun ⟨_, enclosed⟩ => h (by rw [enclosed]; rfl)

/-- A term is handed over as its text. -/
theorem argumentText_term {g : Sql.Grammar} {r : Sql.RenderSettings} (h : e.IsTerm g 0)
    (unquoted : r.literalQuote = '\x27' ∨ e.text.toList.head? ≠ some r.literalQuote) :
    argumentText r (.positional e) = e.text := by
  have begins : e.text.toList.head? ≠ some r.literalQuote := by
    rcases unquoted with quote | begins
    · obtain ⟨c, first, other⟩ := Sql.head?_text h
      simpa [first, quote] using other
    · exact begins
  have text : argumentText r (.positional e) = r.unquoteLiteral e.text := by cases h <;> rfl
  rw [text, unquoteLiteral_other begins]

theorem expand_timeGroup {s : RequestScope} {format period text : String} (column : String)
    (parsed : Period.parse period = .ok p) (grouped : s.expressions.group column format p s.timezone = .ok text)
    (given : Properties) : (Placeholder.timeGroup.expand s [column, format, period]).run given =
      .ok (text, given.put .granularity p.text) := by
  have granularity : Placeholder.periodArgument Placeholder.timeGroupName period = .ok p := by
    rw [Placeholder.periodArgument, parsed]
    rfl
  exact (Placeholder.run_bind granularity _ _).trans
    ((Placeholder.run_write _ _ _ _).trans (Placeholder.run_ok grouped _))

/-- The call becomes the rounding of the term, between parentheses. -/
theorem step_timeGroup (h : x.Rounds c e unit p) (given : Properties) :
    (x.step (.call c)).run given =
      .ok (.nested (Sql.roundedExpr unit p.fixedPart e), given.put .granularity p.text) := by
  obtain ⟨name, callee⟩ := h.callee
  obtain ⟨quantifier, format, period, arguments, units, parsed⟩ := h.arguments
  obtain ⟨stored, builder⟩ := h.builder
  let r := x.scope.render
  have handed : x.argumentTexts name c.arguments =
      .ok [e.text, argumentText r format, argumentText r period] := by
    rw [arguments]
    simp [argumentTexts, argumentText_term h.term h.unquoted, r]
  have grouped : x.scope.expressions.group e.text (argumentText r format) p x.scope.timezone =
      .ok (TimeExpressions.floorText e.text unit p.fixedPart) := by
    rw [builder]
    exact TimeExpressions.floorGroup_eq h.nonzero h.fixed h.utc units e.text
  have read : x.parser.parseExpr (TimeExpressions.floorText e.text unit p.fixedPart) =
      .ok (Sql.roundedExpr unit p.fixedPart e) :=
    Sql.parseExpr_rounded h.term (Nat.le_trans (Nat.le_succ _) h.room)
  exact run_step callee handed (expand_timeGroup e.text parsed grouped given) read

end Expansion

/-- **What `__timeGroup` makes of a term.** The text of the term is read as the term, and that of the
expansion as the expansion, whose number is a multiple of the bucket. It is the one at or below the
milliseconds of the term for every term that is no sum. Of a sum the last summand alone is scaled, and
the number is that multiple only if rounding down makes up for it. -/
theorem timeGroup_value_iff {x : Expansion} {c : Call} {e : Expr} {unit : EpochUnit} {p : Period}
    (h : x.Rounds c e unit p) (given : Properties) :
    x.parser.parseExpr e.text = .ok e ∧
    ∃ expansion, (x.step (.call c)).run given = .ok (expansion, given.put .granularity p.text) ∧
      x.parser.parseExpr expansion.text = .ok expansion ∧
      ∀ (row : NumberRow) (value : ℚ), e.number? row = some value →
        ∃ scaled, e.scaleLast? row ((unit.millis : ℚ) / p.fixedPart) = some scaled ∧
          expansion.number? row = some ((⌊scaled⌋ * p.fixedPart : Int) : ℚ) ∧
          (expansion.number? row = some ((⌊value * unit.millis / p.fixedPart⌋ * p.fixedPart : Int) : ℚ) ↔
            ⌊scaled⌋ = ⌊value * unit.millis / p.fixedPart⌋) ∧
          (e.isSum = false → scaled = value * unit.millis / p.fixedPart) := by
  have positive := Period.fixedPart_pos h.nonzero h.fixed
  have own := Sql.parseExpr_term h.term (Nat.lt_of_lt_of_le (by omega) h.room)
  refine ⟨own, _, Expansion.step_timeGroup h given, Sql.parseExpr_nested_rounded h.term h.room, ?_⟩
  intro row value found
  obtain ⟨scaled, last⟩ := Sql.Expr.exists_scaleLast? found ((unit.millis : ℚ) / p.fixedPart)
  have number : (Expr.nested (Sql.roundedExpr unit p.fixedPart e)).number? row =
      some ((⌊scaled⌋ * p.fixedPart : Int) : ℚ) := by
    rw [Expr.number?, Sql.number?_rounded positive, last]
    rfl
  refine ⟨scaled, last, number, ?_, fun product => ?_⟩
  · rw [number]
    constructor
    · intro same
      exact Int.eq_of_mul_eq_mul_right (Int.ne_of_gt positive) (Int.cast_injective (Option.some.inj same))
    · intro same
      rw [same]
  · rw [Sql.Expr.scaleLast?_of_not_isSum product, found] at last
    rw [← Option.some.inj last, mul_div_assoc]

/-- The sum of two columns. -/
def columnSum : Expr := .binary (.name [⟨"a", none⟩]) .plus (.name [⟨"b", none⟩])

/-- `__timeGroup(a + b, 'EPOCH_MILLIS', 'P1D')`. -/
def dayOfSum : Call :=
  ⟨[⟨"__timeGroup", none⟩], .list none [.positional columnSum,
    .positional (.literal (.string .single "EPOCH_MILLIS")), .positional (.literal (.string .single "P1D"))]⟩

def secondDay : Expansion where
  parser := {}
  registry := .builtin
  scope := { expressions := .ansi (.epoch .milliseconds), interval := ⟨86400000, 172800000, by decide⟩ }
  strict := true

/-- The last millisecond of the first day, and one more. -/
def lastMilli : NumberRow := fun name =>
  if name = [⟨"a", none⟩] then some 86399999 else if name = [⟨"b", none⟩] then some 1 else none

/-- The sum is the start of the second day, but is not rounded to it. -/
theorem timeGroup_value_iff_sum :
    secondDay.Rounds dayOfSum columnSum .milliseconds { days := 1 } ∧
    secondDay.parser.parseExpr "__timeGroup(a + b, 'EPOCH_MILLIS', 'P1D')" = .ok (.call dayOfSum) ∧
    ∃ expansion, (secondDay.step (.call dayOfSum)).run .empty =
        .ok (expansion, Properties.put .empty .granularity "P1D") ∧
      secondDay.parser.parseExpr expansion.text = .ok expansion ∧
      columnSum.number? lastMilli = some 86400000 ∧
      expansion.number? lastMilli ≠ some 86400000 ∧
      expansion.number? lastMilli = some (86399999 * 86400000) := by
  have column (word : String) (plain : (Sql.Grammar.generic).isPlainName word)
      (first : Sql.startsName .generic word) (power : Nat) :
      (Expr.name [⟨word, none⟩]).IsTerm .generic power := .column (.plain ⟨plain, first⟩) nofun
  have term : columnSum.IsTerm .generic 0 := .binary rfl (by decide)
    (column "a" (by decide +kernel) (by decide +kernel) _) (column "b" (by decide +kernel) (by decide +kernel) _)
  have rounds : secondDay.Rounds dayOfSum columnSum .milliseconds { days := 1 } :=
    { callee := ⟨_, Expansion.callee?_builtin rfl (List.mem_pair.mpr (.inr rfl)) _⟩
      arguments := ⟨_, _, _, rfl, rfl, rfl⟩
      term := term
      unquoted := .inl rfl
      builder := ⟨_, rfl⟩
      utc := nofun
      fixed := rfl
      nonzero := rfl
      room := by decide }
  obtain ⟨-, expansion, step, read, values⟩ := timeGroup_value_iff rounds .empty
  have sum : columnSum.number? lastMilli = some 86400000 := by
    simp [columnSum, Expr.number?, lastMilli, Sql.BinaryOp.number?]
    norm_num
  obtain ⟨scaled, last, number, -⟩ := values lastMilli _ sum
  have day : Period.fixedPart { days := 1 } = 86400000 := rfl
  have whole : ⌊scaled⌋ = 86399999 := by
    have pasted : 86399999 + 1 * ((1 : ℚ) / 86400000) = scaled := by
      simpa [columnSum, Expr.scaleLast?, Expr.number?, lastMilli, EpochUnit.millis, day] using last
    rw [← pasted, Int.floor_eq_iff]
    norm_num
  rw [whole, day] at number
  refine ⟨rounds, ?_, expansion, step, read, sum, ?_, ?_⟩
  · let tokens : List Sql.Token := [.word ⟨"__timeGroup", none⟩ none, .mark .leftParen, .word ⟨"a", none⟩ none,
      .mark .plus, .word ⟨"b", none⟩ none, .mark .comma, .string .single "EPOCH_MILLIS", .mark .comma,
      .string .single "P1D", .mark .rightParen]
    exact Outcome.bind_ok_iff.mpr ⟨tokens, by decide +kernel, rfl⟩
  · rw [number]
    norm_num
  · rw [number]
    norm_num

end DetectionPlan
