/-
The text of a rounding, with a term in the place of the column. The text of the term is pasted in
front of the factor and the divisor without parentheses, so they take in its last summand alone
(`parseExpr_rounded`, `number?_rounded`).
-/
import DetectionPlan.Proofs.Sql.Term
import DetectionPlan.TimeExpression.Ansi

namespace DetectionPlan

open Outcome (bind_ok_iff)

/-! ## The text of the rounding -/

namespace TimeExpressions

/-- A column of units as milliseconds. -/
def millisText (column : String) (unit : EpochUnit) : String :=
  if unit = .milliseconds then column else column ++ " * " ++ toString unit.millis

/-- Milliseconds rounded down to a multiple. -/
def floorText (column : String) (unit : EpochUnit) (length : Int) : String :=
  "FLOOR(" ++ millisText column unit ++ " / " ++ toString length ++ ") * " ++ toString length

theorem floorGroup_cases {column format text : String} {granularity : Period} {zone : Option String}
    (h : floorGroup column format granularity zone = .ok text) :
    ∃ unit, TimeFormat.parse format = .ok (.epoch unit) ∧
      (granularity.isZero ∧ text = millisText column unit ∨
        granularity.isCalendar = false ∧ text = floorText column unit granularity.fixedPart) := by
  -- A time zone that is accepted is none or UTC, which is the same.
  have inUtc : floorGroup column format granularity none = .ok text := by
    cases zone with
    | none => exact h
    | some zone =>
      unfold floorGroup at h
      dsimp only at h
      split at h
      · exact h
      · cases h
  obtain ⟨stored, parsed, h⟩ := bind_ok_iff.mp inUtc
  obtain ⟨millis, hm, h⟩ := bind_ok_iff.mp h
  obtain ⟨unit, rfl, rfl⟩ : ∃ unit, stored = .epoch unit ∧ millis = millisText column unit := by
    cases stored with
    | date pattern => cases hm
    | epoch unit => cases unit <;> (cases hm; exact ⟨_, rfl, rfl⟩)
  refine ⟨unit, parsed, ?_⟩
  split at h
  next zero =>
    obtain rfl := Except.ok.inj h
    exact .inl ⟨zero, rfl⟩
  unfold Period.fixedMillis? at h
  split at h
  next bucket fixed =>
    split at fixed
    · cases fixed
    next calendar =>
      obtain rfl := Option.some.inj fixed
      obtain rfl := Except.ok.inj h
      exact .inr ⟨by simpa using calendar, rfl⟩
  · cases h

theorem floorGroup_ok {column format text : String} {granularity : Period} {zone : Option String}
    (nonzero : granularity.isZero = false) (h : floorGroup column format granularity zone = .ok text) :
    ∃ unit, TimeFormat.parse format = .ok (.epoch unit) ∧ granularity.isCalendar = false ∧
      text = floorText column unit granularity.fixedPart := by
  obtain ⟨unit, parsed, ⟨zero, -⟩ | rounded⟩ := floorGroup_cases h
  · simp [nonzero] at zero
  · exact ⟨unit, parsed, rounded⟩

/-- Columns since the epoch can be rounded in UTC. -/
theorem floorGroup_eq {format : String} {granularity : Period} {zone : Option String} {unit : EpochUnit}
    (nonzero : granularity.isZero = false) (fixed : granularity.isCalendar = false)
    (utc : ∀ z ∈ zone, isUtc z) (parsed : TimeFormat.parse format = .ok (.epoch unit)) (column : String) :
    floorGroup column format granularity zone = .ok (floorText column unit granularity.fixedPart) := by
  have inUtc : floorGroup column format granularity zone = floorGroup column format granularity none := by
    cases zone with
    | none => rfl
    | some z =>
      unfold floorGroup
      simp only [utc z rfl]
      rfl
  have millis : millisOf column (.epoch unit) = .ok (millisText column unit) := by cases unit <;> rfl
  rw [inUtc]
  refine bind_ok_iff.mpr ⟨_, parsed, bind_ok_iff.mpr ⟨_, millis, ?_⟩⟩
  rw [nonzero, Period.fixedMillis?, fixed]
  rfl

end TimeExpressions

/-! ## The rounding that is read -/

namespace Sql

open TimeExpressions (millisText floorText)

/-- A term of units as a number of some length. -/
def quotientExpr (unit : EpochUnit) (length : Int) (e : Expr) : Expr :=
  .binary (if unit = .milliseconds then e else .binary e .times (intExpr unit.millis)) .divide (intExpr length)

/-- A term with the factor and the divisor behind it: of a sum they take in the last summand. -/
def pastedExpr (unit : EpochUnit) (length : Int) : Expr → Expr
  | .binary left .plus right => .binary left .plus (quotientExpr unit length right)
  | .binary left .minus right => .binary left .minus (quotientExpr unit length right)
  | e => quotientExpr unit length e

def roundedExpr (unit : EpochUnit) (length : Int) (e : Expr) : Expr :=
  .binary (.rounding false (pastedExpr unit length e) none) .times (intExpr length)

/-- The tokens of the factor behind a term. -/
def factorTokens (unit : EpochUnit) : List Token :=
  if unit = .milliseconds then [] else .mark .star :: Lexer.intTokens unit.millis

def roundedTokens (unit : EpochUnit) (length : Int) (e : Expr) : List Token :=
  .ofWord "FLOOR" :: .mark .leftParen :: (e.termTokens ++ (factorTokens unit ++ .mark .slash ::
    (Lexer.intTokens length ++ .mark .rightParen :: .mark .star :: Lexer.intTokens length)))

variable {s : ParserSettings} {unit : EpochUnit} {length : Int} {e : Expr}

open Lexer in
theorem tokensOf_millis {w : List Char} {ts : List Token} (h : e.IsTerm s.grammar 0) :
    tokensOf s ((millisText e.text unit).toList ++ ' ' :: w) = .ok (e.termTokens ++ (factorTokens unit ++ ts)) ↔
      tokensOf s w = .ok ts := by
  unfold millisText factorTokens
  split
  · exact (tokensOf_term h rfl).trans tokensOf_blank
  · have text : (e.text ++ " * " ++ toString unit.millis).toList ++ ' ' :: w =
        e.text.toList ++ ' ' :: '*' :: ' ' :: ((toString unit.millis).toList ++ ' ' :: w) := by
      simp [String.toList_append]
    rw [text]
    refine (tokensOf_term h rfl).trans (tokensOf_blank.trans ((tokensOf_mark rfl rfl).trans ?_))
    exact (tokensOf_int unit.millis rfl).trans tokensOf_blank

open Lexer in
theorem tokensOf_rounded {w : List Char} {ts : List Token} (h : e.IsTerm s.grammar 0)
    (stop : w.head?.all isBreak) :
    tokensOf s ((floorText e.text unit length).toList ++ w) = .ok (roundedTokens unit length e ++ ts) ↔
      tokensOf s w = .ok ts := by
  have text : (floorText e.text unit length).toList ++ w = "FLOOR".toList ++ '(' ::
      ((millisText e.text unit).toList ++ ' ' :: '/' :: ' ' :: ((toString length).toList ++ ')' :: ' ' ::
        '*' :: ' ' :: ((toString length).toList ++ w))) := by
    simp [floorText, String.toList_append]
  have tokens : roundedTokens unit length e ++ ts = .ofWord "FLOOR" :: .mark .leftParen :: (e.termTokens ++
      (factorTokens unit ++ .mark .slash :: (intTokens length ++ .mark .rightParen :: .mark .star ::
        (intTokens length ++ ts)))) := by
    simp [roundedTokens]
  rw [text, tokens]
  refine (tokensOf_name (isPlainName_of_isCapitals _ rfl) rfl).trans (tokensOf_open.trans ((tokensOf_millis h).trans ?_))
  refine tokensOf_slash.trans ((tokensOf_int length rfl).trans (tokensOf_close.trans (tokensOf_blank.trans ?_)))
  exact (tokensOf_mark rfl rfl).trans (tokensOf_int length stop)

open DetectionPlan.Sql.Parser

variable {rest : List Token} {least d : Nat}

/-- Behind a product the factor and the divisor take in the whole of it. -/
theorem quotient_read (h : e.IsTerm s.grammar 39) (levels : e.levels ≤ d + 2) (least_le : least ≤ 39) :
    expression s (innerIn s (d + 2)) least (e.termTokens ++ (factorTokens unit ++ .mark .slash ::
        (Lexer.intTokens length ++ .mark .rightParen :: rest))) =
      .ok (quotientExpr unit length e, .mark .rightParen :: rest) := by
  have local_ := innerIn_local s (Nat.le_refl (d + 2))
  let closed : List Token := .mark .rightParen :: rest
  let divisor : List Token := .mark .slash :: (Lexer.intTokens length ++ closed)
  have divided (left : Expr) : infixExpr s (innerIn s (d + 2)) left divisor =
      .ok (.binary left .divide (intExpr length), closed) :=
    markOp_read rfl (int_read length (Nat.zero_le _ : nextPower closed ≤ timesPower) le_rfl)
  have tight : least < timesPower := Nat.lt_succ_of_le least_le
  unfold factorTokens quotientExpr
  split
  · rw [List.nil_append, read_term h levels least_le le_rfl rfl,
      operatorsIn_step local_ le_rfl tight (divided _)]
    exact operatorsIn_stops (Nat.zero_le _)
  · have factor : infixExpr s (innerIn s (d + 2)) e (.mark .star :: (Lexer.intTokens unit.millis ++ divisor)) =
        .ok (.binary e .times (intExpr unit.millis), divisor) :=
      markOp_read rfl (int_read unit.millis (Nat.le_refl timesPower : nextPower divisor ≤ timesPower) le_rfl)
    rw [List.cons_append, read_term h levels least_le le_rfl rfl,
      operatorsIn_step local_ le_rfl tight factor, operatorsIn_step local_ le_rfl tight (divided _)]
    exact operatorsIn_stops (Nat.zero_le _)

/-- An operand of a sum on the right is a product. -/
theorem isTerm_product {g : Grammar} (h : e.IsTerm g 30) : e.IsTerm g 39 := by
  cases h with
  | column h behind => exact .column h behind
  | number h => exact .number h
  | nested h => exact .nested h
  | sign found h apart => exact .sign found h apart
  | @binary _ tight op m left right found binds l r =>
    cases op <;> cases found
    · exact absurd binds (lt_irrefl 30)
    · exact absurd binds (lt_irrefl 30)
    · exact .binary rfl (Nat.lt_succ_self 39) l r

/-- Behind any term they take in the last summand. -/
theorem pasted_read (h : e.IsTerm s.grammar 0) (levels : e.levels + 2 ≤ d) :
    expression s (innerIn s d) 0 (e.termTokens ++ (factorTokens unit ++ .mark .slash ::
        (Lexer.intTokens length ++ .mark .rightParen :: rest))) =
      .ok (pastedExpr unit length e, .mark .rightParen :: rest) := by
  obtain ⟨d, rfl⟩ : ∃ d', d = d' + 2 := ⟨d - 2, by omega⟩
  have product (h : e.IsTerm s.grammar 39) : expression s (innerIn s (d + 2)) 0
      (e.termTokens ++ (factorTokens unit ++ .mark .slash ::
        (Lexer.intTokens length ++ .mark .rightParen :: rest))) =
        .ok (quotientExpr unit length e, .mark .rightParen :: rest) :=
    quotient_read h (by omega) (Nat.zero_le 39)
  cases h with
  | column h behind => exact product (.column h behind)
  | number h => exact product (.number h)
  | nested h => exact product (.nested h)
  | sign found h apart => exact product (.sign found h apart)
  | @binary _ tight op m left right found binds l r =>
    rw [Expr.levels] at levels
    have sum (weak : tight = 30) : expression s (innerIn s (d + 2)) 0
        ((Expr.binary left op right).termTokens ++ (factorTokens unit ++ .mark .slash ::
          (Lexer.intTokens length ++ .mark .rightParen :: rest))) =
          .ok (.binary left op (quotientExpr unit length right), .mark .rightParen :: rest) := by
      obtain ⟨d, rfl⟩ : ∃ d', d = d' + 1 := ⟨d - 1, by omega⟩
      let behind : List Token := factorTokens unit ++ .mark .slash ::
        (Lexer.intTokens length ++ .mark .rightParen :: rest)
      have whole : (Expr.binary left op right).termTokens ++ behind =
          left.termTokens ++ .mark m :: (right.termTokens ++ behind) := by
        rw [Expr.termTokens, found]
        simp
      obtain ⟨mark, tightness, follows, -⟩ := arithmetic?_spec found (right.termTokens ++ behind)
      have last : (innerIn s (d + 3)).expr tight (right.termTokens ++ behind) =
          .ok (quotientExpr unit length right, .mark .rightParen :: rest) := by
        rw [innerIn_expr_succ, weak]
        exact quotient_read (isTerm_product (weak ▸ r)) (by omega) (by decide)
      rw [whole, read_term l (by omega) (Nat.zero_le _) (by omega) follows,
        operatorsIn_step (innerIn_local s le_rfl) le_rfl (by omega) (markOp_read mark last)]
      exact operatorsIn_stops le_rfl
    cases op <;> cases found
    · exact sum rfl
    · exact sum rfl
    · exact product (.binary rfl (Nat.lt_succ_self 39) l r)

theorem rounded_read (h : e.IsTerm s.grammar 0) (levels : e.levels ≤ d) (stops : nextPower rest = 0) :
    (innerIn s (d + 4)).expr 0 (roundedTokens unit length e ++ rest) = .ok (roundedExpr unit length e, rest) := by
  let times : List Token := .mark .star :: (Lexer.intTokens length ++ rest)
  let inside := e.termTokens ++ (factorTokens unit ++ .mark .slash ::
    (Lexer.intTokens length ++ .mark .rightParen :: times))
  have whole : roundedTokens unit length e ++ rest = .ofWord "FLOOR" :: .mark .leftParen :: inside := by
    simp [roundedTokens, inside, times]
  have read : (innerIn s (d + 3)).expr 0 inside = .ok (pastedExpr unit length e, .mark .rightParen :: times) := by
    rw [innerIn_expr_succ]
    exact pasted_read h (by omega)
  have rounded : operand s (innerIn s (d + 3)) (.ofWord "FLOOR" :: .mark .leftParen :: inside) =
      .ok (.rounding false (pastedExpr unit length e) none, times) := by
    have word : Token.ofWord "FLOOR" = .word ⟨"FLOOR", none⟩ (some .FLOOR) := by decide +kernel
    rw [word, operand, bind_of_ok (take_cons _)]
    refine Local.parenthesised_of_ok ((bind_of_ok read).trans ?_)
    rw [bind_of_ok (skipMark_other (by simp))]
    rfl
  have last (left : Expr) : infixExpr s (innerIn s (d + 3)) left times =
      .ok (.binary left .times (intExpr length), rest) :=
    markOp_read rfl (int_read length (stops.trans_le (Nat.zero_le timesPower)) le_rfl)
  have positive : 0 < timesPower := by decide
  rw [innerIn_expr_succ, expression, whole, bind_of_ok rounded, get_bind_apply,
    operatorsIn_step (innerIn_local s le_rfl) le_rfl positive (last _)]
  exact operatorsIn_stops stops.le

/-- The text of the rounding of a term is read as a rounding. -/
theorem parseExpr_rounded (h : e.IsTerm s.grammar 0) (room : e.levels + 4 ≤ s.recursionLimit) :
    s.parseExpr (floorText e.text unit length) = .ok (roundedExpr unit length e) := by
  obtain ⟨d, hd⟩ : ∃ d, s.recursionLimit = d + 4 := ⟨s.recursionLimit - 4, by omega⟩
  exact ParserSettings.parseExpr_of_cut hd ((tokensOf_rounded h rfl).mpr rfl) (rounded_read h (by omega) rfl)

/-- The rounding is written as it was read. -/
theorem text_rounded (unit : EpochUnit) (length : Int) (e : Expr) :
    (roundedExpr unit length e).text = floorText e.text unit length := by
  have pasted : (pastedExpr unit length e).text = millisText e.text unit ++ " / " ++ toString length := by
    unfold pastedExpr quotientExpr millisText
    split <;> split <;> simp [Expr.text, text_intExpr, BinaryOp.text, String.append_assoc]
  rw [roundedExpr, Expr.text, Expr.text, pasted, text_intExpr]
  simp [floorText, BinaryOp.text, String.append_assoc]

/-- Between parentheses it is read again. -/
theorem parseExpr_nested_rounded (h : e.IsTerm s.grammar 0) (room : e.levels + 5 ≤ s.recursionLimit) :
    s.parseExpr (Expr.nested (roundedExpr unit length e)).text = .ok (.nested (roundedExpr unit length e)) := by
  obtain ⟨d, hd⟩ : ∃ d, s.recursionLimit = d + 4 + 1 := ⟨s.recursionLimit - 5, by omega⟩
  have cut : Lexer.tokensOf s ((roundedExpr unit length e).text.toList ++ [')']) =
      .ok (roundedTokens unit length e ++ [.mark .rightParen]) := by
    rw [text_rounded]
    exact (tokensOf_rounded h rfl).mpr (Lexer.tokensOf_close.mpr rfl)
  have read : (innerIn s (d + 4)).expr 0 (roundedTokens unit length e ++ [.mark .rightParen]) =
      .ok (roundedExpr unit length e, [.mark .rightParen]) := rounded_read h (by omega) rfl
  exact ParserSettings.parseExpr_nested_of_cut hd cut (by decide +kernel) (by decide +kernel) read

/-! ## Its value -/

variable {row : NumberRow}

/-- The number of an expression of which a factor scales the last summand. -/
def Expr.scaleLast? (row : NumberRow) (factor : ℚ) : Expr → Option ℚ
  | .binary left .plus right =>
    (left.number? row).bind fun a => (right.number? row).map fun b => a + b * factor
  | .binary left .minus right =>
    (left.number? row).bind fun a => (right.number? row).map fun b => a - b * factor
  | e => (e.number? row).map (· * factor)

theorem number?_quotient (positive : 0 < length) : (quotientExpr unit length e).number? row =
    (e.number? row).map (· * ((unit.millis : ℚ) / length)) := by
  have nonzero : (length : ℚ) ≠ 0 := by exact_mod_cast (Int.ne_of_gt positive)
  unfold quotientExpr
  split
  next whole =>
    cases found : e.number? row <;>
      simp [Expr.number?, found, BinaryOp.number?, nonzero, whole, EpochUnit.millis, div_eq_mul_inv]
  next =>
    cases found : e.number? row <;>
      simp [Expr.number?, found, BinaryOp.number?, nonzero, mul_div_assoc]

/-- The rounding is a multiple of the length: of the term with its last summand scaled, rounded down. -/
theorem number?_rounded (positive : 0 < length) : (roundedExpr unit length e).number? row =
    (e.scaleLast? row ((unit.millis : ℚ) / length)).map fun n => ((⌊n⌋ * length : Int) : ℚ) := by
  have pasted : (pastedExpr unit length e).number? row = e.scaleLast? row ((unit.millis : ℚ) / length) := by
    unfold pastedExpr Expr.scaleLast?
    split
    · simp only [Expr.number?, number?_quotient positive, BinaryOp.number?]
      cases Expr.number? row _ <;> cases Expr.number? row _ <;> rfl
    · simp only [Expr.number?, number?_quotient positive, BinaryOp.number?]
      cases Expr.number? row _ <;> cases Expr.number? row _ <;> rfl
    · exact number?_quotient positive
  simp only [roundedExpr, Expr.number?, pasted, number?_int, BinaryOp.number?]
  cases e.scaleLast? row ((unit.millis : ℚ) / length) <;> simp

end Sql

end DetectionPlan
