/-
The tokens of a condition with further ones are read back as their conjunction.
Two things may prevent it: an `IS DISTINCT FROM` that is open at the right edge
takes in what follows, and what starts with `SELECT` or `WITH` is a query between
parentheses.
-/
import DetectionPlan.Proofs.Sql.Condition

namespace DetectionPlan.Sql

namespace Expr

/-- Whether `IS DISTINCT FROM` is open at the right edge of an expression. -/
def opensDistinct : Expr → Bool
  | .distinct .. => true
  | .unary _ e => e.opensDistinct
  | .binary _ _ right => right.opensDistinct
  | .between _ _ _ high => high.opensDistinct
  | .like _ _ _ pattern none => pattern.opensDistinct
  | _ => false

/-- The name that an expression starts with, if it starts with one. -/
def firstName : Expr → Option Ident
  | .name parts | .star parts | .call ⟨parts, _⟩ => parts.head?
  | .binary left _ _ | .distinct left _ _ => left.firstName
  | .test e _ _ | .inList e _ _ | .inQuery e _ _ | .between e _ _ _ | .like e _ _ _ _ => e.firstName
  | .cast .colons e _ => e.firstName
  | _ => none

/-- What an expression has at its left, if it ends in an operator and what that takes in. -/
def leftOperand? : Expr → Option Expr
  | .binary left _ _ | .distinct left _ _ => some left
  | .test e _ _ | .inList e _ _ | .inQuery e _ _ | .between e _ _ _ | .like e _ _ _ _ => some e
  | .cast .colons e _ => some e
  | _ => none

theorem firstName_of_leftOperand? {e left : Expr} (h : e.leftOperand? = some left) : e.firstName = left.firstName := by
  unfold leftOperand? at h
  split at h <;> cases h <;> rfl

/-- Whether an expression is an alternative at its top. -/
def isAlternative : Expr → Bool
  | .binary _ .or _ | .binary _ .xor _ => true
  | _ => false

theorem asConjunct_eq (e : Expr) : e.asConjunct = if e.isAlternative then .nested e else e := by
  unfold asConjunct isAlternative
  split <;> simp

end Expr

namespace Parser

variable {s : ParserSettings} {inner : Inner}

/-! ## The right edge -/

/-- Nothing that binds looser than `AND` is open at the right edge, unless
`IS DISTINCT FROM` is. -/
def Tight (e : Expr) : Prop := e.opensDistinct = false → 10 ≤ e.edgePower

/-- The same, or an alternative that was read with a power that allows one. -/
def TightAt (power : Nat) (e : Expr) : Prop := Tight e ∨ e.isAlternative ∧ power < 5

theorem TightAt.tight {power : Nat} {e : Expr} (h : TightAt power e) (hp : 5 ≤ power) : Tight e :=
  h.resolve_right fun alternative => absurd alternative.2 (Nat.not_lt.mpr hp)

/-- What nests one level deeper is tight. -/
def Inner.Tight (inner : Inner) : Prop := ∀ power, Answers (TightAt power) (inner.expr power)

theorem tight_of_closed {e : Expr} (h : e.edgePower = 50) : Tight e := fun _ => by omega

theorem nameOrCall_tight (first : Ident) : Answers Tight (nameOrCall s inner first) := by
  have call (c : Call) : Tight (.call c) := tight_of_closed rfl
  exact .bind fun _ => .ite (.pure (tight_of_closed rfl))
    (.bind fun _ => .ite (.bind fun _ => .pure (call _)) (.pure (tight_of_closed rfl)))

theorem wordCall_tight (name : Ident) : Answers Tight (wordCall s inner name) := by
  have call (c : Call) : Tight (.call c) := tight_of_closed rfl
  exact .bind fun _ => .ite (.bind fun _ => .pure (call _)) (.pure (call _))

theorem caseExpr_tight : Answers Tight (caseExpr inner) := by
  have branches (operand : Option Expr) : Answers Tight (caseBranches inner operand) :=
    .bind fun _ => .bind fun _ => .bind fun _ => .pure (tight_of_closed rfl)
  exact .bind fun _ => .ite (branches none) (.bind fun e => .bind fun _ => branches (some e))

theorem roundingExpr_tight (upward : Bool) : Answers Tight (roundingExpr inner upward) := by
  refine .parenthesised (.bind fun e => .bind fun _ => .ite (.bind fun t => ?_) (.pure (tight_of_closed rfl)))
  split
  · exact .pure (tight_of_closed rfl)
  · exact .fail

theorem castExpr_tight (style : CastStyle) : Answers Tight (castExpr inner style) :=
  .parenthesised (.bind fun _ => .bind fun _ => .bind fun _ => .pure (tight_of_closed rfl))

theorem existsExpr_tight (negated : Bool) : Answers Tight (existsExpr inner negated) :=
  .bind fun _ => .pure (tight_of_closed rfl)

theorem group_tight : Answers Tight (group s inner) := by
  rw [group_eq]
  refine .bind_of (.bind fun _ => .ite (.bind fun q => .pure (tight_of_closed rfl)) (.bind fun items => ?_))
    fun e h => .bind fun _ => .pure h
  split <;> exact .pure (tight_of_closed rfl)

/-- A sign or `NOT` has the edge of its operand. -/
theorem unary_tight (h : inner.Tight) (op : UnaryOp) :
    Answers Tight (do return Expr.unary op (← inner.expr op.power)) := by
  have power : 15 ≤ op.power := by cases op <;> decide
  refine .bind_of (h op.power) fun e he => .pure fun closed => ?_
  have := he.tight (by omega) closed
  exact Nat.le_min.mpr ⟨by omega, this⟩

theorem keywordExpr_tight (h : inner.Tight) (name : Ident) (k : Keyword) :
    Answers Tight (keywordExpr s inner name k) := by
  have call : Tight (.call ⟨[name], .absent⟩) := tight_of_closed rfl
  unfold keywordExpr
  split
  iterate 3 exact .pure (tight_of_closed rfl)
  iterate 5 exact wordCall_tight name
  iterate 4 exact .ite (.pure call) (nameOrCall_tight name)
  · exact caseExpr_tight
  iterate 3 exact castExpr_tight _
  iterate 2 exact roundingExpr_tight _
  · exact existsExpr_tight false
  · exact .bind fun _ => .ite (existsExpr_tight true) (unary_tight h .not)
  · exact nameOrCall_tight name

theorem operand_tight (h : inner.Tight) : Answers Tight (operand s inner) := by
  refine .bind fun t => ?_
  split
  · exact keywordExpr_tight h _ _
  · exact nameOrCall_tight _
  · exact .pure (tight_of_closed rfl)
  · exact .pure (tight_of_closed rfl)
  · exact unary_tight h .minus
  · exact unary_tight h .plus
  · exact group_tight
  · exact .fail

theorem testExpr_tight (e : Expr) : Answers Tight (testExpr inner e) := by
  have distinct (negated : Bool) (right : Expr) : Tight (.distinct e negated right) := nofun
  have test (negated : Bool) (what : TruthTest) : Answers Tight (testExpr.finish e negated what) :=
    .bind fun _ => .pure (tight_of_closed rfl)
  refine .bind fun negated => .bind fun _ => .ite (.bind fun _ => .pure (distinct _ _)) (.bind fun k => ?_)
  split <;> first | exact test _ _ | exact .fail

theorem betweenExpr_tight (h : inner.Tight) (e : Expr) (negated : Bool) :
    Answers Tight (betweenExpr inner e negated) := by
  refine .bind fun low => .bind fun _ => .bind_of (h rangePower) fun high hh => .pure fun closed => ?_
  have := hh.tight (by decide) closed
  exact Nat.le_min.mpr ⟨by decide, this⟩

theorem likeExpr_tight (h : inner.Tight) (e : Expr) (negated caseless : Bool) :
    Answers Tight (likeExpr inner e negated caseless) := by
  refine .bind_of (h likePower) fun pattern hp => .bind fun escape => .pure ?_
  cases escape with
  | some text => exact tight_of_closed rfl
  | none =>
    intro closed
    have := hp.tight (by decide) closed
    exact Nat.le_min.mpr ⟨by decide, this⟩

theorem inExpr_tight (e : Expr) (negated : Bool) : Answers Tight (inExpr s inner e negated) := by
  refine .parenthesised (.bind fun _ => .ite (.bind fun _ => .pure (tight_of_closed rfl)) ?_)
  exact .bind fun _ => .ite (.pure (tight_of_closed rfl)) (.bind fun _ => .pure (tight_of_closed rfl))

theorem negatable_tight (h : inner.Tight) (left : Expr) (negated : Bool) (t : Token) :
    Answers Tight (infixExpr.negatable s inner left negated t) := by
  unfold infixExpr.negatable
  split
  · exact inExpr_tight left negated
  · exact betweenExpr_tight h left negated
  · exact likeExpr_tight h left negated false
  · exact likeExpr_tight h left negated true
  · exact .fail

theorem operation_tight (h : inner.Tight) (left : Expr) {op : BinaryOp} (hop : 10 ≤ op.power) :
    Answers Tight (do return Expr.binary left op (← inner.expr op.power)) := by
  refine .bind_of (h op.power) fun right hr => .pure fun closed => ?_
  have := hr.tight (by omega) closed
  exact Nat.le_min.mpr ⟨hop, this⟩

theorem markOp?_le {m : Mark} {op : BinaryOp} {power : Nat} (h : markOp? m = some (op, power)) :
    10 ≤ op.power := by
  cases m <;> cases h <;> decide

theorem infixExpr_tight (h : inner.Tight) {left e : Expr} {ts rest : List Token}
    (he : infixExpr s inner left ts = .ok (e, rest)) :
    Tight e ∨ e.isAlternative ∧ nextPower ts = 5 := by
  match ts with
  | [] => cases he
  | t :: ts =>
    rw [infixExpr, bind_of_ok (take_cons t)] at he
    split at he
    · have cast : Answers Tight (do return Expr.cast .colons left (← dataType)) :=
        .bind fun _ => .pure (tight_of_closed rfl)
      exact .inl (cast he)
    next m _ =>
      cases found : markOp? m with
      | none =>
        simp only [found] at he
        cases he
      | some r =>
        obtain ⟨op, power⟩ := r
        obtain rfl := markOp?_power found
        simp only [found] at he
        exact .inl (operation_tight h left (markOp?_le found) he)
    · exact .inl (testExpr_tight left he)
    · have negated : Answers Tight (do infixExpr.negatable s inner left true (← take)) :=
        .bind fun t => negatable_tight h left true t
      exact .inl (negated he)
    next name k _ _ =>
      cases found : wordOp? k with
      | none =>
        simp only [found] at he
        exact .inl (negatable_tight h left false _ he)
      | some r =>
        obtain ⟨op, power⟩ := r
        obtain rfl := wordOp?_power found
        simp only [found] at he
        cases k <;> cases found
        case some.OR.refl =>
          obtain ⟨right, mid, -, he⟩ := bind_eq_ok_iff.mp he
          obtain ⟨rfl, -⟩ := Prod.mk.inj (Except.ok.inj he)
          exact .inr ⟨rfl, rfl⟩
        all_goals exact .inl (operation_tight h left (by decide) he)
    · cases he

theorem operatorsIn_tight (h : inner.Tight) {power : Nat} (n : Nat) {left e : Expr} {ts rest : List Token}
    (hl : TightAt power left) (he : operatorsIn s inner power n left ts = .ok (e, rest)) :
    TightAt power e := by
  induction n generalizing left ts with
  | zero =>
    obtain ⟨rfl, -⟩ := Prod.mk.inj (Except.ok.inj he)
    exact hl
  | succ n ih =>
    simp only [operatorsIn, get_bind_apply] at he
    split at he
    next binds =>
      obtain ⟨first, mid, hf, hr⟩ := bind_eq_ok_iff.mp he
      refine ih ?_ hr
      rcases infixExpr_tight h hf with tight | ⟨alternative, power_eq⟩
      · exact .inl tight
      · exact .inr ⟨alternative, power_eq ▸ binds⟩
    · obtain ⟨rfl, -⟩ := Prod.mk.inj (Except.ok.inj he)
      exact hl

theorem innerIn_tight (s : ParserSettings) (d : Nat) : (innerIn s d).Tight := by
  induction d with
  | zero =>
    intro power ts rest e he
    rw [innerIn_expr_zero] at he
    cases he
  | succ d ih =>
    intro power ts rest e he
    rw [innerIn_expr_succ] at he
    obtain ⟨left, mid, hl, he⟩ := bind_eq_ok_iff.mp he
    exact operatorsIn_tight ih mid.length (.inl (operand_tight ih hl)) he

/-! ## The left edge -/

theorem infixExpr_leftOperand (left : Expr) :
    Answers (fun e => e.leftOperand? = some left) (infixExpr s inner left) := by
  let P (e : Expr) := e.leftOperand? = some left
  have negatable (negated : Bool) (t : Token) : Answers P (infixExpr.negatable s inner left negated t) := by
    have like (caseless : Bool) : Answers P (likeExpr inner left negated caseless) :=
      .bind fun _ => .bind fun _ => .pure rfl
    unfold infixExpr.negatable
    split
    · refine .parenthesised (.bind fun _ => .ite (.bind fun _ => .pure rfl) ?_)
      exact .bind fun _ => .ite (.pure rfl) (.bind fun _ => .pure rfl)
    · exact .bind fun _ => .bind fun _ => .bind fun _ => .pure rfl
    · exact like false
    · exact like true
    · exact .fail
  have test (negated : Bool) (what : TruthTest) : Answers P (testExpr.finish left negated what) :=
    .bind fun _ => .pure rfl
  refine .bind fun t => ?_
  split
  · exact .bind fun _ => .pure rfl
  · split
    · exact .bind fun _ => .pure rfl
    · exact .fail
  · refine .bind fun negated => .bind fun _ => .ite (.bind fun _ => .pure rfl) (.bind fun k => ?_)
    split <;> first | exact test _ _ | exact .fail
  · exact .bind fun t => negatable true t
  · split
    · exact .bind fun _ => .pure rfl
    · exact negatable false _
  · exact .fail

theorem operatorsIn_firstName (power n : Nat) (left : Expr) :
    Answers (fun e => e.firstName = left.firstName) (operatorsIn s inner power n left) := by
  induction n generalizing left with
  | zero => exact .pure rfl
  | succ n ih =>
    refine .bind fun ts => .ite (.bind_of (infixExpr_leftOperand left) fun e he => ?_) (.pure rfl)
    intro ts rest e' h
    exact (ih e h).trans (Expr.firstName_of_leftOperand? he)

/-- An expression that starts with a word that is a name starts with that name. -/
theorem expression_firstName {power : Nat} {name : Ident} {k : Keyword} {ts rest : List Token} {e : Expr}
    (hk : k = .SELECT ∨ k = .WITH)
    (h : expression s inner power (.word name (some k) :: ts) = .ok (e, rest)) :
    e.firstName = some name := by
  obtain ⟨left, mid, hl, he⟩ := bind_eq_ok_iff.mp h
  have named : Answers (fun e => e.firstName = some name) (nameOrCall s inner name) :=
    .bind fun _ => .ite (.pure rfl) (.bind fun _ => .ite (.bind fun _ => .pure rfl) (.pure rfl))
  rw [operand, bind_of_ok (take_cons _)] at hl
  refine (operatorsIn_firstName power mid.length left he).trans ?_
  rcases hk with rfl | rfl <;> exact named hl

/-! ## Conjunctions -/

/-- An expression stops before what does not bind. -/
theorem operatorsIn_stopped {inner' : Inner} (h : inner.Local inner') {power : Nat} (n : Nat) {left e : Expr}
    {ts rest : List Token} (enough : ts.length ≤ n)
    (he : operatorsIn s inner power n left ts = .ok (e, rest)) : nextPower rest ≤ power := by
  induction n generalizing left ts with
  | zero =>
    obtain rfl := List.eq_nil_of_length_eq_zero (Nat.le_zero.mp enough)
    obtain ⟨-, rfl⟩ := Prod.mk.inj (Except.ok.inj he)
    exact Nat.zero_le _
  | succ n ih =>
    simp only [operatorsIn, get_bind_apply] at he
    split at he
    · obtain ⟨first, mid, hf, hr⟩ := bind_eq_ok_iff.mp he
      have := (infixExpr_local h left).takes_lt hf
      exact ih (by omega) hr
    next low =>
      obtain ⟨-, rfl⟩ := Prod.mk.inj (Except.ok.inj he)
      exact Nat.le_of_not_lt low

theorem expr_stopped {d power : Nat} {ts rest : List Token} {e : Expr}
    (h : (innerIn s d).expr power ts = .ok (e, rest)) : nextPower rest ≤ power := by
  cases d with
  | zero =>
    rw [innerIn_expr_zero] at h
    cases h
  | succ d =>
    rw [innerIn_expr_succ] at h
    obtain ⟨left, mid, -, he⟩ := bind_eq_ok_iff.mp h
    exact operatorsIn_stopped (innerIn_local s (Nat.le_refl d)) mid.length (Nat.le_refl _) he

/-- The tokens of a condition with further ones. -/
def conjoinTokens (e : Expr) (ts : List Token) (conditions : List (List Token)) : List Token :=
  (if e.isAlternative then .mark .leftParen :: ts ++ [.mark .rightParen] else ts) ++
    conjunctionTokens conditions

theorem ends_conjunctionTokens {cs : List (List Token)} (given : cs ≠ []) (rest : List Token) :
    Ends (conjunctionTokens cs ++ rest) := by
  obtain ⟨c, cs, rfl⟩ := List.exists_cons_of_ne_nil given
  refine ⟨_, _, rfl, .inr ⟨⟨"AND", none⟩, ofWord_and⟩⟩

/-- What may be taken into a conjunction as it is: an alternative that is read
with one level less and is no query between parentheses, or anything that
`IS DISTINCT FROM` does not leave open. -/
structure Conjoinable (s : ParserSettings) (d : Nat) (e : Expr) (ts rest : List Token) : Prop where
  read : (innerIn s d).expr 0 (ts ++ rest) = .ok (e, rest)
  shallow : e.isAlternative → ∃ d', d' < d ∧ (innerIn s d').expr 0 (ts ++ rest) = .ok (e, rest)
  noQuery : e.isAlternative → wordOf? ts.head? ≠ some .SELECT ∧ wordOf? ts.head? ≠ some .WITH
  shut : e.isAlternative = false → e.opensDistinct = false

theorem conjoin_read {d : Nat} {e : Expr} {ts rest : List Token} {ps : List Predicate}
    {conditions : List Expr} (deep : 4 ≤ d) (h : Conjoinable s d e ts rest)
    (hps : List.Forall₂ (fun p c => p.expr = .ok c) ps conditions) (given : ps ≠ [])
    (names : ∀ p ∈ ps, startsName s.grammar p.firstWord) :
    (innerIn s d).expr 0 (conjoinTokens e ts (ps.map Predicate.tokens) ++ rest) =
      .ok (e.conjoin conditions, rest) := by
  obtain ⟨d, rfl⟩ : ∃ n, d = n + 4 := ⟨d - 4, by omega⟩
  let next := conjunctionTokens (ps.map Predicate.tokens) ++ rest
  have stops : nextPower rest = 0 := Nat.le_zero.mp (expr_stopped h.read)
  have more (left : Expr) : operatorsIn s (innerIn s (d + 3)) 0 next.length left next =
      .ok (conditions.foldl (fun all c => .binary all .and (.nested c)) left, rest) :=
    conjunction_read hps names stops (Nat.le_refl _)
  rw [innerIn_expr_succ, Expr.conjoin, Expr.asConjunct_eq, conjoinTokens, List.append_assoc]
  cases alternative : e.isAlternative with
  | true =>
    obtain ⟨d', less, read⟩ := h.shallow alternative
    obtain ⟨noSelect, noWith⟩ := h.noQuery alternative
    have reads := (innerIn_local s (by omega : d' ≤ d + 3)).expr 0
    have inside : (innerIn s (d + 3)).expr 0 (ts ++ .mark .rightParen :: next) =
        .ok (e, .mark .rightParen :: next) :=
      innerIn_edge s (d + 3) 0 ts ⟨_, _, rfl, .inl rfl⟩ (Nat.zero_le _)
        ((reads.deeper (by simp [read])).trans read)
    have nonempty : ts ≠ [] := by
      rintro rfl
      exact absurd (reads.takes_lt read) (Nat.lt_irrefl _)
    obtain ⟨t, ts, rfl⟩ := List.exists_cons_of_ne_nil nonempty
    have nested : operand s (innerIn s (d + 3)) (.mark .leftParen :: (t :: ts ++ .mark .rightParen :: next)) =
        .ok (.nested e, next) := nested_read nofun noSelect noWith inside
    simp only [if_true, List.cons_append, List.append_assoc, List.nil_append]
    rw [expression, bind_of_ok (by simpa using nested)]
    exact more _
  | false =>
    have shut := h.shut alternative
    have tight : 10 ≤ e.edgePower := by
      rcases innerIn_tight s _ 0 h.read with tight | ⟨yes, -⟩
      · exact tight shut
      · rw [alternative] at yes
        cases yes
    have read := h.read
    rw [innerIn_expr_succ] at read
    simp only [Bool.false_eq_true, if_false]
    have ends : Ends next := ends_conjunctionTokens (by simpa using given) rest
    rw [expression_resumes (innerIn_local s (Nat.le_refl _)) (innerIn_edge s _) ends
      (Nat.le_trans ends.nextPower_le tight) read]
    exact more _

end Parser

end DetectionPlan.Sql
