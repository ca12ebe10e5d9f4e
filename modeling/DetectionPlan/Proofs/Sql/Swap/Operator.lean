/-
Operators and whole expressions that turn into others.
-/
import DetectionPlan.Proofs.Sql.Swap.Expression

namespace DetectionPlan.Sql.Parser

variable {s : ParserSettings} {P : Token → Prop} {R : Call → Option Expr → Prop} {inner inner' : Inner}

/-! ## Tests -/

/-- Tokens with the same first. -/
structure Headed (P : Token → Prop) (ts ts' : List Token) : Prop where
  known : Known P ts ts'
  first : ts'.head? = ts.head?

theorem Headed.skips {k : Keyword} : Skips P k (Headed P) where
  word ht h := ⟨List.forall_mem_cons.mpr ⟨ht, h⟩, rfl⟩
  other h first := h.first ▸ first
  known := known

/-- Tokens with the same first and, where that is a keyword, the same second. -/
structure Paired (P : Token → Prop) (ts ts' : List Token) : Prop extends Headed P ts ts' where
  second : wordOf? ts'[1]? = wordOf? ts[1]?

theorem Paired.skipsPair {k l : Keyword} : SkipsPair P k l (Paired P) where
  pair hi hj h := ⟨⟨List.forall_mem_cons.mpr ⟨hi, List.forall_mem_cons.mpr ⟨hj, h⟩⟩, rfl⟩, rfl⟩
  other h second both := second ⟨h.first ▸ both.1, h.second ▸ both.2⟩

theorem Paired.of_stops {t : Token} {ts ts' : List Token} (ht : P t) (h : Stops P ts ts') :
    Paired P (t :: ts) (t :: ts') where
  known := List.forall_mem_cons.mpr ⟨ht, h.known⟩
  first := rfl
  second := by
    rw [List.getElem?_cons_succ, List.getElem?_cons_succ, ← List.head?_eq_getElem?, ← List.head?_eq_getElem?, h.first]

/-- What a keyword tests for. -/
def truthOf? : Keyword → Option TruthTest
  | .NULL => some .null
  | .TRUE => some .true
  | .FALSE => some .false
  | .UNKNOWN => some .unknown
  | _ => none

theorem truthTest_eq (e : Expr) (negated : Bool) :
    truthTest e negated = (do
      match (← peekWord).bind truthOf? with
      | some what => testExpr.finish e negated what
      | none => fail) := by
  refine bind_congr fun k => ?_
  cases k with
  | none => rfl
  | some k => cases k <;> rfl

theorem truthTest_follows (e : Expr) (negated : Bool) :
    Tracks P (e.Turns R) (Expr.Turns R) (Stops P) (Paired P) (truthTest e negated) fun e' => truthTest e' negated := by
  refine Tracks.of_first (fun h => h.first) fun first => ?_
  cases tests : (wordOf? first).bind truthOf? with
  | none =>
    have none (e : Expr) {ts : List Token} (hts : ts.head? = first) : truthTest e negated ts = fail ts := by
      rw [truthTest_eq, bind_of_ok peekWord_apply, hts, tests]
    exact .keeps fail (fun _ => fail) .fail fun ts hts => ⟨none e hts, fun e' => none e' hts⟩
  | some what =>
    obtain ⟨k, word, -⟩ := Option.bind_eq_some_iff.mp tests
    match first, word with
    | some (.word name _), rfl =>
      have tested (e : Expr) (ts : List Token) : truthTest e negated (.word name (some k) :: ts) =
          (Pure.pure (.test e negated what) : Parser Expr) ts := by
        rw [truthTest_eq, bind_of_ok peekWord_apply, List.head?_cons, tests]
        rfl
      refine .eats _ _ _ rfl (fun ht => ?_) fun ts => ⟨tested e ts, fun e' => tested e' ts⟩
      refine (Tracks.pure fun e' turns => ?_).mono fun _ _ h => .of_stops ht h
      cases turns with
      | test turns => exact ⟨_, turns, rfl⟩

theorem testExpr_follows (h : inner.Follows s P R inner') (e : Expr) :
    Tracks P (e.Turns R) (Expr.Turns R) (Stops P) (Headed P) (testExpr inner e) fun e' => testExpr inner' e' := by
  have tested (negated : Bool) : Tracks P (e.Turns R) (Expr.Turns R) (Stops P) (Paired P)
      (do if ← skipWords .DISTINCT .FROM then return .distinct e negated (← inner.expr 0) else truthTest e negated)
      (fun e' => do
        if ← skipWords .DISTINCT .FROM then return .distinct e' negated (← inner'.expr 0)
        else truthTest e' negated) := by
    refine Tracks.skipWords_bind Paired.skipsPair ?_ (truthTest_follows e negated)
    refine Tracks.bind ((h.expr 0).mono fun _ _ h => h.known) fun r => .pure fun e' turns => ?_
    cases turns with
    | distinct hl hr => exact ⟨(_, _), ⟨hl, hr⟩, rfl⟩
  refine Tracks.skipWord_bind Headed.skips ?_ ?_
  · exact (tested true).mono fun _ _ h => h.known
  · exact (tested false).mono fun _ _ h => h.toHeaded

/-! ## Ranges and patterns -/

/-- A list may be closed at once. -/
theorem closes_bind {α γ : Type} {c : Bool} {A : γ → Prop} {T : α → α → Prop} {out : List Token → List Token → Prop}
    {p q : Parser α} {p' q' : γ → Parser α} (yes : Tracks P A T out (Alike P) p p')
    (no : Tracks P A T out (Opening s P) q q') :
    Tracks P A T out (Opening s P) (do if c && (← peek) == some (.mark .rightParen) then p else q)
      (fun k => (do if c && (← peek) == some (.mark .rightParen) then p' k else q' k)) := by
  have looks {p q : Parser α} {ts : List Token} :
      (do if c && (← peek) == some (.mark .rightParen) then p else q : Parser α) ts =
        (if c && ts.head? == some (.mark .rightParen) then p else q) ts := bind_of_ok peek_apply
  intro ts rest a hp known
  rw [looks] at hp
  cases closes : c && ts.head? == some (.mark .rightParen) with
  | true =>
    rw [closes, if_pos rfl] at hp
    refine ⟨(yes hp known).1, fun a' ha rest' hr => ?_⟩
    obtain ⟨k, hk, ts', hts, again⟩ := (yes hp known).2 ha hr
    exact ⟨k, hk, ts', .alike hts, looks.trans (by rw [hts.first, closes]; exact again)⟩
  | false =>
    rw [closes, if_neg nofun] at hp
    refine ⟨(no hp known).1, fun a' ha rest' hr => ?_⟩
    obtain ⟨k, hk, ts', hts, again⟩ := (no hp known).2 ha hr
    have still : (c && ts'.head? == some (.mark .rightParen)) = false := by
      rw [Bool.and_eq_false_imp] at closes ⊢
      exact fun on => beq_false_of_ne (Opening.skipsMark.other hts (by simpa using closes on))
    exact ⟨k, hk, ts', hts, looks.trans (by rw [still]; exact again)⟩

theorem inItems_follows (h : inner.Follows s P R inner') (e : Expr) (negated : Bool) :
    Tracks P (e.Turns R) (Expr.Turns R) (Stops P) (Known P) (inItems s inner e negated)
      fun e' => inItems s inner' e' negated := by
  refine atQuery_bind_follows (s := s) (Tracks.bind h.query fun q => .pure fun e' turns => ?_) ?_
  · cases turns with
    | inQuery he hq => exact ⟨(_, _), ⟨he, hq⟩, rfl⟩
  · refine closes_bind ?_ (Tracks.bind (exprs_follow h) fun items => .pure fun e' turns => ?_)
    · refine (Tracks.pure fun e' turns => ?_).mono fun _ _ h => h.toAlike
      cases turns with
      | inList he hs =>
        cases hs
        exact ⟨_, he, rfl⟩
    · cases turns with
      | inList he hs => exact ⟨(_, _), ⟨he, hs⟩, rfl⟩

theorem negatable_follows (h : inner.Follows s P R inner') (e : Expr) (negated : Bool) (t : Token) :
    Tracks P (e.Turns R) (Expr.Turns R) (Stops P) (Known P) (infixExpr.negatable s inner e negated t)
      fun e' => infixExpr.negatable s inner' e' negated t := by
  have within : Tracks P (e.Turns R) (Expr.Turns R) (Stops P) (Known P) (inExpr s inner e negated)
      fun e' => inExpr s inner' e' negated :=
    ((parenthesised_tracks Unpointed.skipsMark (inItems_follows h e negated)).mono fun _ _ h => h.known).mono_out
      fun _ _ h => h.known
  have between : Tracks P (e.Turns R) (Expr.Turns R) (Stops P) (Known P) (betweenExpr inner e negated)
      fun e' => betweenExpr inner' e' negated := by
    refine Tracks.bind ((h.expr _).mono fun _ _ h => h.known) fun low => ?_
    refine Tracks.bind_eq (expectWord_stays (Stops.skips rfl)) fun _ => ?_
    refine Tracks.bind ((h.expr _).mono fun _ _ h => h.known) fun high => .pure fun e' turns => ?_
    cases turns with
    | between he hl hh => exact ⟨((_, _), _), ⟨⟨he, hl⟩, hh⟩, rfl⟩
  have like (caseless : Bool) : Tracks P (e.Turns R) (Expr.Turns R) (Stops P) (Known P)
      (likeExpr inner e negated caseless) fun e' => likeExpr inner' e' negated caseless := by
    have escape : Stays P (Alike P) (Alike P) escapeText := by
      refine Stays.take_bind fun t => ?_
      cases t with
      | word name k => exact .pure _
      | string kind text =>
        cases kind with
        | single | double => exact .pure _
        | national | hex | triple => exact .fail
      | number | mark | other => exact .fail
    refine Tracks.bind ((h.expr _).mono fun _ _ h => h.known) fun pattern => ?_
    have marked : Stays P (Stops P) (Known P) escapeText :=
      (escape.mono fun _ _ h => h.known).mono_out fun _ _ h => h.toAlike
    refine Tracks.bind_eq (after_stays (Stops.skips rfl) marked) fun text => .pure fun e' turns => ?_
    cases turns with
    | like he hp => exact ⟨(_, _), ⟨he, hp⟩, rfl⟩
  unfold infixExpr.negatable
  split
  · exact within
  · exact between
  · exact like false
  · exact like true
  · exact .fail

/-! ## Operators -/

theorem negatable_paired {name : Ident} {k : Keyword} (paired : k.isPaired) (inner : Inner) (left : Expr)
    (negated : Bool) : infixExpr.negatable s inner left negated (.word name (some k)) = fail := by
  cases k <;> first | rfl | cases paired

/-- The word behind `NOT`, or an operator by itself. -/
theorem negatable_or {t : Token} : (∃ name k, t = .word name (some k) ∧ k.isPaired) ∨
    ∀ k, wordOf? (some t) = some k → k.isPaired = false := by
  match t with
  | .word name (some k) =>
    cases paired : k.isPaired with
    | true => exact .inl ⟨name, k, rfl, paired⟩
    | false => exact .inr fun _ e => Option.some.inj e ▸ paired
  | .word _ none | .number .. | .string .. | .mark _ | .other _ => exact .inr nofun

theorem infixExpr_follows (h : inner.Follows s P R inner') (left : Expr) :
    Tracks P (left.Turns R) (Expr.Turns R) (Stops P) (Stops P) (infixExpr s inner left)
      fun left' => infixExpr s inner' left' := by
  have operation (op : BinaryOp) (power : Nat) : Tracks P (left.Turns R) (Expr.Turns R) (Stops P) (Known P)
      (do return Expr.binary left op (← inner.expr power))
      (fun left' => (do return Expr.binary left' op (← inner'.expr power))) := by
    refine Tracks.bind ((h.expr power).mono fun _ _ h => h.known) fun right => .pure fun e' turns => ?_
    cases turns with
    | binary hl hr => exact ⟨(_, _), ⟨hl, hr⟩, rfl⟩
  refine Tracks.take_bind fun t ht => ?_
  split
  · refine (Tracks.bind_eq dataType_stays fun type => .pure fun e' turns => ?_).mono_out (fun _ _ h => h.toAlike)
      |>.mono fun _ _ h => ?_
    · cases turns with
      | cast turns => exact ⟨_, turns, rfl⟩
    · exact .mark ht h.known rfl
  next m _ =>
    cases found : markOp? m with
    | none => exact .fail
    | some r =>
      refine (operation r.1 r.2).mono fun _ _ h => .mark ht h ?_
      cases m <;> first | rfl | cases found
  · exact (testExpr_follows h left).mono fun _ _ h => .word ht h.known rfl
  · refine Tracks.take_bind fun t ht' => ?_
    obtain ⟨name, k, rfl, paired⟩ | single := negatable_or (t := t)
    · rw [negatable_paired paired]
      exact .fail
    · exact (negatable_follows h left true t).mono fun _ _ h => .cons ht (.of_known ht' h single) nofun
  next name k _ _ =>
    cases found : wordOp? k with
    | some r =>
      refine (operation r.1 r.2).mono fun _ _ h => .word ht h ?_
      cases k <;> first | rfl | cases found
    | none =>
      cases paired : k.isPaired with
      | true =>
        simp only [negatable_paired paired]
        exact .fail
      | false => exact (negatable_follows h left false _).mono fun _ _ h => .word ht h paired
  · exact .fail

/-- What binds next is the same where tokens start alike. -/
theorem nextPower_alike {ts ts' : List Token} (h : Alike P ts ts') : nextPower ts' = nextPower ts := by
  match ts, ts', h with
  | [], [], _ => rfl
  | t :: ts, t' :: ts', h =>
    obtain rfl : t' = t := Option.some.inj h.first
    by_cases not : wordOf? (some t') = some .NOT
    · match t', not with
      | .word name _, rfl =>
        rw [nextPower_not, nextPower_not]
        exact congrArg (Option.elim · 0 negatablePower) (h.second _ rfl rfl)
    · rw [nextPower_first not, nextPower_first not ts]
  | [], _ :: _, h => cases h.first
  | _ :: _, [], h => cases h.first

/-- An expression with an operator, if one that binds so tight comes after it. -/
def operatorOne (s : ParserSettings) (inner : Inner) (power : Nat) (left : Expr) : Parser (Bool × Expr) := do
  if power < nextPower (← get) then return (true, ← infixExpr s inner left)
  else return (false, left)

theorem operatorsIn_rounds (local_ : inner.Local inner) (power : Nat) :
    Rounds (operatorOne s inner power) (operatorsIn s inner power) where
  zero _ := rfl
  succ n left := by
    funext ts
    rw [operatorsIn, operatorOne, bind_assoc, get_bind_apply, get_bind_apply]
    split
    · rw [bind_assoc]
      rfl
    · rfl
  takes h := by
    rw [operatorOne, get_bind_apply] at h
    split at h
    · obtain ⟨e, mid, he, h⟩ := bind_eq_ok_iff.mp h
      obtain ⟨-, rfl⟩ := Prod.mk.inj (Except.ok.inj h)
      exact (infixExpr_local local_ _).takes_lt he
    · cases h
  enough := operatorsIn_enough local_

theorem operatorOne_follows (h : inner.Follows s P R inner') (power : Nat) (left : Expr) :
    Tracks P (left.Turns R) (fun r r' => r'.1 = r.1 ∧ r.2.Turns R r'.2) (Stops P) (Stops P)
      (operatorOne s inner power left) (operatorOne s inner' power) := by
  intro ts rest r hp known
  rw [operatorOne, get_bind_apply] at hp
  split at hp
  next binds =>
    obtain ⟨e, mid, he, hp⟩ := bind_eq_ok_iff.mp hp
    obtain ⟨rfl, rfl⟩ := Prod.mk.inj (Except.ok.inj hp)
    obtain ⟨knownRest, taken⟩ := infixExpr_follows h left he known
    refine ⟨knownRest, ?_⟩
    rintro ⟨_, e'⟩ ⟨rfl, turns⟩ rest' hr
    obtain ⟨left', turnsLeft, ts', hts, he'⟩ := taken turns hr
    refine ⟨left', turnsLeft, ts', hts, ?_⟩
    rw [operatorOne, get_bind_apply, nextPower_alike hts.toAlike, if_pos binds]
    exact (bind_of_ok he').trans rfl
  next loose =>
    obtain ⟨rfl, rfl⟩ := Prod.mk.inj (Except.ok.inj hp)
    refine ⟨known, ?_⟩
    rintro ⟨_, left'⟩ ⟨rfl, turns⟩ rest' hr
    refine ⟨left', turns, rest', hr, ?_⟩
    rw [operatorOne, get_bind_apply, nextPower_alike hr.toAlike, if_neg loose]
    rfl

theorem expression_follows (h : inner.Follows s P R inner') (here : inner.Local inner)
    (fits : ∀ c e, R c (some e) → Fits s P inner' e) (power : Nat) :
    Follows P (Expr.Turns R) (Stops P) (Starts s P) (expression s inner power) (expression s inner' power) := by
  refine Tracks.bind (operand_follows h fits) fun left => ?_
  refine ((operatorsIn_rounds here power).tracks (operatorsIn_rounds h.locally power) (operatorOne_follows h power)
    left).among fun left' turns => ?_
  exact ⟨((), left'), ⟨trivial, turns⟩, rfl⟩

end DetectionPlan.Sql.Parser
