/-
Expressions that turn into others are followed when what nests in them is.
-/
import DetectionPlan.Proofs.Sql.Swap.Opening
import DetectionPlan.Proofs.Sql.Swap.Tree

namespace DetectionPlan.Sql

/-- An expression turns into another, as a call if it is one. -/
def Expr.Stands (R : Call → Option Expr → Prop) (e e' : Expr) : Prop :=
  e.Turns R e' ∧ ∀ name a, e = .call ⟨name, a⟩ → ∃ a', a.Turns R a' ∧ e' = .call ⟨name, a'⟩

theorem Expr.Turns.stands_or {R : Call → Option Expr → Prop} {e e' : Expr} (h : e.Turns R e') :
    e.Stands R e' ∨ ∃ c, e = .call c ∧ R c (some e') := by
  by_cases call : ∃ c, e = .call c
  · obtain ⟨c, rfl⟩ := call
    cases h with
    | swapped h => exact .inr ⟨c, rfl, h⟩
    | call kept h =>
      refine .inl ⟨.call kept h, ?_⟩
      rintro _ _ ⟨⟩
      exact ⟨_, h, rfl⟩
  · exact .inl ⟨h, fun name a e => absurd ⟨_, e⟩ call⟩

namespace Parser

variable {s : ParserSettings} {P : Token → Prop} {R : Call → Option Expr → Prop}

/-- Parsers that follow those for what nests one level deeper. -/
structure Inner.Follows (inner : Inner) (s : ParserSettings) (P : Token → Prop) (R : Call → Option Expr → Prop)
    (inner' : Inner) : Prop where
  expr (power : Nat) : Parser.Follows P (Expr.Turns R) (Stops P) (Starts s P) (inner.expr power) (inner'.expr power)
  query : Parser.Follows P (Query.Turns R) (Stops P) (Alike P) inner.query inner'.query
  locally : inner'.Local inner'

variable {inner inner' : Inner}

/-! ## Names -/

/-- Tokens from which the parts of a name are read before some others. -/
inductive NameTail (star : Bool) (rest : List Token) : List Token → List Ident × Bool → Prop
  | none (h : rest.head? ≠ some (.mark .period)) : NameTail star rest rest ([], false)
  | all (h : star = true) : NameTail star rest (.mark .period :: .mark .star :: rest) ([], true)
  | part {t : Token} {name : Ident} {more : List Token} {r : List Ident × Bool} (h : partOf? t = some name)
    (parts : NameTail star rest more r) : NameTail star rest (.mark .period :: t :: more) (name :: r.1, r.2)

theorem NameTail.read {star : Bool} {rest ts : List Token} {r : List Ident × Bool} (h : NameTail star rest ts r) :
    nameTail star ts = .ok (r, rest) := by
  induction h with
  | none h => exact nameTail_other star h
  | all h =>
    rw [nameTail_point]
    exact if_pos ⟨h, rfl⟩
  | part h parts ih =>
    rw [nameTail_point, h]
    simp only [ih]
    rfl

theorem NameTail.of_read {star : Bool} {rest ts : List Token} {r : List Ident × Bool}
    (h : nameTail star ts = .ok (r, rest)) : NameTail star rest ts r := by
  induction hn : ts.length using Nat.strongRecOn generalizing ts r with
  | _ n ih =>
    by_cases point : ts.head? = some (.mark .period)
    · obtain ⟨more, rfl⟩ := List.head?_eq_some_iff.mp point
      match more with
      | [] => cases h
      | t :: more =>
        rw [nameTail_point] at h
        split at h
        next name part =>
          obtain ⟨⟨r, left⟩, hr, e⟩ := Outcome.map_ok_iff.mp h
          obtain ⟨rfl, rfl⟩ := Prod.mk.inj e
          exact .part part (ih more.length (by simp at hn; omega) hr rfl)
        next none =>
          split at h
          next all =>
            obtain ⟨rfl, rfl⟩ := Prod.mk.inj (Except.ok.inj h)
            exact all.2 ▸ .all all.1
          · cases h
    · rw [nameTail_other star point] at h
      obtain ⟨rfl, rfl⟩ := Prod.mk.inj (Except.ok.inj h)
      exact .none point

/-- A name that is read without stars is read in the same way with them. -/
theorem NameTail.stars {star : Bool} {rest ts : List Token} {r : List Ident × Bool} (h : NameTail star rest ts r) :
    NameTail true rest ts r := by
  induction h with
  | none h => exact .none h
  | all h => exact .all rfl
  | part h _ ih => exact .part h ih

/-- The parts of a name may stand before any tokens that start alike. -/
theorem NameTail.again {star : Bool} {rest ts rest' : List Token} {r : List Ident × Bool} (h : NameTail star rest ts r)
    (known : ∀ t ∈ ts, P t) (hr : Alike P rest rest') :
    ∃ ts', Known P ts ts' ∧ ts'.head? = ts.head? ∧ NameTail star rest' ts' r := by
  induction h with
  | none h => exact ⟨rest', hr.known, hr.first, .none (hr.first ▸ h)⟩
  | all h =>
    simp only [List.forall_mem_cons] at known
    refine ⟨.mark .period :: .mark .star :: rest', ?_, rfl, .all h⟩
    simpa [Known] using ⟨known.1, known.2.1, hr.known⟩
  | @part t _ _ _ h _ ih =>
    simp only [List.forall_mem_cons] at known
    obtain ⟨ts', known', -, again⟩ := ih known.2.2
    refine ⟨.mark .period :: t :: ts', ?_, rfl, .part h again⟩
    simpa [Known] using ⟨known.1, known.2.1, known'⟩

theorem NameTail.known {star : Bool} {rest ts : List Token} {r : List Ident × Bool} (h : NameTail star rest ts r)
    (known : ∀ t ∈ ts, P t) : ∀ t ∈ rest, P t := by
  induction h with
  | none _ => exact known
  | all _ =>
    simp only [List.forall_mem_cons] at known
    exact known.2.2
  | part _ _ ih =>
    simp only [List.forall_mem_cons] at known
    exact ih known.2.2

theorem starName?_of_head {t : Token} {ts ts' : List Token} (h : ts'.head? = ts.head?) :
    starName? (t :: ts') = starName? (t :: ts) := by
  simp only [starName?, List.getElem?_cons_succ, ← List.head?_eq_getElem?, h, List.head?_cons]

theorem nameTail_stays (star : Bool) : Stays P (Alike P) (Second s P) (nameTail star) := by
  refine Follows.of_read fun ts rest r h known => ?_
  have tail := NameTail.of_read h
  refine ⟨tail.known known, fun _ same rest' hr => ?_⟩
  obtain ⟨ts', known', head, again⟩ := tail.again known hr
  refine ⟨ts', ⟨known', fun t => unnamed_of_head head, fun t plain => ⟨fun e => plain.star e, fun name hn => ?_⟩⟩,
    same ▸ again.read⟩
  obtain ⟨parts, left, read⟩ := plain.parts name (starName?_of_head head ▸ hn)
  obtain ⟨rfl, -⟩ := Prod.mk.inj (Except.ok.inj (tail.stars.read.symm.trans read))
  exact ⟨parts, rest', again.stars.read⟩

/-! ## Results and arguments -/

/-- What a star or an expression is read from: a star, the star of a table, or an expression. -/
theorem starOrExpr_cases {ts rest : List Token} {e : Expr} (h : starOrExpr inner ts = .ok (e, rest)) :
    (∃ more, ts = .mark .star :: more ∧ e = .star [] ∧ rest = more) ∨
    (∃ t more name parts, ts = t :: more ∧ more.head? = some (.mark .period) ∧ partOf? t = some name ∧
      NameTail true rest more (parts, true) ∧ e = .star (name :: parts)) ∨
    Plain ts ∧ inner.expr 0 ts = .ok (e, rest) := by
  by_cases star : ts.head? = some (.mark .star)
  · obtain ⟨more, rfl⟩ := List.head?_eq_some_iff.mp star
    obtain ⟨rfl, rfl⟩ := Prod.mk.inj (Except.ok.inj ((starOrExpr_star inner more).symm.trans h))
    exact .inl ⟨more, rfl, rfl, rfl⟩
  · cases name : starName? ts with
    | none => exact .inr (.inr ⟨⟨star, by simp [name]⟩, starOrExpr_plain inner star name ▸ h⟩)
    | some i =>
      rw [starOrExpr_name inner name] at h
      split at h
      next parts left tail =>
        obtain ⟨rfl, rfl⟩ := Prod.mk.inj (Except.ok.inj h)
        obtain ⟨t, more, rfl, part⟩ := starName?_of_some name
        exact .inr (.inl ⟨t, _, i, parts, rfl, rfl, part, .of_read tail, rfl⟩)
      next parts left tail =>
        exact .inr (.inr ⟨⟨star, fun _ _ => ⟨parts, left, tail⟩⟩, h⟩)
      · cases h

theorem starOrExpr_of_tail {t : Token} {more rest : List Token} {name : Ident} {parts : List Ident}
    (point : more.head? = some (.mark .period)) (part : partOf? t = some name)
    (tail : NameTail true rest more (parts, true)) :
    starOrExpr inner (t :: more) = .ok (.star (name :: parts), rest) := by
  have named : starName? (t :: more) = some name := by
    rw [starName?, List.getElem?_cons_succ, ← List.head?_eq_getElem?, if_pos point]
    exact part
  rw [starOrExpr_name inner named, List.drop_succ_cons, List.drop_zero, tail.read]

theorem starOrExpr_follows (h : inner.Follows s P R inner') :
    Follows P (Expr.Turns R) (Stops P) (Items s P) (starOrExpr inner) (starOrExpr inner') := by
  refine Follows.of_read fun ts rest e hp known => ?_
  obtain ⟨more, rfl, rfl, rfl⟩ | ⟨t, more, name, parts, rfl, point, part, tail, rfl⟩ | ⟨plain, hp⟩ :=
    starOrExpr_cases hp
  · obtain ⟨ht, known⟩ := List.forall_mem_cons.mp known
    refine ⟨known, ?_⟩
    rintro _ ⟨⟩ rest' hr
    exact ⟨.mark .star :: rest', ⟨.cons ht hr.known, fun _ => .of_ident rfl⟩, rfl⟩
  · obtain ⟨ht, known⟩ := List.forall_mem_cons.mp known
    refine ⟨tail.known known, ?_⟩
    rintro _ ⟨⟩ rest' hr
    obtain ⟨more', known', head, tail'⟩ := tail.again known hr.toAlike
    exact ⟨t :: more', ⟨.cons ht known', unnamed_of_head head⟩, starOrExpr_of_tail (head ▸ point) part tail'⟩
  · refine ⟨(h.expr 0 hp known).1, fun e' turns rest' hr => ?_⟩
    obtain ⟨ts', starts, again⟩ := (h.expr 0).read hp known turns hr
    exact ⟨ts', starts.toItems, (starts.plain plain).starOrExpr inner' ▸ again⟩

theorem argumentPair_some {first second : Option Token} {a : Option (Ident × ArgumentMark)}
    (h : argumentPair s.grammar first second = some a) :
    ∃ t m r, first = some t ∧ second = some (.mark m) ∧ a = some r := by
  unfold argumentPair at h
  split at h
  next t m =>
    obtain ⟨name, -, h⟩ := Option.bind_eq_some_iff.mp h
    obtain ⟨mark, -, h⟩ := Option.bind_eq_some_iff.mp h
    exact ⟨t, m, _, rfl, rfl, (Option.some.inj h).symm⟩
  · cases h

theorem argument_follows (h : inner.Follows s P R inner') :
    Follows P (Argument.Turns R) (Stops P) (Opening s P) (argument s inner) (argument s inner') := by
  refine Follows.of_read fun ts rest a hp known => ?_
  obtain ⟨found, mid, hn, hp⟩ := bind_eq_ok_iff.mp hp
  have pairs := (argumentName_readsPair s).1
  rw [pairs] at hn
  cases pair : argumentPair s.grammar ts[0]? ts[1]? with
  | none =>
    rw [pair] at hn
    obtain ⟨rfl, rfl⟩ := Prod.mk.inj (Except.ok.inj hn)
    obtain ⟨e, left, he, hp⟩ := bind_eq_ok_iff.mp hp
    obtain ⟨rfl, rfl⟩ := Prod.mk.inj (Except.ok.inj hp)
    refine ⟨(starOrExpr_follows h he known).1, ?_⟩
    rintro _ ⟨turns⟩ rest' hr
    obtain ⟨ts', items, again⟩ := (starOrExpr_follows h).read he known turns hr
    have unnamed : argumentName s ts' = .ok (none, ts') := by
      rw [pairs, show argumentPair s.grammar ts'[0]? ts'[1]? = none from items.unnamed pair]
    refine ⟨ts', items.toOpening, ?_⟩
    exact (bind_of_ok unnamed).trans (bind_of_ok again)
  | some r =>
    rw [pair] at hn
    obtain ⟨rfl, rfl⟩ := Prod.mk.inj (Except.ok.inj hn)
    obtain ⟨t, m, ⟨name, mark⟩, first, second, rfl⟩ := argumentPair_some pair
    match ts, first, second with
    | t :: .mark m :: more, rfl, rfl =>
      obtain ⟨e, left, he, hp⟩ := bind_eq_ok_iff.mp hp
      obtain ⟨rfl, rfl⟩ := Prod.mk.inj (Except.ok.inj hp)
      simp only [List.forall_mem_cons] at known
      obtain ⟨ht, hm, known⟩ := known
      refine ⟨(starOrExpr_follows h he known).1, ?_⟩
      rintro _ (_ | ⟨turns⟩) rest' hr
      obtain ⟨ts', items, again⟩ := (starOrExpr_follows h).read he known turns hr
      have named : argumentName s (t :: .mark m :: ts') = .ok (some (name, mark), ts') := by
        rw [pairs]
        simp only [List.getElem?_cons_zero, List.getElem?_cons_succ] at pair ⊢
        rw [pair]
        rfl
      refine ⟨t :: .mark m :: ts', .cons ht (List.forall_mem_cons.mpr ⟨hm, items.known⟩), ?_⟩
      exact (bind_of_ok named).trans (bind_of_ok again)

/-- Whether a query comes first is seen by its first word. -/
theorem atQuery_bind_follows {α γ : Type} {A : γ → Prop} {T : α → α → Prop} {out : List Token → List Token → Prop}
    {f : Bool → Parser α} {f' : γ → Bool → Parser α} (yes : Tracks P A T out (Alike P) (f true) fun c => f' c true)
    (no : Tracks P A T out (Opening s P) (f false) fun c => f' c false) :
    Tracks P A T out (Known P) (atQuery >>= f) fun c => atQuery >>= f' c := by
  have looks {g : Bool → Parser α} {ts : List Token} :
      (atQuery >>= g) ts = g (wordOf? ts.head? == some .SELECT || wordOf? ts.head? == some .WITH) ts := by
    rw [atQuery, bind_assoc, bind_of_ok peekWord_apply]
    rfl
  intro ts rest a hp known
  rw [looks] at hp
  cases query : wordOf? ts.head? == some .SELECT || wordOf? ts.head? == some .WITH with
  | true =>
    rw [query] at hp
    refine ⟨(yes hp known).1, fun a' ha rest' hr => ?_⟩
    obtain ⟨c, hc, ts', hts, again⟩ := (yes hp known).2 ha hr
    exact ⟨c, hc, ts', hts.known, looks.trans (by rw [hts.first, query]; exact again)⟩
  | false =>
    rw [query] at hp
    refine ⟨(no hp known).1, fun a' ha rest' hr => ?_⟩
    obtain ⟨c, hc, ts', hts, again⟩ := (no hp known).2 ha hr
    have still : (wordOf? ts'.head? == some .SELECT || wordOf? ts'.head? == some .WITH) = false := by
      rw [Bool.or_eq_false_iff, beq_eq_false_iff_ne, beq_eq_false_iff_ne] at query ⊢
      exact ⟨(Opening.skips rfl).other hts query.1, (Opening.skips rfl).other hts query.2⟩
    exact ⟨c, hc, ts', hts.known, looks.trans (by rw [still]; exact again)⟩

theorem quantifier_bind {α γ : Type} {A : γ → Prop} {T : α → α → Prop} {out into : List Token → List Token → Prop}
    {f : Option Quantifier → Parser α} {f' : γ → Option Quantifier → Parser α} (all : Skips P .ALL into)
    (distinct : Skips P .DISTINCT into) (h : ∀ q, Tracks P A T out into (f q) fun c => f' c q) :
    Tracks P A T out into (quantifier >>= f) fun c => quantifier >>= f' c := by
  have known {p : Parser α} {p' : γ → Parser α} (h : Tracks P A T out into p p') : Tracks P A T out (Known P) p p' :=
    h.mono fun _ _ => all.known
  simp only [quantifier, bind_assoc]
  refine Tracks.skipWord_bind all (known ?_) ?_
  · exact Tracks.skipWord_bind distinct Tracks.fail (h (some .all))
  · exact Tracks.skipWord_bind distinct (known (h (some .distinct))) (h none)

theorem mayTrail_of_trailing (h : s.trailingCommas = true) : s.mayTrail = true := by
  rw [ParserSettings.mayTrail, h, Bool.true_or]

theorem argumentList_follows (h : inner.Follows s P R inner') :
    Follows P (Arguments.Turns R) (Known P) (Opening s P) (argumentList s inner) (argumentList s inner') := by
  refine Tracks.skipMark_bind Opening.skipsMark ?_ ?_
  · refine .pure ?_
    rintro _ (_ | ⟨⟨⟩⟩)
    exact ⟨(), trivial, rfl⟩
  · refine quantifier_bind (Opening.skips rfl) (Opening.skips rfl) fun q => ?_
    refine Tracks.bind (commaSeparated_follows Stops.behind Opening.known
      (fun h on => h.goes (mayTrail_of_trailing on)) (argument_local h.locally) (argument_follows h)) fun items => ?_
    refine Tracks.bind_eq (expectMark_stays (Stops.skipsMark rfl)) fun _ => .pure ?_
    rintro _ (_ | ⟨turns⟩)
    exact ⟨((), _), ⟨trivial, turns⟩, rfl⟩

theorem arguments_follows (h : inner.Follows s P R inner') :
    Follows P (Arguments.Turns R) (Known P) (Known P) (arguments s inner) (arguments s inner') := by
  have list := argumentList_follows h
  cases bare : s.grammar.allowsBareSubquery with
  | false =>
    have other (inner : Inner) : arguments s inner = argumentList s inner := by
      funext ts
      simp only [arguments, atQuery, bind_assoc, bind_of_ok peekWord_apply, bare]
      rfl
    rw [other, other]
    exact list.mono fun _ _ h => h.known
  | true =>
    unfold arguments
    simp only [bare, Bool.true_and]
    refine atQuery_bind_follows ?_ list
    refine Tracks.bind h.query fun q => ?_
    refine Tracks.bind_eq (expectMark_stays (Stops.skipsMark rfl)) fun _ => .pure ?_
    rintro _ (_ | _ | ⟨turns⟩)
    exact ⟨((), _), ⟨trivial, turns⟩, rfl⟩

theorem nameEnd_follows (h : inner.Follows s P R inner') (first : Ident) (r : List Ident × Bool) :
    Follows P (Expr.Stands R) (Stops P) (Alike P) (nameEnd s inner first r) (nameEnd s inner' first r) := by
  refine Tracks.ite ?_ (Tracks.skipMark_bind Alike.skipsMark ?_ ?_)
  · refine (Tracks.pure ?_).mono fun _ _ h => h.toAlike
    rintro _ ⟨⟨⟩, -⟩
    exact ⟨(), trivial, rfl⟩
  · refine (Tracks.bind (arguments_follows h) fun a => .pure ?_).mono_out fun _ _ h => h.known
    rintro _ ⟨-, call⟩
    obtain ⟨a', turns, rfl⟩ := call _ _ rfl
    exact ⟨((), a'), ⟨trivial, turns⟩, rfl⟩
  · refine (Tracks.pure ?_).mono fun _ _ h => h.toAlike
    rintro _ ⟨⟨⟩, -⟩
    exact ⟨(), trivial, rfl⟩

theorem nameOrCall_follows (h : inner.Follows s P R inner') (first : Ident) :
    Follows P (Expr.Stands R) (Stops P) (Second s P) (nameOrCall s inner first) (nameOrCall s inner' first) :=
  Tracks.bind_eq (nameTail_stays _) fun r => nameEnd_follows h first r

theorem wordCall_follows (h : inner.Follows s P R inner') (name : Ident) :
    Follows P (Expr.Stands R) (Stops P) (Second s P) (wordCall s inner name) (wordCall s inner' name) := by
  refine Tracks.mono ?_ fun ts ts' (h : Unpointed P ts ts') => h.toSecond
  refine Tracks.skipMark_bind Unpointed.skipsMark ?_ ?_
  · refine ((Tracks.bind (argumentList_follows h) fun a => .pure ?_).mono fun _ _ h => h.known).mono_out
      fun _ _ h => h.known
    rintro _ ⟨-, call⟩
    obtain ⟨a', turns, rfl⟩ := call _ _ rfl
    exact ⟨((), a'), ⟨trivial, turns⟩, rfl⟩
  · refine (Tracks.pure ?_).mono fun _ _ => .of_stops
    rintro _ ⟨-, call⟩
    obtain ⟨_, ⟨⟩, rfl⟩ := call _ _ rfl
    exact ⟨(), trivial, rfl⟩

/-! ## Operands -/

/-- Expressions with commas between them. -/
theorem exprs_follow (h : inner.Follows s P R inner') :
    Follows P (List.Forall₂ (Expr.Turns R)) (Stops P) (Opening s P) (commaSeparated s.trailingCommas (inner.expr 0))
      (commaSeparated s.trailingCommas (inner'.expr 0)) :=
  commaSeparated_follows Stops.behind Opening.known (fun h on => h.goes (mayTrail_of_trailing on))
    (h.locally.expr 0) ((h.expr 0).mono fun _ _ h => h.toOpening)

/-- What expressions between parentheses are: one in parentheses or a tuple. -/
def grouped : List Expr → Expr
  | [e] => .nested e
  | items => .tuple items

theorem groupItems_eq (s : ParserSettings) (inner : Inner) :
    groupItems s inner = (do
      if ← atQuery then return .query (← inner.query)
      else return grouped (← commaSeparated s.trailingCommas (inner.expr 0))) := by
  refine bind_congr fun found => ?_
  split
  · rfl
  · refine bind_congr fun items => ?_
    match items with
    | [] | [_] | _ :: _ :: _ => rfl

theorem grouped_turns {items : List Expr} {e' : Expr} (h : (grouped items).Turns R e') :
    ∃ items', List.Forall₂ (Expr.Turns R) items items' ∧ grouped items' = e' := by
  match items, h with
  | [e], .nested h => exact ⟨[_], .cons h .nil, rfl⟩
  | [], .tuple .nil => exact ⟨[], .nil, rfl⟩
  | a :: b :: rest, .tuple (.cons ha (.cons hb h)) => exact ⟨_ :: _ :: _, .cons ha (.cons hb h), rfl⟩

theorem groupItems_follows (h : inner.Follows s P R inner') :
    Follows P (Expr.Turns R) (Stops P) (Known P) (groupItems s inner) (groupItems s inner') := by
  rw [groupItems_eq, groupItems_eq]
  refine atQuery_bind_follows (Tracks.bind h.query fun q => .pure ?_)
    (Tracks.bind (exprs_follow h) fun items => .pure ?_)
  · intro e' turns
    cases turns with
    | query turns => exact ⟨((), _), ⟨trivial, turns⟩, rfl⟩
  · intro e' turns
    obtain ⟨items', each, rfl⟩ := grouped_turns turns
    exact ⟨((), items'), ⟨trivial, each⟩, rfl⟩

theorem group_follows (h : inner.Follows s P R inner') :
    Follows P (Expr.Turns R) (Known P) (Known P) (group s inner) (group s inner') := by
  rw [group_eq, group_eq]
  refine Tracks.bind (groupItems_follows h) fun e => ?_
  refine Tracks.bind_eq (expectMark_stays (Stops.skipsMark rfl)) fun _ => .pure fun e' turns => ?_
  exact ⟨((), e'), ⟨trivial, turns⟩, rfl⟩

/-- The branches of a case are the first and those behind it. -/
theorem branches_of_unfolded (local_ : inner.Local inner) {ts : List Token} {r : List (Expr × Expr) × List Token}
    (read : (do
      let condition ← inner.expr 0
      expectWord .THEN
      let result ← inner.expr 0
      if ← skipWord .WHEN then return (condition, result) :: (← branches inner) else return [(condition, result)] :
        Parser (List (Expr × Expr))) ts = .ok r) : branches inner ts = .ok r := by
  obtain ⟨bs, left⟩ := r
  obtain ⟨condition, mid₁, h₁, read⟩ := bind_eq_ok_iff.mp read
  obtain ⟨_, mid₂, h₂, read⟩ := bind_eq_ok_iff.mp read
  obtain ⟨result, mid₃, h₃, read⟩ := bind_eq_ok_iff.mp read
  obtain ⟨more, mid₄, h₄, read⟩ := bind_eq_ok_iff.mp read
  have l₁ := (local_.expr 0).takes_lt h₁
  have l₂ := (Local.expectWord (i := 0) (b := true)).takes_lt h₂
  have l₃ := (local_.expr 0).takes_lt h₃
  have l₄ := (Local.skipWord_local (i := 0)).takes_length h₄
  obtain ⟨n, hn⟩ : ∃ n, ts.length = n + 1 := ⟨ts.length - 1, by omega⟩
  rw [branches, get_bind_apply, hn]
  refine (bind_of_ok h₁).trans ((bind_of_ok h₂).trans ((bind_of_ok h₃).trans ((bind_of_ok h₄).trans ?_)))
  cases more with
  | false => exact read
  | true =>
    obtain ⟨rest, mid₅, h₅, made⟩ := bind_eq_ok_iff.mp read
    have l₅ := (branches_local (b := true) local_).takes_lt h₅
    have same : branchesIn inner n mid₄ = branches inner mid₄ :=
      branchesIn_enough local_ (by omega) (by omega) (by omega) (Nat.le_refl _)
    exact (bind_congr_left same).trans read

theorem branches_follows (h : inner.Follows s P R inner') :
    Follows P (BranchesTurn R) (Stops P) (Leads s P) (branches inner) (branches inner') := by
  have some (n : Nat) : Follows P (BranchesTurn R) (Stops P) (Leads s P) (branchesIn inner n) (branches inner') := by
    induction n with
    | zero => exact .fail
    | succ n ih =>
      refine Tracks.of_ok (r := fun _ => do
        let condition ← inner'.expr 0
        expectWord .THEN
        let result ← inner'.expr 0
        if ← skipWord .WHEN then return (condition, result) :: (← branches inner') else return [(condition, result)])
        ?_ fun _ _ _ => branches_of_unfolded h.locally
      refine Tracks.bind ((h.expr 0).mono fun _ _ h => h.toLeads) fun condition => ?_
      refine Tracks.bind_eq (expectWord_stays (Stops.skips rfl)) fun _ => ?_
      refine Tracks.bind ((h.expr 0).mono fun _ _ h => h.known) fun result => ?_
      refine Tracks.skipWord_bind (Stops.skips rfl) ?_ (.pure ?_)
      · refine (Tracks.bind ih fun rest => .pure ?_).mono fun _ _ h => h.known
        rintro _ (_ | ⟨hc, hr, hb⟩)
        exact ⟨((((), _), _), _), ⟨⟨⟨trivial, hc⟩, hr⟩, hb⟩, rfl⟩
      · rintro _ (_ | ⟨hc, hr, ⟨⟩⟩)
        exact ⟨(((), _), _), ⟨⟨trivial, hc⟩, hr⟩, rfl⟩
  exact Tracks.get_bind fun ts rest bs hp hk => some ts.length hp hk

theorem caseBranches_follows (h : inner.Follows s P R inner') (operand : Option Expr) :
    Tracks P (Option.Rel (Expr.Turns R) operand) (Expr.Turns R) (Stops P) (Leads s P) (caseBranches inner operand)
      fun operand' => caseBranches inner' operand' := by
  refine Tracks.bind (branches_follows h) fun bs => ?_
  refine Tracks.bind (after_follows (Stops.skips rfl) ((h.expr 0).mono fun _ _ h => h.known)) fun otherwise => ?_
  refine (Tracks.bind_eq (expectWord_stays (Stops.skips rfl)) fun _ => .pure fun e' turns => ?_).mono_out
    fun _ _ h => h.known
  cases turns with
  | case ho hb he => exact ⟨((_, _), _), ⟨⟨ho, hb⟩, he⟩, rfl⟩

theorem caseExpr_eq (inner : Inner) :
    caseExpr inner = (do
      if ← skipWord .WHEN then caseBranches inner none
      else
        let e ← inner.expr 0
        expectWord .WHEN
        caseBranches inner (some e)) := by
  refine bind_congr fun found => ?_
  cases found with
  | true => rfl
  | false => simp only [Bool.false_eq_true, if_false, pure_bind]; rfl

theorem caseExpr_follows (h : inner.Follows s P R inner') :
    Follows P (Expr.Turns R) (Stops P) (Leads s P) (caseExpr inner) (caseExpr inner') := by
  rw [caseExpr_eq, caseExpr_eq]
  refine Tracks.skipWord_bind (Leads.skips rfl) ?_ ?_
  · refine ((caseBranches_follows h none).mono fun _ _ h => h.known).among ?_
    rintro _ ⟨⟩
    exact ⟨(), trivial, rfl⟩
  · refine Tracks.bind ((h.expr 0).mono fun _ _ h => h.toLeads) fun e => ?_
    refine Tracks.bind_eq (expectWord_stays (Stops.skips rfl)) fun _ => ?_
    refine ((caseBranches_follows h (some e)).mono fun _ _ h => h.known).among ?_
    rintro _ ⟨turns⟩
    exact ⟨((), _), ⟨trivial, turns⟩, rfl⟩

theorem castExpr_follows (h : inner.Follows s P R inner') (style : CastStyle) :
    Follows P (Expr.Turns R) (Stops P) (Unpointed P) (castExpr inner style) (castExpr inner' style) := by
  have items : Follows P (Expr.Turns R) (Stops P) (Known P) (castItems inner style) (castItems inner' style) := by
    refine Tracks.bind ((h.expr 0).mono fun _ _ h => h.known) fun e => ?_
    refine Tracks.bind_eq (expectWord_stays (Stops.skips rfl)) fun _ => ?_
    refine (Tracks.bind_eq (dataType_stays.mono fun _ _ h => h.known) fun type => .pure fun e' turns => ?_).mono_out
      fun _ _ h => h.toAlike
    cases turns with
    | cast turns => exact ⟨((), _), ⟨trivial, turns⟩, rfl⟩
  exact (parenthesised_tracks Unpointed.skipsMark items).mono_out fun _ _ h => h.known

theorem roundingExpr_follows (h : inner.Follows s P R inner') (upward : Bool) :
    Follows P (Expr.Turns R) (Stops P) (Unpointed P) (roundingExpr inner upward) (roundingExpr inner' upward) := by
  have items : Follows P (Expr.Turns R) (Stops P) (Known P) (roundingItems inner upward)
      (roundingItems inner' upward) := by
    refine Tracks.bind ((h.expr 0).mono fun _ _ h => h.known) fun e => ?_
    refine Tracks.skipMark_bind (Stops.skipsMark rfl) ?_ ?_
    · refine (Tracks.take_bind fun t ht => ?_).mono fun _ _ h => h
      cases t with
      | number digits long =>
        refine (Tracks.pure fun e' turns => ?_).mono fun _ _ h => List.forall_mem_cons.mpr ⟨ht, h.known⟩
        cases turns with
        | rounding turns => exact ⟨((), _), ⟨trivial, turns⟩, rfl⟩
      | word | string | mark | other => exact .fail
    · refine .pure fun e' turns => ?_
      cases turns with
      | rounding turns => exact ⟨((), _), ⟨trivial, turns⟩, rfl⟩
  exact (parenthesised_tracks Unpointed.skipsMark items).mono_out fun _ _ h => h.known

theorem existsExpr_follows (h : inner.Follows s P R inner') (negated : Bool) :
    Follows P (Expr.Turns R) (Stops P) (Unpointed P) (existsExpr inner negated) (existsExpr inner' negated) := by
  have query : Follows P (Query.Turns R) (Known P) (Unpointed P) (parenthesised inner.query)
      (parenthesised inner'.query) :=
    parenthesised_tracks Unpointed.skipsMark (h.query.mono fun _ _ h => h.known)
  refine Tracks.bind query fun q => ?_
  refine (Tracks.pure fun e' turns => ?_).mono_out fun _ _ h => h.known
  cases turns with
  | «exists» turns => exact ⟨((), _), ⟨trivial, turns⟩, rfl⟩

/-- What is no call turns only as it stands. -/
theorem Follows.stands {p p' : Parser Expr} {out into : List Token → List Token → Prop}
    (h : Follows P (Expr.Turns R) out into p p') : Follows P (Expr.Stands R) out into p p' :=
  fun _ _ _ hp known => ⟨(h hp known).1, fun _ turns _ hr => (h hp known).2 turns.1 hr⟩

theorem keywordExpr_follows (h : inner.Follows s P R inner') (name : Ident) (k : Keyword) :
    Follows P (Expr.Stands R) (Stops P) (Second s P) (keywordExpr s inner name k) (keywordExpr s inner' name k) := by
  have literal (value : Literal) : Follows P (Expr.Stands R) (Stops P) (Second s P)
      (Pure.pure (.literal value)) (Pure.pure (.literal value)) := by
    refine (Tracks.pure ?_).mono fun _ _ h => (Unpointed.of_stops h).toSecond
    rintro _ ⟨⟨⟩, -⟩
    exact ⟨(), trivial, rfl⟩
  have user : Follows P (Expr.Stands R) (Stops P) (Second s P)
      (Pure.pure (.call ⟨[name], .absent⟩)) (Pure.pure (.call ⟨[name], .absent⟩)) := by
    refine (Tracks.pure ?_).mono fun _ _ h => (Unpointed.of_stops h).toSecond
    rintro _ ⟨-, call⟩
    obtain ⟨_, ⟨⟩, rfl⟩ := call _ _ rfl
    exact ⟨(), trivial, rfl⟩
  unfold keywordExpr
  split
  iterate 3 exact literal _
  iterate 5 exact wordCall_follows h name
  iterate 4 exact Tracks.ite user (nameOrCall_follows h name)
  · exact (caseExpr_follows h).stands.mono fun _ _ h => h.toSecond
  iterate 3 exact (castExpr_follows h _).stands.mono fun _ _ h => h.toSecond
  iterate 2 exact (roundingExpr_follows h _).stands.mono fun _ _ h => h.toSecond
  · exact (existsExpr_follows h false).stands.mono fun _ _ h => h.toSecond
  · refine Tracks.mono ?_ fun ts ts' (h : Leads s P ts ts') => h.toSecond
    refine Tracks.skipWord_bind (Leads.skips rfl) ((existsExpr_follows h true).stands.mono fun _ _ h => h.known) ?_
    refine Tracks.bind ((h.expr notPower).mono fun _ _ h => h.toLeads) fun e => .pure ?_
    rintro _ ⟨turns, -⟩
    cases turns with
    | unary turns => exact ⟨((), _), ⟨trivial, turns⟩, rfl⟩
  · exact nameOrCall_follows h name

/-- An operand that may stand in the place of another, whatever stands behind that does not go
on with a name or a call. -/
def Fits (s : ParserSettings) (P : Token → Prop) (inner : Inner) (e : Expr) : Prop :=
  ∃ ts, (∀ t ∈ ts, P t) ∧ Opens s ts.head? ∧
    ∀ rest, (∀ m, rest.head? = some (.mark m) → m.goesOn = false) →
      operand s inner (ts ++ rest) = .ok (e, rest) ∧ Plain (ts ++ rest) ∧ Unnamed s (ts ++ rest)

theorem operand_stands (h : inner.Follows s P R inner') :
    Follows P (Expr.Stands R) (Stops P) (Starts s P) (operand s inner) (operand s inner') := by
  have sign (op : UnaryOp) : Follows P (Expr.Stands R) (Stops P) (Known P)
      (do return .unary op (← inner.expr timesPower)) (do return .unary op (← inner'.expr timesPower)) := by
    refine Tracks.bind ((h.expr timesPower).mono fun _ _ h => h.known) fun e => .pure ?_
    rintro _ ⟨turns, -⟩
    cases turns with
    | unary turns => exact ⟨((), _), ⟨trivial, turns⟩, rfl⟩
  refine Tracks.take_bind fun t ht => ?_
  cases t with
  | word name k =>
    cases k with
    | none => exact (nameOrCall_follows h name).mono fun _ _ => .word ht
    | some k => exact (keywordExpr_follows h name k).mono fun _ _ => .word ht
  | number digits long =>
    refine (Tracks.pure ?_).mono fun _ _ h => .other ht rfl rfl nofun nofun h.known
    rintro _ ⟨⟨⟩, -⟩
    exact ⟨(), trivial, rfl⟩
  | string kind text =>
    refine (Tracks.pure ?_).mono fun _ _ h => .string ht (Unpointed.of_stops h).toSecond
    rintro _ ⟨⟨⟩, -⟩
    exact ⟨(), trivial, rfl⟩
  | mark m =>
    cases m
    case leftParen =>
      refine (group_follows h).stands.mono_out (fun _ _ h => h.known) |>.mono fun _ _ => .other ht rfl rfl nofun ?_
      rintro _ ⟨⟩
      exact .inl rfl
    case minus =>
      refine (sign .minus).mono fun _ _ => .other ht rfl rfl nofun ?_
      rintro _ ⟨⟩
      exact .inr (.inl rfl)
    case plus =>
      refine (sign .plus).mono fun _ _ => .other ht rfl rfl nofun ?_
      rintro _ ⟨⟩
      exact .inr (.inr rfl)
    all_goals exact .fail
  | other => exact .fail

/-- In the place of a call an operand may stand. -/
theorem operand_follows (h : inner.Follows s P R inner') (fits : ∀ c e, R c (some e) → Fits s P inner' e) :
    Follows P (Expr.Turns R) (Stops P) (Starts s P) (operand s inner) (operand s inner') := by
  refine Follows.of_read fun ts rest e hp known => ⟨(operand_stands h hp known).1, fun e' turns rest' hr => ?_⟩
  obtain stands | ⟨c, rfl, swapped⟩ := turns.stands_or
  · exact (operand_stands h).read hp known stands hr
  · obtain ⟨us, known', opens, again⟩ := fits c e' swapped
    obtain ⟨read, plain, unnamed⟩ := again rest' fun m hm => hr.ends m (hr.first ▸ hm)
    have first : (us ++ rest').head? = us.head? := by
      match us, opens with
      | _ :: _, _ => rfl
    refine ⟨us ++ rest', ?_, read⟩
    exact {
      known := List.forall_mem_append.mpr ⟨known', hr.known⟩
      first := .inr (first ▸ opens)
      unnamed := fun _ => unnamed
      leads := fun m hm => .inl (opens.leftParen (first ▸ hm))
      plain := fun _ => plain }

end Parser

end DetectionPlan.Sql
