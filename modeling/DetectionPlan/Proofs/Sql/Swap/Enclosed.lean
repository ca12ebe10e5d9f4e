/-
Where a parenthesis opens a table, a query is tried before joined tables. What stands between
the parentheses must be a query after it has turned when it was one before, and none when it
was none, in whatever depth that is tried (`AlikeQuery`).
-/
import DetectionPlan.Proofs.Sql.Slot
import DetectionPlan.Proofs.Sql.Swap.Bounds
import DetectionPlan.Proofs.Sql.Swap.Join
import Mathlib.Data.Nat.Find

namespace DetectionPlan.Sql

/-- Words with which a query begins. -/
def Keyword.beginsQuery : Keyword → Bool
  | SELECT | WITH | VALUES => true
  | _ => false

/-- Words with which a query goes on behind its body. -/
def Keyword.goesOnQuery : Keyword → Bool
  | UNION | EXCEPT | INTERSECT | ORDER | LIMIT | OFFSET | SETTINGS => true
  | _ => false

namespace Parser

variable {s : ParserSettings} {P : Token → Prop} {R : Call → Option Expr → Prop} {d m : Nat}
  {inside inside' after after' : List Token}

/-! ## Queries between parentheses -/

/-- Between parentheses some tokens are a query, whatever follows. -/
def ReadsQuery (s : ParserSettings) (d : Nat) (inside : List Token) : Prop :=
  ∃ q, ∀ after, parenthesised (innerIn s d).query (.mark .leftParen :: inside ++ .mark .rightParen :: after) =
    .ok (q, after)

/-- Between parentheses some tokens are no query, whatever follows. -/
def FailsQuery (s : ParserSettings) (d : Nat) (inside : List Token) (f : SyntaxFault) : Prop :=
  ∀ after, parenthesised (innerIn s d).query (.mark .leftParen :: inside ++ .mark .rightParen :: after) = .error f

/-- Tokens that are a query between parentheses when others are, with more depth, and are none
when those are not. -/
def AlikeQuery (s : ParserSettings) (m : Nat) (inside inside' : List Token) : Prop :=
  ∀ d, FailsQuery s d inside .nesting ∨ (ReadsQuery s d inside ∧ ReadsQuery s (d + m) inside') ∨
    ∃ f f', f ≠ .nesting ∧ f' ≠ .nesting ∧ FailsQuery s d inside f ∧ FailsQuery s (d + m) inside' f'

theorem reads_or_fails (d : Nat) (depth : depthAfter 0 inside = some 0) :
    ReadsQuery s d inside ∨ ∃ f, FailsQuery s d inside f := by
  rcases Local.parenthesised_uniform (innerIn_local s (Nat.le_refl d)).query depth with ⟨f, hf⟩ | ⟨q, hq⟩
  · exact .inr ⟨f, hf⟩
  · exact .inl ⟨q, hq⟩

theorem deeper_of_le {e : Nat} (le : d ≤ e) {ts : List Token}
    (h : parenthesised (innerIn s d).query ts ≠ .error .nesting) :
    parenthesised (innerIn s e).query ts = parenthesised (innerIn s d).query ts :=
  (Local.parenthesised (b := false) (innerIn_local s le).query.weaken).deeper h

theorem ReadsQuery.deeper {e : Nat} (h : ReadsQuery s d inside) (le : d ≤ e) : ReadsQuery s e inside := by
  obtain ⟨q, hq⟩ := h
  refine ⟨q, fun after => (deeper_of_le le ?_).trans (hq after)⟩
  rw [hq after]
  nofun

theorem FailsQuery.deeper {e : Nat} {f : SyntaxFault} (h : FailsQuery s d inside f) (graver : f ≠ .nesting)
    (le : d ≤ e) :
    FailsQuery s e inside f := by
  refine fun after => (deeper_of_le le ?_).trans (h after)
  rw [h after]
  exact fun e => graver (Except.error.inj e)

theorem AlikeQuery.refl (depth : depthAfter 0 inside = some 0) : AlikeQuery s m inside inside := by
  intro d
  rcases reads_or_fails d depth with reads | ⟨f, fails⟩
  · exact .inr (.inl ⟨reads, reads.deeper (Nat.le_add_right d m)⟩)
  · by_cases grave : f = .nesting
    · exact .inl (grave ▸ fails)
    · exact .inr (.inr ⟨f, f, grave, grave, fails, fails.deeper grave (Nat.le_add_right d m)⟩)

theorem query_of_parenthesised {q : Query}
    (h : parenthesised (innerIn s d).query (.mark .leftParen :: inside ++ .mark .rightParen :: after) =
      .ok (q, after)) :
    (innerIn s d).query (inside ++ .mark .rightParen :: after) = .ok (q, .mark .rightParen :: after) := by
  obtain ⟨inside', e, -, read⟩ := (Local.parenthesised_ok_iff (innerIn_local s (Nat.le_refl d)).query).mp h
  obtain rfl : inside = inside' := by simpa using e
  exact read

theorem parenthesised_of_query {q : Query}
    (h : (innerIn s d).query (inside ++ .mark .rightParen :: after) = .ok (q, .mark .rightParen :: after))
    (after' : List Token) :
    parenthesised (innerIn s d).query (.mark .leftParen :: inside ++ .mark .rightParen :: after') =
      .ok (q, after') := by
  have closed : Hides (.mark .rightParen) after' := .inl rfl
  have framed := (innerIn_local s (Nat.le_refl d)).query.frame_end closed h
  exact Local.parenthesised_of_ok framed

/-- The tokens of a query that turns, made in the least depth in which it is read. -/
theorem exists_alikeQuery (h : ∀ e ≤ d, Follows P (Query.Turns R) (Stops P) (Alike P) (innerIn s e).query
      (innerIn s (e + m)).query) {q q' : Query}
    (read : (innerIn s d).query (inside ++ .mark .rightParen :: after) = .ok (q, .mark .rightParen :: after))
    (depth : depthAfter 0 inside = some 0) (known : ∀ t ∈ inside ++ .mark .rightParen :: after, P t)
    (turns : q.Turns R q') :
    ∃ inside', (∀ t ∈ inside', P t) ∧ depthAfter 0 inside' = some 0 ∧ AlikeQuery s m inside inside' ∧
      ∀ after', parenthesised (innerIn s (d + m)).query (.mark .leftParen :: inside' ++ .mark .rightParen :: after') =
        .ok (q', after') := by
  classical
  have some : ∃ e, ReadsQuery s e inside := ⟨d, q, parenthesised_of_query read⟩
  obtain ⟨e, ⟨q₁, hq₁⟩, least⟩ : ∃ e, ReadsQuery s e inside ∧ ∀ k < e, ¬ ReadsQuery s k inside :=
    ⟨Nat.find some, Nat.find_spec some, fun k => Nat.find_min some⟩
  have le : e ≤ d := Nat.le_of_not_lt fun lt => least d lt ⟨q, parenthesised_of_query read⟩
  obtain rfl : q₁ = q := by
    have same := (deeper_of_le le (by rw [hq₁ after]; rintro ⟨⟩)).trans (hq₁ after)
    simpa using same.symm.trans (parenthesised_of_query read after)
  have close : Stops P (.mark .rightParen :: after) [.mark .rightParen] :=
    .mark (known _ (by simp)) (by simp [Known]) rfl
  obtain ⟨ts', alike, again⟩ := (h e le).read (query_of_parenthesised (hq₁ after)) known turns close
  obtain ⟨inside', rfl, chunk⟩ := (innerIn_local s (Nat.le_refl (e + m))).query.takes again
  have reads := parenthesised_of_query again
  refine ⟨inside', fun t ht => alike.known t (by simp [ht]), chunk.depth, fun k => ?_, fun after' => ?_⟩
  · rcases Nat.lt_or_ge k e with lt | ge
    · rcases reads_or_fails k depth with reads | ⟨f, fails⟩
      · exact absurd reads (least k lt)
      · by_cases grave : f = .nesting
        · exact .inl (grave ▸ fails)
        · have still := (fails.deeper grave (Nat.le_of_lt lt)) []
          rw [hq₁ []] at still
          cases still
    · refine .inr (.inl ⟨ReadsQuery.deeper ⟨_, hq₁⟩ ge, ReadsQuery.deeper ⟨q', reads⟩ (by omega)⟩)
  · refine (deeper_of_le (Nat.add_le_add_right le m) ?_).trans (reads after')
    rw [reads after']
    rintro ⟨⟩

/-! ## What stands before joined tables -/

variable {inner : Inner} {ts rest : List Token}

/-- What begins with no word of a query is one only if it begins with one between parentheses. -/
theorem queryText_error {f : SyntaxFault} (word : ∀ k, wordOf? ts.head? = some k → k.beginsQuery = false)
    (h : parenthesised inner.query ts = .error f) : queryText s inner ts = .error f := by
  have plain : plainBody s inner ts = .error f := by
    rw [plainBody_apply]
    split
    next first => cases word _ first
    next first => cases word _ first
    · exact bind_of_error h
  have with_ : skipWord .WITH ts = .ok (false, ts) := skipWord_of_wordOf? fun first => by cases word _ first
  have head : queryHead s inner ts = .ok ((false, []), ts) := bind_of_ok with_
  rw [queryText_eq, bind_of_ok head]
  exact bind_of_error (bind_of_error (bind_of_error plain))

theorem oneOf_none {α : Type} {choices : List (Keyword × α)}
    (other : ∀ k, wordOf? ts.head? = some k → choices.lookup k = none) : oneOf choices ts = .ok (none, ts) := by
  rw [oneOf, bind_of_ok peekWord_apply]
  cases word : wordOf? ts.head? with
  | none => rfl
  | some k =>
    rw [Option.bind_some, other k word]
    rfl

theorem combine_idle {ops : List (Keyword × SetOp)} {operand : Parser Body} {b : Body}
    (h : operand ts = .ok (b, rest)) (other : ∀ k, wordOf? rest.head? = some k → ops.lookup k = none) :
    combine ops operand ts = .ok (b, rest) := by
  rw [combine, bind_of_ok h, get_bind_apply]
  cases rest.length with
  | zero => rfl
  | succ n =>
    have idle : setOp ops rest = .ok (none, rest) := bind_of_ok (oneOf_none other)
    exact bind_of_ok idle

/-- A query between parentheses is a whole query before what does not go on with one. -/
theorem queryText_nested {q : Query} (h : parenthesised inner.query ts = .ok (q, rest))
    (quits : ∀ k, wordOf? rest.head? = some k → k.goesOnQuery = false) :
    queryText s inner ts = .ok (⟨false, [], .query q, [], none, none, .none, []⟩, rest) := by
  obtain ⟨_, more, opens, -⟩ := bind_eq_ok_iff.mp h
  obtain rfl := expectMark_ok_iff.mp opens
  have none {k : Keyword} (hk : k.goesOnQuery) : skipWord k rest = .ok (false, rest) :=
    skipWord_of_wordOf? fun first => by simp [quits k first] at hk
  have ends : queryEnd s inner (false, []) rest =
      .ok (fun b => ⟨false, [], b, [], Option.none, Option.none, .none, []⟩, rest) := by
    have order : orders s inner rest = .ok ([], rest) :=
      bind_of_ok (skipWords_other fun both => by cases quits _ both.1)
    have bounds : bound s inner {} rest = .ok ({}, rest) := bound_idle (none rfl) (none rfl)
    have settings : settings s rest = .ok (Option.none, rest) := by
      unfold settings
      split
      · exact bind_of_ok (none rfl)
      · rfl
    rw [queryEnd, bind_of_ok order, bind_of_ok bounds, bind_of_ok bounds, bind_of_ok settings]
    rfl
  have plain : plainBody s inner (.mark .leftParen :: more) = .ok (.query q, rest) := by
    rw [plainBody_apply]
    exact bind_of_ok h
  have combined : body s inner (.mark .leftParen :: more) = .ok (.query q, rest) := by
    refine combine_idle (combine_idle plain ?_) ?_
    all_goals
      intro k hk
      have := quits k hk
      cases k <;> first | rfl | cases this
  have head : queryHead s inner (.mark .leftParen :: more) = .ok ((false, []), .mark .leftParen :: more) := rfl
  rw [queryText_eq, bind_of_ok head, bind_of_ok combined, bind_of_ok ends]
  rfl

/-- What fails as a query fails between parentheses. -/
theorem FailsQuery.of_queryText {f : SyntaxFault}
    (h : ∀ after, queryText s (innerIn s d) (inside ++ .mark .rightParen :: after) = .error f) :
    FailsQuery s (d + 1) inside f := by
  intro after
  rw [innerIn_query_succ]
  exact (bind_of_ok (expectMark_self _)).trans (bind_of_error (h after))

theorem failsQuery_zero (inside : List Token) : FailsQuery s 0 inside .nesting := fun _ =>
  (bind_of_ok (expectMark_self _)).trans (bind_of_error (innerIn_query_zero s _))

/-- Before a parenthesis that closes the first word is that of the tokens before it. -/
theorem wordOf?_closed (inside after : List Token) :
    wordOf? (inside ++ .mark .rightParen :: after).head? = wordOf? inside.head? := by
  cases inside <;> rfl

/-- What begins with no word of a query and no parenthesis is no query. -/
theorem AlikeQuery.of_word (first : inside'.head? = inside.head?) (opens : inside.head? ≠ some (.mark .leftParen))
    (word : ∀ k, wordOf? inside.head? = some k → k.beginsQuery = false) : AlikeQuery s m inside inside' := by
  have fails {inside : List Token} (opens : inside.head? ≠ some (.mark .leftParen))
      (word : ∀ k, wordOf? inside.head? = some k → k.beginsQuery = false) (e : Nat) :
      FailsQuery s (e + 1) inside .grammar := by
    refine .of_queryText fun after => queryText_error (by rwa [wordOf?_closed]) (bind_of_error (expectMark_error ?_))
    cases inside with
    | nil => nofun
    | cons t inside => exact opens
  intro d
  cases d with
  | zero => exact .inl (failsQuery_zero inside)
  | succ e =>
    refine .inr (.inr ⟨.grammar, .grammar, nofun, nofun, fails opens word e, ?_⟩)
    rw [Nat.add_right_comm]
    exact fails (first ▸ opens) (first ▸ word) (e + m)

/-- What begins with a parenthesis is a query when that stands alone between parentheses and is one. -/
theorem AlikeQuery.of_parenthesis {behind behind' : List Token} (h : AlikeQuery s m inside inside')
    (first : behind'.head? = behind.head?) (closed : behind.head? ≠ some (.mark .rightParen))
    (quits : ∀ k, wordOf? behind.head? = some k → k.goesOnQuery = false) :
    AlikeQuery s m (.mark .leftParen :: inside ++ .mark .rightParen :: behind)
      (.mark .leftParen :: inside' ++ .mark .rightParen :: behind') := by
  have fails {e : Nat} {inside : List Token} {f : SyntaxFault} (behind : List Token) (h : FailsQuery s e inside f) :
      FailsQuery s (e + 1) (.mark .leftParen :: inside ++ .mark .rightParen :: behind) f :=
    .of_queryText fun after => queryText_error nofun (by simpa using h (behind ++ .mark .rightParen :: after))
  have nested {e : Nat} {inside behind : List Token} (h : ReadsQuery s e inside)
      (quits : ∀ k, wordOf? behind.head? = some k → k.goesOnQuery = false) : ∃ q, ∀ after,
      (innerIn s (e + 1)).query
          (.mark .leftParen :: inside ++ .mark .rightParen :: behind ++ .mark .rightParen :: after) =
        .ok (q, behind ++ .mark .rightParen :: after) := by
    obtain ⟨q, hq⟩ := h
    refine ⟨⟨false, [], .query q, [], none, none, .none, []⟩, fun after => ?_⟩
    rw [innerIn_query_succ]
    refine queryText_nested (by simpa using hq (behind ++ .mark .rightParen :: after)) ?_
    rwa [wordOf?_closed]
  have reads {e : Nat} {inside : List Token} (h : ReadsQuery s e inside) :
      ReadsQuery s (e + 1) (.mark .leftParen :: inside ++ .mark .rightParen :: []) := by
    obtain ⟨q, hq⟩ := nested h (fun k first => nomatch (first : wordOf? ([] : List Token).head? = some k))
    exact ⟨q, fun after => Local.parenthesised_of_ok (hq after)⟩
  have more {e : Nat} {inside behind : List Token} {t : Token} (h : ReadsQuery s e inside)
      (quits : ∀ k, wordOf? behind.head? = some k → k.goesOnQuery = false) (first : behind.head? = some t)
      (closed : t ≠ .mark .rightParen) :
      FailsQuery s (e + 1) (.mark .leftParen :: inside ++ .mark .rightParen :: behind) .grammar := by
    obtain ⟨q, hq⟩ := nested h quits
    obtain ⟨behind, rfl⟩ := List.head?_eq_some_iff.mp first
    intro after
    refine (bind_of_ok (expectMark_self _)).trans ((bind_of_ok (hq after)).trans (bind_of_error (expectMark_error ?_)))
    simpa using closed
  intro d
  cases d with
  | zero => exact .inl (failsQuery_zero _)
  | succ e =>
    rw [Nat.add_right_comm]
    obtain grave | ⟨reads₁, reads₂⟩ | ⟨f, f', hf, hf', fails₁, fails₂⟩ := h e
    · exact .inl (fails behind grave)
    · cases start : behind.head? with
      | none =>
        obtain rfl := List.head?_eq_none_iff.mp start
        obtain rfl := List.head?_eq_none_iff.mp (first.trans start)
        exact .inr (.inl ⟨reads reads₁, reads reads₂⟩)
      | some t =>
        have other : t ≠ .mark .rightParen := fun e => closed (start.trans (congrArg some e))
        refine .inr (.inr ⟨.grammar, .grammar, nofun, nofun, more reads₁ quits start other, ?_⟩)
        exact more reads₂ (first ▸ quits) (first.trans start) other
    · exact .inr (.inr ⟨f, f', hf, hf', fails behind fails₁, fails behind' fails₂⟩)

end Parser

end DetectionPlan.Sql
