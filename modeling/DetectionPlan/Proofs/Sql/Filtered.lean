/-
Texts of filtered queries. The tokens of a query and those of some conditions are
put together in one text, from which the query is read with the conditions
conjoined to its filter.
-/
import DetectionPlan.Proofs.Outcome
import DetectionPlan.Proofs.Sql.Conjunction
import DetectionPlan.Proofs.Sql.Spelling
import DetectionPlan.Proofs.Sql.StatementSlot

namespace DetectionPlan

open Sql (Grammar ParserSettings Token)

/-! ## Texts of conditions -/

namespace Predicate

/-- The names of a predicate stand without quotes, and the first of them is read as
a name. -/
structure Named (g : Grammar) (p : Predicate) : Prop where
  column : g.isPlainName p.column
  dataset : ∀ name, p.dataset = some name → g.isPlainName name
  first : Sql.startsName g p.firstWord

end Predicate

namespace Sql

namespace Lexer

variable {s : ParserSettings} {p : Predicate}

theorem spellable_listTokens {values : List String} (h : ∀ v ∈ values, Spellable s (.string .single v)) :
    ∀ t ∈ Predicate.listTokens values, Spellable s t := by
  induction values with
  | nil => nofun
  | cons v more ih =>
    have first := h v (List.mem_cons_self ..)
    have rest := ih fun w hw => h w (List.mem_cons_of_mem _ hw)
    match more with
    | [] => simpa [Predicate.listTokens, Predicate.valueToken] using first
    | w :: more =>
      have comma : Spellable s (.mark .comma) := spellable_mark (c := ',') rfl rfl
      simpa [Predicate.listTokens, Predicate.valueToken, first, comma] using rest

theorem spellable_tokens (hn : p.Named s.grammar) (hv : ∀ v ∈ p.values, Spellable s (.string .single v)) :
    ∀ t ∈ p.tokens, Spellable s t := by
  have column : ∀ t ∈ p.columnTokens, Spellable s t := by
    have name := spellable_word hn.column
    unfold Predicate.columnTokens
    split
    next dataset hd =>
      simpa [spellable_period, name] using spellable_word (hn.dataset dataset hd)
    · simpa using name
  have values : ∀ t ∈ p.values.map Predicate.valueToken, Spellable s t := by
    simpa [Predicate.valueToken] using hv
  have eq : Spellable s (.mark .eq) := spellable_mark (c := '=') rfl rfl
  have open_ : Spellable s (.mark .leftParen) := spellable_mark (c := '(') rfl rfl
  have close : Spellable s (.mark .rightParen) := spellable_mark (c := ')') rfl rfl
  intro t ht
  rcases List.mem_append.mp ht with ht | ht
  · exact column t ht
  · split at ht
    · rcases List.mem_cons.mp ht with rfl | ht
      · exact eq
      · exact values t ht
    · rcases List.mem_cons.mp ht with rfl | ht
      · exact spellable_notEq
      · exact values t ht
    · simp only [List.cons_append, List.mem_cons, List.mem_append, List.not_mem_nil, or_false] at ht
      rcases ht with rfl | rfl | ht | rfl
      · exact spellable_word (isPlainName_of_isCapitals _ rfl)
      · exact open_
      · exact spellable_listTokens hv t ht
      · exact close

theorem spellable_conjunctionTokens {cs : List (List Token)} (h : ∀ c ∈ cs, ∀ t ∈ c, Spellable s t) :
    ∀ t ∈ conjunctionTokens cs, Spellable s t := by
  intro t ht
  obtain ⟨c, hc, ht⟩ := List.mem_flatMap.mp ht
  simp only [List.cons_append, List.mem_cons, List.mem_append, List.not_mem_nil, or_false] at ht
  rcases ht with rfl | rfl | ht | rfl
  · exact spellable_word (isPlainName_of_isCapitals _ rfl)
  · exact spellable_mark (c := '(') rfl rfl
  · exact h c hc t ht
  · exact spellable_mark (c := ')') rfl rfl

theorem spellable_conjoinTokens {e : Expr} {ts : List Token} {cs : List (List Token)}
    (filter : ∀ t ∈ ts, Spellable s t) (h : ∀ c ∈ cs, ∀ t ∈ c, Spellable s t) :
    ∀ t ∈ Parser.conjoinTokens e ts cs, Spellable s t := by
  intro t ht
  rcases List.mem_append.mp ht with ht | ht
  · split at ht
    · simp only [List.cons_append, List.mem_cons, List.mem_append, List.not_mem_nil, or_false] at ht
      rcases ht with rfl | ht | rfl
      · exact spellable_mark (c := '(') rfl rfl
      · exact filter t ht
      · exact spellable_mark (c := ')') rfl rfl
    · exact filter t ht
  · exact spellable_conjunctionTokens h t ht

end Lexer

/-! ## Statements -/

namespace ParserSettings

open DetectionPlan.Sql.Parser

variable {s : ParserSettings} {text : String}

theorem parseStatements_ok_iff {sts : List Statement} : s.parseStatements text = .ok sts ↔
    ∃ ts rest, Lexer.scan s text = .ok ts ∧ statements s ts = .ok (sts, rest) := by
  constructor
  · intro h
    obtain ⟨ts, hts, h⟩ := Outcome.bind_ok_iff.mp h
    obtain ⟨⟨sts, rest⟩, hr, h⟩ := Outcome.bind_ok_iff.mp h
    obtain rfl := Except.ok.inj h
    exact ⟨ts, rest, hts, hr⟩
  · rintro ⟨ts, rest, hts, hr⟩
    exact Outcome.bind_ok_iff.mpr ⟨ts, hts, Outcome.bind_ok_iff.mpr ⟨_, hr, rfl⟩⟩

theorem parseExpr_of_tokens {e : Expr} {ts : List Token} {d : Nat} (limit : s.recursionLimit = d)
    (scanned : Lexer.scan s text = .ok ts) (read : (innerIn s d).expr 0 ts = .ok (e, [])) :
    s.parseExpr text = .ok e := by
  subst limit
  exact Outcome.bind_ok_iff.mpr ⟨ts, scanned, Outcome.bind_ok_iff.mpr ⟨(e, []), read, rfl⟩⟩

theorem parseStatement_ok_iff {st : Statement} :
    s.parseStatement text = .ok st ↔ s.parseStatements text = .ok [st] := by
  unfold parseStatement
  cases s.parseStatements text with
  | error f => constructor <;> intro h <;> cases h
  | ok sts =>
    match sts with
    | [] => constructor <;> intro h <;> cases h
    | [st'] =>
      refine ⟨fun h => ?_, fun h => ?_⟩ <;> cases h <;> rfl
    | _ :: _ :: _ => constructor <;> intro h <;> cases h

end ParserSettings

/-! ## Filters that take conditions -/

/-- Whether an expression starts with a word that between parentheses starts a
query. -/
def Expr.startsQuery (e : Expr) : Bool :=
  e.firstName.any fun name => name.quote.isNone &&
    (Keyword.ofWord? name.text == some .SELECT || Keyword.ofWord? name.text == some .WITH)

/-- A query whose filter takes further conditions. The recursion limit leaves room
for them; an alternative gets parentheses, which need one level more, and may not
be a query between them; anything else may not be open to what follows. -/
structure Filterable (s : ParserSettings) (text : String) (q : Query) (e : Expr) : Prop where
  read : s.parseStatement text = .ok (.query q)
  filter : q.filter? = some e
  room : q.filterLevels + 5 ≤ s.recursionLimit
  spare : e.isAlternative →
    { s with recursionLimit := s.recursionLimit - 1 }.parseStatement text = .ok (.query q)
  noQuery : e.isAlternative → e.startsQuery = false
  shut : e.isAlternative = false → e.opensDistinct = false

namespace Filterable

open DetectionPlan.Sql.Parser Lexer

variable {s : ParserSettings} {text : String} {q : Query} {e : Expr}

theorem slot_with {limit d d' : Nat} (hd : d ≤ d') (filter : q.filter? = some e)
    (read : { s with recursionLimit := limit }.parseStatement text = .ok (.query q))
    (hl : limit = d + q.filterLevels + 1) (hl' : s.recursionLimit = d' + q.filterLevels + 1) :
    ∃ ts rest, scan s text = .ok ts ∧ Parser.Slot (innerIn s d) (innerIn s d') e ts rest (statements s)
      fun e' => [.query (q.withFilter e')] := by
  obtain ⟨ts, rest, hts, hr⟩ :=
    ParserSettings.parseStatements_ok_iff.mp (ParserSettings.parseStatement_ok_iff.mp read)
  refine ⟨ts, rest, ?_, statements_slot filter hd hl hl' (Nat.lt_succ_self _) hr⟩
  rw [scan, scanIn_limit] at hts
  exact hts

/-- The place of the filter, which is read with a level less if it is an alternative. -/
theorem slot (h : Filterable s text q e) : ∃ ts rest d d', scan s text = .ok ts ∧ 4 ≤ d' ∧ d ≤ d' ∧
    (e.isAlternative → d < d') ∧ Parser.Slot (innerIn s d) (innerIn s d') e ts rest (statements s)
      fun e' => [.query (q.withFilter e')] := by
  have room := h.room
  have levels : 1 ≤ q.filterLevels := by
    unfold Query.filterLevels
    split <;> omega
  obtain ⟨d, hd⟩ : ∃ d, s.recursionLimit = d + q.filterLevels + 1 :=
    ⟨s.recursionLimit - q.filterLevels - 1, by omega⟩
  cases alternative : e.isAlternative with
  | true =>
    obtain ⟨ts, rest, hts, slot⟩ := slot_with (d := d - 1) (by omega) h.filter
      (h.spare alternative) (by omega) hd
    exact ⟨ts, rest, d - 1, d, hts, by omega, by omega, fun _ => by omega, slot⟩
  | false =>
    obtain ⟨ts, rest, hts, slot⟩ := slot_with (Nat.le_refl d) h.filter h.read hd hd
    exact ⟨ts, rest, d, d, hts, by omega, Nat.le_refl d, nofun, slot⟩

/-- The tokens of a filter with those of further conditions may stand in its place. -/
theorem replaces {name : Ident} {ts left : List Token} {conditions : List (List Token)}
    (chunk : Chunk 0 0 true ts) (given : conditions ≠ []) :
    Replaces (.word name (some .WHERE)) (ts ++ left) (conjoinTokens e ts conditions ++ left) := by
  cases alternative : e.isAlternative with
  | true =>
    refine ⟨[], .word name (some .WHERE), _, _, rfl, rfl, .inr ⟨nofun, ?_⟩⟩
    simp only [conjoinTokens, alternative, if_true, List.cons_append]
    exact ⟨_, _, rfl, .inl rfl⟩
  | false =>
    -- The conditions stand behind the last token of the filter, which is no point.
    obtain ⟨front, m, rfl⟩ : ∃ front m, ts = front ++ [m] :=
      ⟨_, _, (List.dropLast_append_getLast (chunk.taken rfl)).symm⟩
    have point : m ≠ .mark .period := by simpa using chunk.last
    obtain ⟨c, cs, rfl⟩ := List.exists_cons_of_ne_nil given
    refine ⟨.word name (some .WHERE) :: front, m, left, conjunctionTokens (c :: cs) ++ left, by simp, ?_,
      .inr ⟨point, ?_⟩⟩
    · simp [conjoinTokens, alternative]
    · simp only [conjunctionTokens, List.flatMap_cons, List.cons_append, ofWord_and]
      exact ⟨_, _, rfl, .inr (.inr ⟨_, rfl⟩)⟩

/-- An expression that is no query between parentheses starts with no word that
starts a query. -/
theorem first_of_startsQuery {d : Nat} {k : Keyword} {ts rest : List Token} (hk : k = .SELECT ∨ k = .WITH)
    (spelled : ∀ t ∈ ts, KeywordSpelled t) (read : (innerIn s d).expr 0 (ts ++ rest) = .ok (e, rest))
    (noQuery : e.startsQuery = false) : wordOf? ts.head? ≠ some k := by
  intro first
  obtain ⟨name, ts, rfl⟩ := exists_word first
  obtain ⟨plain, word⟩ := spelled _ (List.mem_cons_self ..) name k rfl
  have starts : e.firstName = some name := by
    cases d with
    | zero =>
      rw [innerIn_expr_zero] at read
      cases read
    | succ d =>
      rw [innerIn_expr_succ] at read
      exact expression_firstName hk read
  rcases hk with rfl | rfl <;> simp [Expr.startsQuery, starts, plain, word] at noQuery

/-- The filter takes conditions where it is read. -/
theorem conjoinable (h : Filterable s text q e) {d d' : Nat} {filter left : List Token} (hd : d ≤ d')
    (less : e.isAlternative → d < d') (spelled : ∀ t ∈ filter, KeywordSpelled t)
    (read : (innerIn s d).expr 0 (filter ++ left) = .ok (e, left)) : Conjoinable s d' e filter left where
  read := (((innerIn_local s hd).expr 0).deeper (by simp [read])).trans read
  shallow alternative := ⟨d, less alternative, read⟩
  noQuery alternative :=
    ⟨first_of_startsQuery (.inl rfl) spelled read (h.noQuery alternative),
      first_of_startsQuery (.inr rfl) spelled read (h.noQuery alternative)⟩
  shut := h.shut

/-- The query is read from some text with conditions conjoined to its filter. -/
theorem conjoined (h : Filterable s text q e) {ps : List Predicate} {conditions : List Expr}
    (hps : List.Forall₂ (fun p c => p.expr = .ok c) ps conditions) (given : ps ≠ [])
    (names : ∀ p ∈ ps, p.Named s.grammar)
    (values : ∀ p ∈ ps, ∀ v ∈ p.values, Spellable s (.string .single v)) :
    ∃ text', s.parseStatement text' = .ok (.query (q.withFilter (e.conjoin conditions))) := by
  obtain ⟨ts, rest, d, d', hts, deep, hd, less, slot⟩ := h.slot
  obtain ⟨front, name, back, left, rfl, read, again⟩ := slot
  obtain ⟨filter, rfl, chunk⟩ := ((innerIn_local s hd).expr 0).takes read
  have spelled := forall_tokens spellable_of_next hts
  have keywords := forall_tokens next_keywordSpelled hts
  have inFilter {t : Token} (ht : t ∈ filter) : t ∈ front ++ .word name (some .WHERE) :: (filter ++ left) := by
    simp [ht]
  -- The statement is read with the tokens of the conditions behind its filter,
  have conjoinable := h.conjoinable hd less (fun t ht => keywords t (inFilter ht)) read
  have read' := conjoin_read deep conjoinable hps given fun p hp => (names p hp).first
  have statement := again _ _ (replaces chunk (by simpa using given)) read'
  -- and there is a text from which all these tokens are read.
  have conditionTokens : ∀ c ∈ ps.map Predicate.tokens, ∀ t ∈ c, Spellable s t := by
    intro c hc
    obtain ⟨p, hp, rfl⟩ := List.mem_map.mp hc
    exact spellable_tokens (names p hp) (values p hp)
  have filterTokens := spellable_conjoinTokens (e := e) (fun t ht => spelled t (inFilter ht)) conditionTokens
  have spelled' : ∀ t ∈ front ++ .word name (some .WHERE) ::
      (conjoinTokens e filter (ps.map Predicate.tokens) ++ left), Spellable s t := by
    intro t ht
    simp only [List.mem_append, List.mem_cons] at ht
    rcases ht with ht | rfl | ht | ht
    · exact spelled t (by simp [ht])
    · exact spelled _ (by simp)
    · exact filterTokens t ht
    · exact spelled t (by simp [ht])
  obtain ⟨text', hts'⟩ := exists_text spelled'
  refine ⟨text', ParserSettings.parseStatement_ok_iff.mpr (ParserSettings.parseStatements_ok_iff.mpr ?_)⟩
  exact ⟨_, rest, hts', statement⟩

end Filterable

end Sql

end DetectionPlan
