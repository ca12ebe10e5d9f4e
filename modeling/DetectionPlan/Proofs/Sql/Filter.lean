/-
Queries with predicates added. The text is read as the query with another filter and
nothing else changed, and for every row the filter is the conjunction of what it was
and of the predicates.
-/
import DetectionPlan.Proofs.Sql.Filtered
import DetectionPlan.Proofs.Sql.Truth

namespace DetectionPlan.Sql

variable {d : DialectSettings} {s : ParserSettings} {text : String} {q : Query} {e : Expr}
variable {ps : List Predicate} {conditions : List Expr}

/-! ## Filters of queries -/

namespace Query

theorem filter?_withFilter (h : q.filter? = some e) (e' : Expr) : (q.withFilter e').filter? = some e' := by
  obtain ⟨sel, body, -⟩ | ⟨inner, sel, body, named, body', -⟩ := filter?_cases h
  · simp [filter?, select?, withFilter, body]
  · have named' : ∀ b b', ({ q with body := b }.hasNamed && { inner with body := b' }.hasNamed) = false :=
      fun _ _ => named
    simp only [filter?, select?, withFilter, body, body', named', Bool.false_eq_true, if_false]
    rfl

/-- With its own filter again a query is what it was. -/
theorem withFilter_withFilter (h : q.filter? = some e) (e' : Expr) : (q.withFilter e').withFilter e = q := by
  obtain ⟨isRecursive, named, body, order, limit, offset, offsetUnit, settings⟩ := q
  obtain ⟨sel, rfl, filter⟩ | ⟨inner, sel, rfl, -, body, filter⟩ := filter?_cases h
  · obtain ⟨isDistinct, items, tables, _, groups, having⟩ := sel
    obtain rfl := filter
    rfl
  · obtain ⟨isRecursive', named', body', order', limit', offset', offsetUnit', settings'⟩ := inner
    obtain rfl : body' = .select sel := body
    obtain ⟨isDistinct, items, tables, _, groups, having⟩ := sel
    obtain rfl := filter
    rfl

theorem mapSelect_withConditions (h : q.filter? = some e) :
    q.mapSelect (·.withConditions conditions) = .ok (q.withFilter (e.conjoin conditions)) := by
  have conjoined {sel : Select} (filter : sel.filter = some e) : sel.withConditions conditions =
      .ok { sel with filter := some (e.conjoin conditions) } := by
    rw [Select.withConditions, filter]
  unfold mapSelect withFilter
  obtain ⟨sel, body, filter⟩ | ⟨inner, sel, body, named, body', filter⟩ := filter?_cases h
  · simp only [body, conjoined filter]
    rfl
  · simp only [body, body', conjoined filter, named]
    rfl

end Query

/-! ## Predicates added to queries -/

/-- A statement that is read from some text is read from the text that it is written
as. -/
def RoundTrips (s : ParserSettings) (st : Statement) : Prop :=
  (∃ text, s.parseStatement text = .ok st) → s.parseStatement st.text = .ok st

theorem isInjectable_of_isAdmissible {p : Predicate} (h : p.IsAdmissible) : p.operator.isInjectable := by
  unfold Predicate.IsAdmissible at h
  split at h <;> simp_all [FilterOperator.isInjectable]

/-- The conditions of admissible predicates. -/
theorem exists_conditions (d : DialectSettings) (h : ∀ p ∈ ps, p.IsAdmissible) :
    ∃ conditions, conditionsOf d ps = .ok conditions ∧
      List.Forall₂ (fun p c => p.expr = .ok c) (ps.map (·.normalized d.render)) conditions := by
  have injectable : ps.find? (!·.operator.isInjectable) = none := by
    rw [List.find?_eq_none]
    intro p hp
    simp [isInjectable_of_isAdmissible (h p hp)]
  have each (p : Predicate) (hp : p ∈ ps) : ∃ c, (p.normalized d.render).expr = .ok c :=
    Predicate.exists_expr (p := p.normalized d.render) (h p hp)
  obtain ⟨conditions, hc⟩ := Outcome.exists_mapM_ok each
  refine ⟨conditions, ?_, ?_⟩
  · rw [conditionsOf, injectable]
    exact hc
  · exact List.forall₂_map_left_iff.mpr (Outcome.mapM_ok_iff.mp hc)

theorem addPredicates_eq (read : d.parser.parseStatement text = .ok (.query q)) (filter : q.filter? = some e)
    (given : conditions ≠ []) (h : conditionsOf d ps = .ok conditions) :
    addPredicates d text ps = .ok (Statement.query (q.withFilter (e.conjoin conditions))).text := by
  have more : conditions.isEmpty = false := by simpa using given
  have mapped : (Statement.query q).mapSelect (·.withConditions conditions) =
      .ok (.query (q.withFilter (e.conjoin conditions))) := by
    rw [Statement.mapSelect, Query.mapSelect_withConditions filter]
    rfl
  refine Outcome.bind_ok_iff.mpr ⟨conditions, h, Outcome.bind_ok_iff.mpr ⟨_, read, ?_⟩⟩
  simp only [more, Bool.false_eq_true, if_false]
  exact Outcome.bind_ok_iff.mpr ⟨_, mapped, rfl⟩

/-- A filter with the conditions of some predicates is the conjunction of all. -/
theorem truth_conjoin_predicates (h : List.Forall₂ (fun p c => p.expr = .ok c) ps conditions) (row : Valuation) :
    row.truth (e.conjoin conditions) = ps.foldl (fun all p => all.and (p.truth row)) (row.truth e) := by
  rw [truth_conjoin]
  generalize row.truth e = first
  induction h generalizing first with
  | nil => rfl
  | cons hp _ ih => rw [List.foldl_cons, List.foldl_cons, Predicate.truth_expr hp, ih]

/-- A statement is read when its tokens are. -/
theorem parseStatement_of_tokens {st : Statement} (ts rest : List Token)
    (scanned : Lexer.scan s text = .ok ts) (read : Parser.statements s ts = .ok ([st], rest)) :
    s.parseStatement text = .ok st :=
  ParserSettings.parseStatement_ok_iff.mpr
    (ParserSettings.parseStatements_ok_iff.mpr ⟨ts, rest, scanned, read⟩)

/-- The rows of `t` that a filter lets through. -/
def rowsWhere (filter : Expr) : Query := .ofBody <| .select {
  isDistinct := false
  items := [⟨.name [⟨"a", none⟩], none⟩]
  tables := [⟨.named [⟨"t", none⟩] none, []⟩]
  filter := some filter
  groups := .by []
  having := none }

def oneOrTwo : Expr :=
  .binary (.binary (.name [⟨"a", none⟩]) .eq (.literal (.number "1" false))) .or
    (.binary (.name [⟨"b", none⟩]) .eq (.literal (.number "2" false)))

/-- The tokens of `rowsWhere`, with those of the filter. -/
def tokensWhere (filter : List Token) : List Token :=
  .word ⟨"SELECT", none⟩ (some .SELECT) :: .word ⟨"a", none⟩ none ::
    .word ⟨"FROM", none⟩ (some .FROM) :: .word ⟨"t", none⟩ none ::
    .word ⟨"WHERE", none⟩ (some .WHERE) :: filter

def oneOrTwoTokens : List Token :=
  [.word ⟨"a", none⟩ none, .mark .eq, .number "1" false, .word ⟨"OR", none⟩ (some .OR),
    .word ⟨"b", none⟩ none, .mark .eq, .number "2" false]

def conjoinedTokens : List Token :=
  tokensWhere (.mark .leftParen :: oneOrTwoTokens ++ [.mark .rightParen,
    .word ⟨"AND", none⟩ (some .AND), .mark .leftParen, .word ⟨"c", none⟩ none, .mark .eq,
    .string .single "x", .mark .rightParen,
    .word ⟨"AND", none⟩ (some .AND), .mark .leftParen, .word ⟨"d", none⟩ none,
    .word ⟨"IN", none⟩ (some .IN), .mark .leftParen, .string .single "y", .mark .comma,
    .string .single "z", .mark .rightParen, .mark .rightParen])

theorem oneOrTwo_filterable : Filterable {} "SELECT a FROM t WHERE a = 1 OR b = 2"
    (rowsWhere oneOrTwo) oneOrTwo where
  read := parseStatement_of_tokens (tokensWhere oneOrTwoTokens) [] (by decide +kernel) rfl
  filter := rfl
  room := by decide
  spare _ := parseStatement_of_tokens (tokensWhere oneOrTwoTokens) [] (by decide +kernel) rfl
  noQuery _ := by decide +kernel
  shut := nofun

/-- A column that is called `SELECT` is read as a name where a filter starts. -/
def selectOrTwo : Expr :=
  .binary (.binary (.name [⟨"SELECT", none⟩]) .eq (.literal (.number "1" false))) .or
    (.binary (.name [⟨"b", none⟩]) .eq (.literal (.number "2" false)))

end DetectionPlan.Sql
