/-
The place of a filter in the text of a statement. The recursion limit bounds the
depth and nothing else, so a statement may be read with one limit and, with
another filter in it, with a higher one.
-/
import DetectionPlan.Proofs.Sql.Slot

namespace DetectionPlan.Sql.Parser

variable {s : ParserSettings} {inner inner' : Inner} {e : Expr} {ts mid rest : List Token}

/-! ## Limits -/

section Limit

variable (s) (inner) (limit : Nat)

theorem operatorsIn_limit (power n : Nat) (left : Expr) :
    operatorsIn { s with recursionLimit := limit } inner power n left =
      operatorsIn s inner power n left := by
  induction n generalizing left with
  | zero => rfl
  | succ n ih =>
    simp only [operatorsIn, ih]
    rfl

theorem expression_limit (power : Nat) :
    expression { s with recursionLimit := limit } inner power = expression s inner power := by
  simp only [expression, operatorsIn_limit]
  rfl

theorem joinsIn_limit (table : Parser Table) (n : Nat) :
    joinsIn { s with recursionLimit := limit } inner table n = joinsIn s inner table n := by
  induction n with
  | zero => rfl
  | succ n ih =>
    simp only [joinsIn, ih]
    rfl

theorem tableJoins_limit (table : Parser Table) :
    tableJoins { s with recursionLimit := limit } inner table = tableJoins s inner table := by
  simp only [tableJoins, joinsIn_limit]

theorem tableIn_limit (n : Nat) :
    tableIn { s with recursionLimit := limit } inner n = tableIn s inner n := by
  induction n with
  | zero => rfl
  | succ n ih =>
    simp only [tableIn, joinedTable, tableJoins_limit, ih]
    rfl

theorem tableList_limit :
    tableList { s with recursionLimit := limit } inner = tableList s inner := by
  simp only [tableList, table, tableJoins_limit, tableIn_limit]

theorem select_limit : select { s with recursionLimit := limit } inner = select s inner := by
  simp only [select, tableList_limit]
  rfl

theorem queryText_limit :
    queryText { s with recursionLimit := limit } inner = queryText s inner := by
  simp only [queryText, body, plainBody, select_limit]
  rfl

theorem innerIn_limit (d : Nat) : innerIn { s with recursionLimit := limit } d = innerIn s d := by
  have same {i i' : Inner} (expr : ∀ power, i.expr power = i'.expr power) (query : i.query = i'.query) :
      i = i' := by
    cases i
    cases i'
    cases query
    exact congrArg (Inner.mk · _) (funext expr)
  induction d with
  | zero =>
    refine same (fun power => funext fun ts => ?_) (funext fun ts => ?_)
    · rw [innerIn_expr_zero, innerIn_expr_zero]
    · rw [innerIn_query_zero, innerIn_query_zero]
  | succ d ih =>
    refine same (fun power => ?_) ?_
    · rw [innerIn_expr_succ, innerIn_expr_succ, ih, expression_limit]
    · rw [innerIn_query_succ, innerIn_query_succ, ih, queryText_limit]

end Limit

/-! ## Statements -/

/-- Queries are read for words that start one, and for a parenthesis. -/
def startsQuery : Option Token → Bool
  | some (.mark .leftParen) => true
  | some (.word _ (some k)) => k == .SELECT || k == .WITH || k == .VALUES
  | _ => false

theorem statementText_of_query {statement : Parser Statement} {q : Query}
    (first : startsQuery ts.head?) (h : inner.query ts = .ok (q, rest)) :
    statementText s inner statement ts = .ok (.query q, rest) := by
  rw [statementText, bind_of_ok peek_apply]
  have read : (do return Statement.query (← inner.query) : Parser Statement) ts =
      .ok (.query q, rest) := bind_of_ok h
  generalize ts.head? = t at first
  unfold startsQuery at first
  split at first
  · exact read
  next name k =>
    have words : k = .SELECT ∨ k = .WITH ∨ k = .VALUES := by
      simpa only [Bool.or_eq_true, beq_iff_eq, or_assoc] using first
    rcases words with rfl | rfl | rfl <;> exact read
  · cases first

/-- A statement of another kind is no query. -/
def OtherKind (st : Statement) : Prop := ∀ q, st ≠ .query q

theorem rest_otherKind {p : Parser Statement} (h : Answers OtherKind p) :
    Answers OtherKind (statementText.rest p) := .bind fun _ => h

theorem insertStatement_otherKind : Answers OtherKind (insertStatement s inner) :=
  .bind fun _ => .bind fun _ => .bind fun _ => .bind fun _ => .pure nofun

theorem updateStatement_otherKind : Answers OtherKind (updateStatement s inner) :=
  .bind fun _ => .bind fun _ => .bind fun _ => .bind fun _ => .bind fun _ => .pure nofun

theorem deleteStatement_otherKind : Answers OtherKind (deleteStatement s inner) := by
  have tables (marked : Bool) : Answers OtherKind (do
      let tables ← tableList s inner
      let filter ← after .WHERE (inner.expr 0)
      return Statement.delete marked tables filter) := .bind fun _ => .bind fun _ => .pure nofun
  exact .bind fun marked => .ite (tables marked) (.bind fun _ => tables marked)

theorem createStatement_otherKind : Answers OtherKind (createStatement s inner) :=
  .bind fun _ => .bind fun _ => .bind fun _ => .bind fun _ => .bind fun _ => .bind fun _ =>
    .bind fun _ => .pure nofun

theorem dropStatement_otherKind : Answers OtherKind (dropStatement s) :=
  .bind fun _ => .bind fun _ => .bind fun _ => .bind fun _ => .pure nofun

theorem otherKind_explain (word : ExplainWord) (analyzing verbose : Bool) (st : Statement) :
    OtherKind (.explain word analyzing verbose st) := nofun

theorem otherKind_explainTable (word : ExplainWord) (name : List Ident) :
    OtherKind (.explainTable word name) := nofun

theorem explainStatement_otherKind (word : ExplainWord) (statement : Parser Statement) :
    Answers OtherKind (explainStatement s word statement) := by
  refine .bind fun _ => .ite (.bind fun _ => ?_) ?_
  all_goals
    refine .bind fun _ => .bind fun _ => .bind fun found => ?_
    split
    · exact .fail
    · exact .fail
    · exact .pure (otherKind_explain _ _ _ _)
    · exact .bind fun _ => .pure (otherKind_explainTable _ _)

theorem query_of_statementText {statement : Parser Statement} {q : Query}
    (h : statementText s inner statement ts = .ok (.query q, rest)) :
    startsQuery ts.head? ∧ inner.query ts = .ok (q, rest) := by
  rw [statementText, bind_of_ok peek_apply] at h
  have read (h : (do return Statement.query (← inner.query) : Parser Statement) ts =
      .ok (.query q, rest)) : inner.query ts = .ok (q, rest) := by
    obtain ⟨q', mid, hq, made⟩ := bind_eq_ok_iff.mp h
    obtain ⟨same, rfl⟩ := Prod.mk.inj (Except.ok.inj made)
    rw [hq, Statement.query.inj same]
  generalize ts.head? = t at h
  have other {p : Parser Statement} (answers : Answers OtherKind p) (h : p ts = .ok (.query q, rest)) :
      False := answers h q rfl
  split at h
  · exact ⟨rfl, read h⟩
  next name k =>
    split at h
    iterate 3 exact ⟨rfl, read h⟩
    · exact (other (rest_otherKind insertStatement_otherKind) h).elim
    · exact (other (rest_otherKind updateStatement_otherKind) h).elim
    · exact (other (rest_otherKind deleteStatement_otherKind) h).elim
    · exact (other (rest_otherKind createStatement_otherKind) h).elim
    · exact (other (rest_otherKind dropStatement_otherKind) h).elim
    iterate 3 exact (other (rest_otherKind (explainStatement_otherKind _ _)) h).elim
    · cases h
  · cases h

/-! ## Statements in a row -/

theorem statementsIn_semicolon (n : Nat) (parted : Bool) :
    statementsIn s (n + 1) parted (.mark .semicolon :: ts) = statementsIn s n true ts := by
  rw [statementsIn, bind_of_ok (skipMark_self .semicolon)]
  rfl

theorem statementsIn_parted {n : Nat} {t : Token} (ht : t ≠ .mark .semicolon) (ts : List Token) :
    statementsIn s (n + 1) true (t :: ts) =
      (do
        let statement ← statementIn s s.recursionLimit
        return statement :: (← statementsIn s n false) : Parser (List Statement)) (t :: ts) := by
  have other : skipMark .semicolon (t :: ts) = .ok (false, t :: ts) := skipMark_other (by simpa using ht)
  rw [statementsIn, bind_of_ok other]
  exact bind_of_ok peek_apply

/-- Behind a statement nothing is read before a semicolon. -/
theorem statementsIn_unparted {t : Token} (ht : t ≠ .mark .semicolon) (n : Nat) :
    statementsIn s (n + 1) false (t :: ts) =
      if wordOf? (some t) = some .END then .ok ([], t :: ts) else .error .grammar := by
  have other : skipMark .semicolon (t :: ts) = .ok (false, t :: ts) := skipMark_other (by simpa using ht)
  rw [statementsIn, bind_of_ok other]
  simp only [Bool.false_eq_true, if_false]
  rw [bind_of_ok peek_apply]
  simp only [List.head?_cons]
  split
  · simp only [wordOf?, if_true]
    rfl
  next other =>
    have noEnd : wordOf? (some t) ≠ some .END := by
      cases t with
      | word name k => simpa [wordOf?] using other name
      | _ => simp [wordOf?]
    rw [if_neg noEnd]
    rfl

theorem statementsIn_nil (n : Nat) (parted : Bool) : statementsIn s n parted [] = .ok ([], []) := by
  cases n <;> rfl

/-- Where no statement follows, none follows with any limit. -/
theorem statementsIn_none {limit n m : Nat} {parted : Bool} (hn : ts.length < n) (hm : ts.length < m)
    (h : statementsIn { s with recursionLimit := limit } n parted ts = .ok ([], rest)) :
    statementsIn s m parted ts = .ok ([], rest) := by
  induction ts generalizing n m parted with
  | nil =>
    rw [statementsIn_nil] at h ⊢
    exact h
  | cons t ts ih =>
    obtain ⟨n, rfl⟩ : ∃ n', n = n' + 1 := ⟨n - 1, by omega⟩
    obtain ⟨m, rfl⟩ : ∃ m', m = m' + 1 := ⟨m - 1, by omega⟩
    simp only [List.length_cons] at hn hm
    by_cases semicolon : t = .mark .semicolon
    · subst semicolon
      rw [statementsIn_semicolon] at h ⊢
      exact ih (by omega) (by omega) h
    · cases parted with
      | true =>
        rw [statementsIn_parted semicolon] at h
        obtain ⟨st, mid, -, h⟩ := bind_eq_ok_iff.mp h
        obtain ⟨sts, mid', -, h⟩ := bind_eq_ok_iff.mp h
        cases h
      | false =>
        rw [statementsIn_unparted semicolon] at h ⊢
        exact h

theorem statementIn_succ (d : Nat) :
    statementIn s (d + 1) = statementText s (innerIn s d) (statementIn s d) :=
  funext fun ts => statementIn.eq_2 s ts d

/-! ## One query -/

/-- One query with nothing but semicolons around it, read `d` levels deep. -/
inductive LoneQuery (s : ParserSettings) (d : Nat) (q : Query) (rest : List Token) : List Token → Prop
  | here {ts mid : List Token} (first : startsQuery ts.head?) (read : (innerIn s d).query ts = .ok (q, mid))
    (none : statementsIn s (mid.length + 1) false mid = .ok ([], rest)) : LoneQuery s d q rest ts
  | semicolon {ts : List Token} (h : LoneQuery s d q rest ts) : LoneQuery s d q rest (.mark .semicolon :: ts)

namespace LoneQuery

variable {q : Query} {limit d d' n : Nat}

theorem of_read (hn : ts.length < n)
    (h : statementsIn { s with recursionLimit := limit } n true ts = .ok ([.query q], rest)) :
    ∃ d, limit = d + 1 ∧ LoneQuery s d q rest ts := by
  induction n generalizing ts with
  | zero => cases h
  | succ n ih =>
    match ts with
    | [] =>
      rw [statementsIn_nil] at h
      cases h
    | t :: ts =>
      by_cases semicolon : t = .mark .semicolon
      · subst semicolon
        rw [statementsIn_semicolon] at h
        obtain ⟨d, hd, lone⟩ := ih (by simpa using hn) h
        exact ⟨d, hd, lone.semicolon⟩
      · rw [statementsIn_parted semicolon] at h
        obtain ⟨st, mid, hs, h⟩ := bind_eq_ok_iff.mp h
        obtain ⟨sts, mid', none, h⟩ := bind_eq_ok_iff.mp h
        obtain ⟨same, rfl⟩ := Prod.mk.inj (Except.ok.inj h)
        obtain ⟨rfl, rfl⟩ := List.cons.inj same
        cases limit with
        | zero => cases hs
        | succ d =>
          simp only [statementIn_succ] at hs
          obtain ⟨first, read⟩ := query_of_statementText hs
          rw [innerIn_limit] at read
          have shorter := (innerIn_local s (Nat.le_refl d)).query.takes_lt read
          exact ⟨d, rfl, .here first read (statementsIn_none (by simp at hn shorter; omega) (Nat.lt_succ_self _) none)⟩

theorem read (h : LoneQuery s d q rest ts) (hd : d < s.recursionLimit) (hn : ts.length < n) :
    statementsIn s n true ts = .ok ([.query q], rest) := by
  induction h generalizing n with
  | semicolon _ ih =>
    obtain ⟨n, rfl⟩ : ∃ n', n = n' + 1 := ⟨n - 1, by omega⟩
    rw [statementsIn_semicolon]
    exact ih (by simpa using hn)
  | @here ts mid first read none =>
    obtain ⟨k, hk⟩ : ∃ k, s.recursionLimit = k + 1 := ⟨s.recursionLimit - 1, by omega⟩
    have query : (innerIn s k).query ts = .ok (q, mid) :=
      ((innerIn_local s (by omega)).query.deeper (by rw [read]; nofun)).trans read
    have shorter := (innerIn_local s (Nat.le_refl k)).query.takes_lt query
    obtain ⟨n, rfl⟩ : ∃ n', n = n' + 1 := ⟨n - 1, by omega⟩
    match ts with
    | [] => cases first
    | t :: ts =>
      have other : t ≠ .mark .semicolon := by
        rintro rfl
        cases first
      have statement : statementIn s s.recursionLimit (t :: ts) = .ok (.query q, mid) := by
        rw [hk, statementIn_succ]
        exact statementText_of_query first query
      rw [statementsIn_parted other, bind_of_ok statement]
      exact bind_of_ok (statementsIn_none (Nat.lt_succ_self _) (by simp at hn shorter; omega) none)

/-- The query, and the same with another filter in it, which may be read deeper. -/
theorem slot (h : LoneQuery s (d + q.filterLevels) q rest ts) (hf : q.filter? = some e) (hd : d ≤ d') :
    ∃ front name back left, ts = front ++ .word name (some .WHERE) :: back ∧
      (innerIn s d).expr 0 back = .ok (e, left) ∧ ∀ back' e', Replaces (.word name (some .WHERE)) back back' →
        (innerIn s d').expr 0 back' = .ok (e', left) →
          LoneQuery s (d' + q.filterLevels) (q.withFilter e') rest
            (front ++ .word name (some .WHERE) :: back') := by
  induction h with
  | here first read none =>
    obtain ⟨front, name, back, left, rfl, read, again⟩ := query_slot hf hd read
    refine ⟨front, name, back, left, rfl, read, fun back' e' r read' => ?_⟩
    have first' : startsQuery (front ++ .word name (some .WHERE) :: back').head? := by
      cases front with
      | nil => cases first
      | cons u front => exact first
    exact .here first' (again back' e' r read') none
  | semicolon _ ih =>
    obtain ⟨front, name, back, left, rfl, read, again⟩ := ih
    exact ⟨.mark .semicolon :: front, name, back, left, rfl, read, fun back' e' r read' =>
      (again back' e' r read').semicolon⟩

end LoneQuery

/-- All statements of some tokens. -/
def statements (s : ParserSettings) : Parser (List Statement) := do
  statementsIn s ((← get).length + 1) true

/-- A text of one query, and the same with another filter in it and maybe a
higher limit. -/
theorem statements_slot {q : Query} (hf : q.filter? = some e) {limit d d' : Nat} (hd : d ≤ d')
    (hl : limit = d + q.filterLevels + 1) (hl' : s.recursionLimit = d' + q.filterLevels + 1) {n : Nat}
    (hn : ts.length < n)
    (h : statementsIn { s with recursionLimit := limit } n true ts = .ok ([.query q], rest)) :
    Slot (innerIn s d) (innerIn s d') e ts rest (statements s)
      fun e' => [.query (q.withFilter e')] := by
  obtain ⟨depth, deep, lone⟩ := LoneQuery.of_read hn h
  obtain rfl : depth = d + q.filterLevels := by omega
  obtain ⟨front, name, back, left, split, read, again⟩ := lone.slot hf hd
  refine ⟨front, name, back, left, split, read, fun back' e' r read' => ?_⟩
  rw [statements, get_bind_apply]
  exact (again back' e' r read').read (by omega) (Nat.lt_succ_self _)

end DetectionPlan.Sql.Parser
