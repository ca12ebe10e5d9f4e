/-
Texts of queries that turn into others. There is a text of a query that turns out of one that
was read, so it is read from the text that it is written as.
-/
import DetectionPlan.Proofs.Sql.Filter
import DetectionPlan.Proofs.Sql.Swap.Operand

namespace DetectionPlan.Sql

variable {s : ParserSettings} {R : Call → Option Expr → Prop} {text : String} {q q' : Query} {l m : Nat}

/-- The tokens of texts. -/
def IsSpelled (s : ParserSettings) (t : Token) : Prop := Lexer.Spellable s t ∧ Lexer.KeywordSpelled t

theorem isSpelled_of_scan {ts : List Token} (h : Lexer.scan s text = .ok ts) : ∀ t ∈ ts, IsSpelled s t :=
  fun t ht => ⟨Lexer.forall_tokens Lexer.spellable_of_next h t ht, Lexer.forall_tokens Lexer.next_keywordSpelled h t ht⟩

theorem scan_limit (text : String) : Lexer.scan { s with recursionLimit := l } text = Lexer.scan s text :=
  Lexer.scanIn_limit ..

namespace Parser

namespace LoneQuery

variable {d n : Nat} {ts rest : List Token}

/-- Behind a statement nothing goes on with a name or a call. -/
theorem quiet (none : statementsIn s (ts.length + 1) false ts = .ok ([], rest)) (mark : Mark)
    (first : ts.head? = some (.mark mark)) : mark.goesOn = false := by
  obtain ⟨more, rfl⟩ := List.head?_eq_some_iff.mp first
  by_cases semicolon : mark = .semicolon
  · exact semicolon ▸ rfl
  · rw [statementsIn_unparted (by simpa using semicolon)] at none
    cases none

theorem turns (h : LoneQuery s d q rest ts) (follows : (innerIn s d).Follows s (IsSpelled s) R (innerIn s (d + m)))
    (known : ∀ t ∈ ts, IsSpelled s t) (turns : q.Turns R q') :
    ∃ ts', (∀ t ∈ ts', IsSpelled s t) ∧ LoneQuery s (d + m) q' rest ts' := by
  induction h with
  | semicolon _ ih => exact ih fun t ht => known t (List.mem_cons_of_mem _ ht)
  | here first read none =>
    obtain ⟨known', -⟩ := follows.query read known
    obtain ⟨ts', alike, again⟩ := follows.query.read read known turns ⟨.refl known', quiet none⟩
    exact ⟨ts', alike.known, .here (alike.first ▸ first) again none⟩

end LoneQuery

end Parser

/-- What an expression that is read from a text may stand as. -/
theorem fits_of_parseExpr {e : Expr} {d : Nat} (read : { s with recursionLimit := m }.parseExpr text = .ok e)
    (placeable : e.Placeable s) (le : m ≤ d) :
    Parser.Fits s (IsSpelled s) (Parser.innerIn s d) (if e.isOperand then e else .nested e) := by
  obtain ⟨ts, scanned, read⟩ := Outcome.bind_ok_iff.mp read
  rw [scan_limit] at scanned
  have known := isSpelled_of_scan scanned
  have mark {c : Char} {m : Mark} (hc : Lexer.standsAlone c) (hm : Lexer.mark? c = some m) : IsSpelled s (.mark m) :=
    ⟨Lexer.spellable_mark hc hm, nofun⟩
  obtain ⟨⟨e', left⟩, inside, read⟩ := Outcome.bind_ok_iff.mp read
  cases left with
  | cons t left => cases read
  | nil =>
    obtain rfl := Except.ok.inj read
    have same : Parser.innerIn { s with recursionLimit := m } m = Parser.innerIn s m := Parser.innerIn_limit s m m
    exact Parser.fits_of_read (fun t ht => (known t ht).2) (same ▸ inside) placeable known (mark (c := '(') rfl rfl)
      (mark (c := ')') rfl rfl) le

theorem parseStatement_query_iff : s.parseStatement text = .ok (.query q) ↔ ∃ ts rest, Lexer.scan s text = .ok ts ∧
    Parser.statementsIn s (ts.length + 1) true ts = .ok ([.query q], rest) :=
  ParserSettings.parseStatement_ok_iff.trans ParserSettings.parseStatements_ok_iff

/-- A query that is read is read with a higher limit. -/
theorem parseStatement_deeper (le : l ≤ s.recursionLimit)
    (read : { s with recursionLimit := l }.parseStatement text = .ok (.query q)) :
    s.parseStatement text = .ok (.query q) := by
  obtain ⟨ts, rest, scanned, read⟩ := parseStatement_query_iff.mp read
  obtain ⟨d, rfl, lone⟩ := Parser.LoneQuery.of_read (Nat.lt_succ_self _) read
  exact parseStatement_query_iff.mpr ⟨ts, rest, (scan_limit text).symm.trans scanned, lone.read le (Nat.lt_succ_self _)⟩

/-- A query that turns into another is read from some text, and so is the other. -/
theorem parseStatement_turns (room : l + m ≤ s.recursionLimit)
    (read : { s with recursionLimit := l }.parseStatement text = .ok (.query q)) (turns : q.Turns R q')
    (expansions : ∀ c e, R c (some e) → ∃ text e', { s with recursionLimit := m }.parseExpr text = .ok e' ∧
      e'.Placeable s ∧ e = if e'.isOperand then e' else .nested e') :
    ∃ text', s.parseStatement text' = .ok (.query q') := by
  obtain ⟨ts, rest, scanned, read⟩ := parseStatement_query_iff.mp read
  rw [scan_limit] at scanned
  have results (c : Call) (e : Expr) (hc : R c (some e)) : e.isResult := by
    obtain ⟨_, e', -, placeable, rfl⟩ := expansions c e hc
    split
    · exact placeable.result ‹_›
    · rfl
  have fits (c : Call) (e : Expr) (hc : R c (some e)) (d : Nat) (le : m ≤ d) :
      Parser.Fits s (IsSpelled s) (Parser.innerIn s d) e := by
    obtain ⟨_, e', read, placeable, rfl⟩ := expansions c e hc
    exact fits_of_parseExpr read placeable le
  obtain ⟨d, rfl, lone⟩ := Parser.LoneQuery.of_read (Nat.lt_succ_self _) read
  have follows := Parser.innerIn_follows results (fun t ht => ht.2) fits d
  obtain ⟨ts', known, lone'⟩ := lone.turns follows (isSpelled_of_scan scanned) turns
  obtain ⟨text', scanned'⟩ := Lexer.exists_text fun t ht => (known t ht).1
  exact ⟨text', parseStatement_query_iff.mpr ⟨ts', rest, scanned', lone'.read (by omega) (Nat.lt_succ_self _)⟩⟩

end DetectionPlan.Sql
