/-
String literals that are written and read again. Reading takes a doubled quote for one,
so a value comes back if each of its quotes is doubled. Writing leaves a quote single
behind a backslash, and takes two quotes for one that is doubled already: a value comes
back exactly if it has neither (`conjunct_scans_iff`).
-/
import DetectionPlan.Proofs.Sql.Arithmetic
import DetectionPlan.Proofs.Sql.Filtered
import DetectionPlan.Sql.Printer
import DetectionPlan.Text.Doubling

namespace DetectionPlan.Sql

variable {q c previous : Char} {cs w w' : List Char}

/-! ## Quotes that are read -/

namespace Lexer

/-- A text is read up to a quote as the text whose quotes were doubled. -/
theorem eq_of_untilQuote : ∀ {cs text w : List Char}, untilQuote true false q cs = some (text, w) →
    cs = doubleChar q text ++ q :: w ∧ w.head? ≠ some q
  | [], _, _, h => by cases h
  | [c], text, w, h => by
    rw [untilQuote] at h
    split at h
    next close =>
      obtain ⟨rfl, rfl⟩ := Prod.mk.inj (Option.some.inj h)
      rw [eq_of_beq close]
      exact ⟨rfl, by simp⟩
    · cases h
  | c :: d :: rest, text, w, h => by
    rw [untilQuote] at h
    simp only [Bool.false_and, Bool.false_eq_true, if_false, if_true] at h
    split at h
    next open_ =>
      obtain rfl : q = c := (eq_of_beq open_).symm
      split at h
      next doubled =>
        obtain rfl : q = d := (eq_of_beq doubled).symm
        obtain ⟨⟨more, w⟩, read, made⟩ := Option.map_eq_some_iff.mp h
        obtain ⟨rfl, rfl⟩ := Prod.mk.inj made
        obtain ⟨rfl, ends⟩ := eq_of_untilQuote read
        exact ⟨by simp [doubleChar_cons_self], ends⟩
      next other =>
        obtain ⟨rfl, rfl⟩ := Prod.mk.inj (Option.some.inj h)
        exact ⟨rfl, by simpa using other⟩
    next other =>
      obtain ⟨⟨more, w⟩, read, made⟩ := Option.map_eq_some_iff.mp h
      obtain ⟨rfl, rfl⟩ := Prod.mk.inj made
      obtain ⟨split, ends⟩ := eq_of_untilQuote read
      have other : c ≠ q := by simpa using other
      exact ⟨by simp [doubleChar_cons_ne other, split], ends⟩

theorem untilQuote_doubleChar (hw : w.head? ≠ some q) (text : List Char) :
    untilQuote true false q (doubleChar q text ++ q :: w) = some (text, w) := by
  induction text with
  | nil => exact untilQuote_ends hw
  | cons c text ih =>
    by_cases hc : c = q
    · rw [hc, doubleChar_cons_self, List.cons_append, List.cons_append, untilQuote]
      simp [ih]
    · have open_ : (c == q) = false := by simpa using hc
      rw [doubleChar_cons_ne hc]
      obtain ⟨d, rest, hd⟩ : ∃ d rest, doubleChar q text ++ q :: w = d :: rest := by
        cases doubleChar q text <;> exact ⟨_, _, rfl⟩
      rw [hd] at ih
      rw [List.cons_append, hd, untilQuote]
      simp [open_, ih]

end Lexer

/-! ## Quotes that are written -/

/-- No quote stands behind a backslash or behind another quote. -/
def QuotesApart (q : Char) (cs : List Char) : Prop := ¬ ['\\', q] <:+: cs ∧ ¬ [q, q] <:+: cs

instance (q : Char) (cs : List Char) : Decidable (QuotesApart q cs) := inferInstanceAs (Decidable (_ ∧ _))

theorem pair_infix_cons_iff {a b : Char} :
    [a, b] <:+: c :: cs ↔ a = c ∧ cs.head? = some b ∨ [a, b] <:+: cs := by
  rw [List.infix_cons_iff, List.cons_prefix_cons]
  cases cs with
  | nil => simp
  | cons d rest => simp [eq_comm]

theorem quotesApart_cons : QuotesApart q (c :: cs) ↔
    (c = '\\' ∨ c = q → cs.head? ≠ some q) ∧ QuotesApart q cs := by
  simp only [QuotesApart, pair_infix_cons_iff]
  tauto

theorem escapeQuotes_other (h : c ≠ q) : escapeQuotes q previous (c :: cs) = c :: escapeQuotes q c cs := by
  cases cs <;> simp [escapeQuotes, h]

theorem escapeQuotes_slash : escapeQuotes q '\\' (q :: cs) = q :: escapeQuotes q '\\' cs := by
  cases cs <;> simp [escapeQuotes]

theorem escapeQuotes_pair (h : previous ≠ '\\') :
    escapeQuotes q previous (q :: q :: cs) = q :: q :: escapeQuotes q q cs := by
  simp [escapeQuotes, h]

theorem escapeQuotes_single (h : previous ≠ '\\') (hc : cs.head? ≠ some q) :
    escapeQuotes q previous (q :: cs) = q :: q :: escapeQuotes q q cs := by
  cases cs with
  | nil => simp [escapeQuotes, h]
  | cons d rest =>
    have other : d ≠ q := by simpa using hc
    simp [escapeQuotes, h, other]

/-- The cases of writing a text: another character, a quote behind a backslash, two
quotes, and one quote. -/
theorem escapeQuotes_cases {P : Char → List Char → Prop} (nil : ∀ p, P p [])
    (other : ∀ p c cs, c ≠ q → P c cs → P p (c :: cs)) (slash : ∀ cs, P '\\' cs → P '\\' (q :: cs))
    (pair : ∀ p cs, p ≠ '\\' → P q cs → P p (q :: q :: cs))
    (single : ∀ p cs, p ≠ '\\' → cs.head? ≠ some q → P q cs → P p (q :: cs)) : ∀ p cs, P p cs
  | p, [] => nil p
  | p, c :: cs => by
    have more (p' : Char) := escapeQuotes_cases nil other slash pair single p' cs
    by_cases hc : c = q
    · obtain rfl : q = c := hc.symm
      by_cases hp : p = '\\'
      · exact hp ▸ slash cs (more _)
      · match cs with
        | [] => exact single p [] hp nofun (more _)
        | d :: rest =>
          by_cases hd : d = q
          · exact hd ▸ pair p rest hp (escapeQuotes_cases nil other slash pair single q rest)
          · exact single p _ hp (by simpa using hd) (more _)
    · exact other p c cs hc (more _)

/-- What is written has no quote too many. -/
theorem escapeQuotes_ne (hw : w.head? ≠ some q) (w' : List Char) (previous : Char) (cs : List Char) :
    ∀ n : Nat, escapeQuotes q previous cs ++ q :: w ≠
      List.replicate (n + 1) q ++ (doubleChar q cs ++ q :: w') := by
  have shift (n : Nat) (rest : List Char) : List.replicate (n + 1) q ++ q :: rest =
      q :: (List.replicate (n + 1) q ++ rest) := by
    rw [List.append_cons, ← List.replicate_succ', List.replicate_succ, List.cons_append]
  induction previous, cs using escapeQuotes_cases (q := q) with
  | nil p =>
    intro n h
    rw [doubleChar, List.flatMap_nil, List.nil_append, shift] at h
    rw [(List.cons.inj h).2] at hw
    exact hw rfl
  | other p c cs hc ih =>
    intro n h
    rw [escapeQuotes_other hc] at h
    exact hc (List.cons.inj h).1
  | slash cs ih =>
    intro n h
    rw [escapeQuotes_slash, doubleChar_cons_self, List.cons_append, List.cons_append, List.cons_append, shift,
      shift] at h
    exact ih (n + 1) (by rw [List.replicate_succ]; exact (List.cons.inj h).2)
  | pair p cs hp ih =>
    intro n h
    rw [escapeQuotes_pair hp, doubleChar_cons_self, doubleChar_cons_self] at h
    simp only [List.cons_append, shift] at h
    exact ih (n + 2) (by simpa [List.replicate_succ] using h)
  | single p cs hp hc ih =>
    intro n h
    rw [escapeQuotes_single hp hc, doubleChar_cons_self] at h
    simp only [List.cons_append, shift] at h
    exact ih n (by simpa using h)

/-- What is written up to a quote is a text whose quotes are doubled, exactly if no quote
stands behind a backslash or another quote. -/
theorem escapeQuotes_iff (hw : w.head? ≠ some q) (previous : Char) (cs : List Char) :
    escapeQuotes q previous cs ++ q :: w = doubleChar q cs ++ q :: w' ↔
      (previous = '\\' → cs.head? ≠ some q) ∧ QuotesApart q cs ∧ w = w' := by
  induction previous, cs using escapeQuotes_cases (q := q) with
  | nil p => simp [escapeQuotes, doubleChar, QuotesApart]
  | other p c cs hc ih =>
    rw [escapeQuotes_other hc, doubleChar_cons_ne hc, quotesApart_cons]
    simp [ih, hc, and_assoc]
  | slash cs ih =>
    have short := escapeQuotes_ne hw w' '\\' cs 0
    rw [escapeQuotes_slash, doubleChar_cons_self]
    simpa using short
  | pair p cs hp ih =>
    have short := escapeQuotes_ne hw w' q cs 1
    rw [escapeQuotes_pair hp, doubleChar_cons_self, doubleChar_cons_self, quotesApart_cons]
    simpa [List.replicate_succ] using short
  | single p cs hp hc ih =>
    rw [escapeQuotes_single hp hc, doubleChar_cons_self, quotesApart_cons]
    simp [ih, hc, hp]

/-! ## Conditions that are written and read -/

/-- A backslash between quotes is a character like any other, and two quotes are read as
one. -/
structure ParserSettings.PlainStrings (s : ParserSettings) : Prop where
  unescape : s.unescape
  noBackslash : s.grammar.hasBackslashEscapes = false
  noTriple : s.grammar.hasTripleQuotes = false

variable {s : ParserSettings} {ts : List Token} {p : Predicate} {condition : Expr}

namespace Lexer

theorem next_quote (h : s.PlainStrings) (cs : List Char) :
    next s '\x27' cs = quoted (.string .single) (untilQuote true false '\x27' cs) := by
  rw [← h.unescape, ← h.noBackslash]
  rw [next_eq, nextPlain, string, h.noTriple]
  rfl

/-- Text between quotes, with its own quotes doubled, is one string. -/
theorem tokensOf_doubled (h : s.PlainStrings) (value : String) (hw : w.head? ≠ some '\x27') :
    tokensOf s ('\x27' :: (doubleChar '\x27' value.toList ++ '\x27' :: w)) =
      .ok (.string .single value :: ts) ↔ tokensOf s w = .ok ts := by
  refine tokensOf_of_next ?_
  rw [next_quote h, untilQuote_doubleChar hw, quoted, String.ofList_toList]

/-- A value that is written is read as it is, and nothing but it. -/
theorem tokensOf_value (h : s.PlainStrings) (v : String) (hw : w.head? ≠ some '\x27') :
    tokensOf s ((Predicate.valueExpr v).text.toList ++ w) = .ok (Predicate.valueToken v :: ts) ↔
      QuotesApart '\x27' v.toList ∧ tokensOf s w = .ok ts := by
  let body := escapeQuotes '\x27' ' ' v.toList ++ '\x27' :: w
  have text : (Predicate.valueExpr v).text.toList ++ w = '\x27' :: body := by
    simp [Predicate.valueExpr, Expr.text, Literal.text, betweenQuotes, body]
  rw [text]
  constructor
  · intro read
    obtain ⟨t, rest, ts', hn, ht, split⟩ := tokensOf_cons_ok read
    rw [next_quote h] at hn
    obtain ⟨found, hf, rfl⟩ := quoted_ok hn
    obtain ⟨same, rfl⟩ := List.cons.inj split
    obtain rfl : v = String.ofList found := (Token.string.inj same).2
    obtain ⟨whole, -⟩ := eq_of_untilQuote hf
    rw [← String.toList_ofList (l := found)] at whole
    obtain ⟨-, apart, rfl⟩ := (escapeQuotes_iff hw ' ' _).mp whole
    exact ⟨apart, ht⟩
  · rintro ⟨apart, ht⟩
    have whole : body = doubleChar '\x27' v.toList ++ '\x27' :: w :=
      (escapeQuotes_iff hw ' ' _).mpr ⟨fun e => absurd e (by decide), apart, rfl⟩
    rw [whole]
    exact (tokensOf_doubled h v hw).mpr ht

theorem tokensOf_values (h : s.PlainStrings) (hw : w.head? ≠ some '\x27') : ∀ {values : List String},
    values ≠ [] →
      (tokensOf s ((commas (exprTexts (values.map Predicate.valueExpr))).toList ++ w) =
          .ok (Predicate.listTokens values ++ ts) ↔
        (∀ v ∈ values, QuotesApart '\x27' v.toList) ∧ tokensOf s w = .ok ts)
  | [v], _ => by
    have text : commas (exprTexts [Predicate.valueExpr v]) = (Predicate.valueExpr v).text := by
      simp [commas, exprTexts]
    rw [List.map_singleton, text]
    simpa [Predicate.listTokens] using tokensOf_value h v hw
  | v :: u :: values, _ => by
    let more := (commas (exprTexts ((u :: values).map Predicate.valueExpr))).toList ++ w
    have text : (commas (exprTexts ((v :: u :: values).map Predicate.valueExpr))).toList ++ w =
        (Predicate.valueExpr v).text.toList ++ ',' :: ' ' :: more := by
      simp [commas, exprTexts, more]
    have tail := tokensOf_values h hw (List.cons_ne_nil u values)
    rw [text, Predicate.listTokens, List.cons_append, List.cons_append, tokensOf_value h v (by simp),
      tokensOf_mark (c := ',') rfl rfl, tail]
    simp [and_assoc]

/-- The text of a condition is cut into the tokens of its predicate. -/
theorem tokensOf_condition (h : s.PlainStrings) (bare : p.dataset = none)
    (plain : s.grammar.isPlainName p.column) (made : p.expr = .ok condition) (hw : w.head? ≠ some '\x27') :
    tokensOf s (condition.text.toList ++ w) = .ok (p.tokens ++ ts) ↔
      (∀ v ∈ p.values, QuotesApart '\x27' v.toList) ∧ tokensOf s w = .ok ts := by
  have column : p.columnExpr.text = p.column := by
    simp [Predicate.columnExpr, bare, Expr.text, nameText, Ident.quoted]
  have tokens : p.columnTokens = [.ofWord p.column] := by rw [Predicate.columnTokens, bare]
  unfold Predicate.tokens
  rw [tokens]
  unfold Predicate.expr Predicate.comparison at made
  split at made
  next op =>
    split at made
    next v hv =>
      obtain rfl := Except.ok.inj made
      have text : (Expr.binary p.columnExpr .eq (Predicate.valueExpr v)).text.toList ++ w =
          p.column.toList ++ ' ' :: '=' :: ' ' :: ((Predicate.valueExpr v).text.toList ++ w) := by
        simp [Expr.text, column, BinaryOp.text]
      rw [text, op, hv]
      refine (tokensOf_name plain rfl).trans (tokensOf_blank.trans ((tokensOf_mark rfl rfl).trans ?_))
      simpa using tokensOf_value h v hw
    · cases made
  next op =>
    split at made
    next v hv =>
      obtain rfl := Except.ok.inj made
      have text : (Expr.binary p.columnExpr .notEq (Predicate.valueExpr v)).text.toList ++ w =
          p.column.toList ++ ' ' :: '<' :: '>' :: ' ' :: ((Predicate.valueExpr v).text.toList ++ w) := by
        simp [Expr.text, column, BinaryOp.text]
      rw [text, op, hv]
      refine (tokensOf_name plain rfl).trans (tokensOf_blank.trans ((tokensOf_longMark rfl rfl).trans ?_))
      simpa using tokensOf_blank.trans (tokensOf_value h v hw)
    · cases made
  next op =>
    split at made
    · cases made
    next given =>
      obtain rfl := Except.ok.inj made
      let list := (commas (exprTexts (p.values.map Predicate.valueExpr))).toList ++ ')' :: w
      have text : (Expr.inList p.columnExpr false (p.values.map Predicate.valueExpr)).text.toList ++ w =
          p.column.toList ++ ' ' :: ("IN".toList ++ ' ' :: '(' :: list) := by
        simp [Expr.text, column, word, list]
      have values : tokensOf s list = .ok (Predicate.listTokens p.values ++ .mark .rightParen :: ts) ↔
          (∀ v ∈ p.values, QuotesApart '\x27' v.toList) ∧ tokensOf s w = .ok ts := by
        rw [tokensOf_values h (by simp) (by simpa using given), tokensOf_close]
      rw [text, op]
      simp only [List.cons_append, List.nil_append, List.append_assoc]
      refine (tokensOf_name plain rfl).trans (tokensOf_blank.trans ?_)
      exact (tokensOf_name (isPlainName_of_isCapitals _ rfl) rfl).trans (tokensOf_blank.trans (tokensOf_open.trans values))
  · cases made

end Lexer

open Lexer DetectionPlan.Sql.Parser

/-- A condition between parentheses is read as one operand. -/
theorem conjunct_read {d : Nat} (made : p.expr = .ok condition) (name : startsName s.grammar p.firstWord) :
    (innerIn s (d + 3)).expr 0 (.mark .leftParen :: (p.tokens ++ [.mark .rightParen])) =
      .ok (.nested condition, []) := by
  obtain ⟨more, first, noSelect, noWith⟩ := condition_first name
  have inside : (innerIn s (d + 2)).expr 0 (p.tokens ++ [.mark .rightParen]) =
      .ok (condition, [.mark .rightParen]) := condition_read made name
  rw [innerIn_expr_succ]
  refine expression_of_operand (nested_read (by simp) ?_ ?_ inside) (Nat.le_refl 0)
  · rw [first]
    exact noSelect
  · rw [first]
    exact noWith

/-- A value whose quote behind a backslash ends its literal, and lets every row through. -/
def breakout : Predicate := .equals "c" "\\') OR (1 = 1) -- "

end DetectionPlan.Sql
