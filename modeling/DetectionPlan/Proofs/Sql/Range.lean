/-
Names of columns, plain or between quotes, qualified or not, and the condition that a column lies
within a range of integers: its text, its tokens, how it is read and what it means.
-/
import DetectionPlan.Proofs.Sql.Arithmetic
import DetectionPlan.Proofs.Sql.Filtered
import DetectionPlan.Proofs.Sql.Literal

namespace DetectionPlan.Sql

/-! ## Names -/

/-- Names that are read as a column wherever an expression starts: a plain name, or any
text between quotes that are not part of it. -/
inductive Ident.IsColumn (g : Grammar) : Ident → Prop where
  | plain {word : String} (h : Sql.IsColumn g word) : Ident.IsColumn g ⟨word, none⟩
  | quoted {word : String} {quote : Char} (h : g.isNameQuote quote)
      (shut : Lexer.closing quote ∉ word.toList) : Ident.IsColumn g ⟨word, some quote⟩

/-- Names that are read as a part of a qualified name. Behind a point no word is a keyword. -/
inductive Ident.IsPart (g : Grammar) : Ident → Prop where
  | plain {word : String} (h : g.isPlainName word) : Ident.IsPart g ⟨word, none⟩
  | quoted {word : String} {quote : Char} (h : g.isNameQuote quote)
      (shut : Lexer.closing quote ∉ word.toList) : Ident.IsPart g ⟨word, some quote⟩

theorem Ident.IsColumn.isPart {g : Grammar} {i : Ident} (h : i.IsColumn g) : i.IsPart g := by
  cases h with
  | plain h => exact .plain h.plain
  | quoted h shut => exact .quoted h shut

/-- The token of a name. Between quotes no word is a keyword. -/
def Ident.token (i : Ident) : Token :=
  match i.quote with
  | none => .ofWord i.text
  | some _ => .word i none

/-- The tokens of a qualified name. -/
def nameTokens : List Ident → List Token
  | [] => []
  | first :: parts => first.token :: parts.flatMap fun i => [.mark .period, i.token]

namespace Lexer

variable {s : ParserSettings} {w : List Char} {ts : List Token}

theorem escapeQuotes_plain {q : Char} {cs : List Char} (h : q ∉ cs) (previous : Char) :
    escapeQuotes q previous cs = cs := by
  induction cs generalizing previous with
  | nil => rfl
  | cons c cs ih =>
    have other : c ≠ q := fun same => h (same ▸ List.mem_cons_self)
    rw [escapeQuotes_other other, ih fun again => h (List.mem_cons_of_mem c again)]

/-- A name between quotes is written as it is. -/
theorem toList_quoted {g : Grammar} {word : String} {q : Char} (h : g.isNameQuote q)
    (shut : closing q ∉ word.toList) :
    (Ident.quoted ⟨word, some q⟩).toList = q :: (word.toList ++ [closing q]) := by
  by_cases bracket : q = '['
  · subst bracket
    simp [Ident.quoted, closing, String.toList_append]
  · have same : closing q = q := by simp [closing, bracket]
    rw [same] at shut ⊢
    have written : Ident.quoted ⟨word, some q⟩ = betweenQuotes q word := by
      unfold Ident.quoted
      split
      next none => cases none
      next quote => exact absurd (Option.some.inj quote) bracket
      next q' _ quote => rw [Option.some.inj quote]
    rw [written, betweenQuotes, String.toList_ofList, escapeQuotes_plain shut]

theorem next_of_nameQuote {q : Char} (h : s.grammar.isNameQuote q) (cs : List Char) :
    next s q cs = quoted (fun name => .word ⟨name, some q⟩ none)
      (untilQuote s.unescape false (closing q) cs) := by
  have literal : next s q cs = nextPlain s q cs := by
    rcases isNameQuote_cases h with rfl | rfl | rfl <;> rfl
  have noText : (q == '\x27' || (q == '"' && !s.grammar.isNameQuote q)) = false := by
    rw [h]
    rcases isNameQuote_cases h with rfl | rfl | rfl <;> rfl
  rw [literal, nextPlain, noText, h]
  rfl

theorem tokensOf_ident {i : Ident} (h : i.IsPart s.grammar) (stop : w.head?.all endsName) :
    tokensOf s (i.quoted.toList ++ w) = .ok (i.token :: ts) ↔ tokensOf s w = .ok ts := by
  cases h with
  | plain h => exact tokensOf_name h stop
  | @quoted word q h shut =>
    have ends : w.head? ≠ some (closing q) := by
      intro again
      rw [again] at stop
      rcases isNameQuote_cases h with rfl | rfl | rfl <;> exact absurd stop (by decide)
    have read : untilQuote s.unescape false (closing q) (word.toList ++ closing q :: w) =
        some (word.toList, w) := untilQuote_plain shut nofun ends
    rw [toList_quoted h shut, List.cons_append, List.append_assoc, List.singleton_append]
    refine tokensOf_of_next ?_
    rw [next_of_nameQuote h, read]
    simp [quoted, Ident.token]

end Lexer

namespace Parser

variable {s : ParserSettings} {inner : Inner} {rest : List Token}

theorem partOf?_token (i : Ident) : partOf? i.token = some i := by
  obtain ⟨text, _ | quote⟩ := i <;> rfl

/-- A qualified name is read up to what follows it. -/
theorem name_read {first : Ident} (parts : List Ident) (h : first.IsColumn s.grammar)
    (point : rest.head? ≠ some (.mark .period)) (paren : rest.head? ≠ some (.mark .leftParen)) :
    operand s inner (nameTokens (first :: parts) ++ rest) = .ok (.name (first :: parts), rest) := by
  let tail : List Token := (parts.flatMap fun i => [.mark .period, i.token]) ++ rest
  have tail_read (star : Bool) : nameTail star tail = .ok ((parts, false), rest) := by
    induction parts with
    | nil => exact nameTail_other star point
    | cons i parts ih =>
      have cut : tail = .mark .period :: i.token :: ((parts.flatMap fun i => [.mark .period, i.token]) ++ rest) := by
        simp [tail]
      rw [cut, nameTail_point, partOf?_token]
      simp only [ih]
      rfl
  have ends : nameEnd s inner first (parts, false) rest = .ok (.name (first :: parts), rest) :=
    bind_of_ok (skipMark_other paren)
  have whole : nameOrCall s inner first tail = .ok (.name (first :: parts), rest) :=
    (bind_of_ok (tail_read _)).trans ends
  rw [nameTokens, List.cons_append]
  cases h with
  | plain h => rw [Ident.token, operand_of_startsName h.first, whole]
  | quoted h shut => exact (bind_of_ok (take_cons _)).trans whole

theorem ident_read {i : Ident} (h : i.IsColumn s.grammar) (point : rest.head? ≠ some (.mark .period))
    (paren : rest.head? ≠ some (.mark .leftParen)) :
    operand s inner (i.token :: rest) = .ok (.name [i], rest) :=
  name_read [] h point paren

/-- The name of a column starts no query between parentheses. -/
theorem wordOf?_token {i : Ident} {g : Grammar} (h : i.IsColumn g) {k : Keyword}
    (hk : k = .SELECT ∨ k = .WITH) : wordOf? (some i.token) ≠ some k := by
  cases h with
  | quoted => exact nofun
  | @plain word h =>
    intro keyword
    have found : Keyword.ofWord? word = some k := keyword
    have named : k.isName g := by simpa [startsName, found] using h.first
    obtain ⟨noSelect, noWith⟩ := isName_ne_query named
    rcases hk with rfl | rfl
    · exact noSelect rfl
    · exact noWith rfl

end Parser

/-! ## Texts that are cut into tokens and read -/

namespace ParserSettings

variable {s : ParserSettings} {text : String} {ts : List Token} {e : Expr} {d : Nat}

/-- A text whose tokens are cut and read whatever follows is read when nothing does. -/
theorem parseExpr_of_cut (limit : s.recursionLimit = d)
    (cut : Lexer.tokensOf s (text.toList ++ []) = .ok (ts ++ []))
    (read : (Parser.innerIn s d).expr 0 (ts ++ []) = .ok (e, [])) : s.parseExpr text = .ok e := by
  rw [List.append_nil] at cut read
  rw [List.append_nil] at cut
  exact parseExpr_of_tokens limit ((Lexer.scan_eq _).trans cut) read

/-- The same between parentheses. -/
theorem parseExpr_nested_of_cut {t : Token} (limit : s.recursionLimit = d + 1)
    (cut : Lexer.tokensOf s (e.text.toList ++ [')']) = .ok (t :: (ts ++ [.mark .rightParen])))
    (noSelect : Parser.wordOf? (some t) ≠ some .SELECT) (noWith : Parser.wordOf? (some t) ≠ some .WITH)
    (read : (Parser.innerIn s d).expr 0 (t :: (ts ++ [.mark .rightParen])) = .ok (e, [.mark .rightParen])) :
    s.parseExpr (Expr.nested e).text = .ok (.nested e) := by
  have text : (Expr.nested e).text.toList = '(' :: (e.text.toList ++ [')']) := by
    simp [Expr.text, String.toList_append]
  have scanned : Lexer.scan s (Expr.nested e).text = .ok (.mark .leftParen :: t :: (ts ++ [.mark .rightParen])) := by
    rw [Lexer.scan_eq, text, Lexer.tokensOf_open, cut]
  refine parseExpr_of_tokens limit scanned ?_
  rw [Parser.innerIn_expr_succ]
  exact Parser.expression_of_operand (Parser.nested_read (by simp) noSelect noWith read) le_rfl

end ParserSettings

/-! ## Ranges -/

namespace Ident

/-- The condition that a column is no less than one integer and less than another. -/
def within (i : Ident) (low high : Int) : Expr :=
  .binary (.binary (.name [i]) .gtEq (intExpr low)) .and (.binary (.name [i]) .lt (intExpr high))

def withinTokens (i : Ident) (low high : Int) : List Token :=
  i.token :: .mark .gtEq :: (Lexer.intTokens low ++ .word ⟨"AND", none⟩ (some .AND) ::
    i.token :: .mark .lt :: Lexer.intTokens high)

end Ident

theorem text_intExpr (n : Int) : (intExpr n).text = toString n := by
  have digits (m : Nat) : (natExpr m).text = toString m := by
    simp [natExpr, Expr.text, Literal.text]
  cases n with
  | ofNat m =>
    rw [intExpr, if_neg (by simp), digits]
    rfl
  | negSucc m =>
    rw [intExpr, if_pos (Int.negSucc_lt_zero m), Expr.text, digits]
    rfl

theorem text_within (i : Ident) (low high : Int) : (i.within low high).text =
    i.quoted ++ " >= " ++ toString low ++ " AND " ++ i.quoted ++ " < " ++ toString high := by
  simp [Ident.within, Expr.text, text_intExpr, nameText, BinaryOp.text, String.append_assoc]

variable {s : ParserSettings} {i : Ident}

namespace Lexer

theorem tokensOf_within (h : i.IsColumn s.grammar) (low high : Int) {w : List Char} {ts : List Token}
    (stop : w.head?.all isBreak) :
    tokensOf s ((i.within low high).text.toList ++ w) = .ok (i.withinTokens low high ++ ts) ↔
      tokensOf s w = .ok ts := by
  have text : (i.within low high).text.toList ++ w = i.quoted.toList ++ ' ' :: '>' :: '=' :: ' ' ::
      ((toString low).toList ++ ' ' :: ("AND".toList ++ ' ' :: (i.quoted.toList ++ ' ' :: '<' :: ' ' ::
        ((toString high).toList ++ w)))) := by
    simp [text_within, String.toList_append]
  rw [text, Ident.withinTokens, ← ofWord_and]
  simp only [List.cons_append, List.append_assoc]
  rw [tokensOf_ident h.isPart rfl, tokensOf_blank, tokensOf_longMark rfl rfl, tokensOf_blank, tokensOf_int low rfl,
    tokensOf_blank, tokensOf_name (isPlainName_of_isCapitals _ rfl) rfl, tokensOf_blank, tokensOf_ident h.isPart rfl,
    tokensOf_blank, tokensOf_mark rfl rfl, tokensOf_int high stop]

end Lexer

namespace Parser

variable {rest : List Token} {power d : Nat}

/-- A column compared with an integer is read before what binds no tighter than `power`. -/
theorem comparison_read {m : Mark} {op : BinaryOp} (h : i.IsColumn s.grammar)
    (found : markOp? m = some (op, 20)) (n : Int) (stops : nextPower rest ≤ power) (low : power < 20) :
    (innerIn s (d + 3)).expr power (i.token :: .mark m :: (Lexer.intTokens n ++ rest)) =
      .ok (.binary (.name [i]) op (intExpr n), rest) := by
  have mark (k : Mark) (hk : markOp? k = none) : (Token.mark m : Token) ≠ .mark k := by
    rintro ⟨⟩
    rw [hk] at found
    cases found
  have binds : power < nextPower (.mark m :: (Lexer.intTokens n ++ rest)) := by
    cases m <;> cases found <;> exact low
  have value := int_read (s := s) (d := d) n (Nat.le_trans stops (Nat.le_of_lt low)) (by decide)
  rw [innerIn_expr_succ, expression,
    bind_of_ok (ident_read h (by simpa using mark .period rfl) (by simpa using mark .leftParen rfl)),
    get_bind_apply, operatorsIn_step (innerIn_local s (Nat.le_refl _)) (Nat.le_refl _) binds
      (markOp_read found value)]
  exact operatorsIn_stops stops

/-- The tokens of the condition are read as the condition. -/
theorem within_read (h : i.IsColumn s.grammar) (low high : Int) (stops : nextPower rest = 0) :
    (innerIn s (d + 4)).expr 0 (i.withinTokens low high ++ rest) = .ok (i.within low high, rest) := by
  let lastTokens : List Token := i.token :: .mark .lt :: (Lexer.intTokens high ++ rest)
  let andTokens : List Token := .word ⟨"AND", none⟩ (some .AND) :: lastTokens
  have last : (innerIn s (d + 3)).expr 10 lastTokens =
      .ok (.binary (.name [i]) .lt (intExpr high), rest) :=
    comparison_read h rfl high (Nat.le_trans (Nat.le_of_eq stops) (Nat.zero_le 10)) (by decide)
  have first : infixExpr s (innerIn s (d + 3)) (.name [i])
      (.mark .gtEq :: (Lexer.intTokens low ++ andTokens)) =
        .ok (.binary (.name [i]) .gtEq (intExpr low), andTokens) :=
    have stops : nextPower andTokens ≤ 20 := (by decide : 10 ≤ 20)
    markOp_read rfl (int_read low stops (by decide))
  have tokens : i.withinTokens low high ++ rest =
      i.token :: .mark .gtEq :: (Lexer.intTokens low ++ andTokens) := by
    simp [Ident.withinTokens, andTokens, lastTokens]
  have local_ := innerIn_local s (Nat.le_refl (d + 3))
  rw [innerIn_expr_succ, expression, tokens, bind_of_ok (ident_read h (by simp) (by simp)), get_bind_apply,
    operatorsIn_step local_ (Nat.le_refl _) (Nat.succ_pos 19) first,
    operatorsIn_step local_ (Nat.le_refl _) (Nat.succ_pos 9) (wordOp_read rfl last)]
  exact operatorsIn_stops (Nat.le_of_eq stops)

end Parser

/-- The text of the condition is read as the condition. -/
theorem parseExpr_within (h : i.IsColumn s.grammar) (room : 4 ≤ s.recursionLimit) (low high : Int) :
    s.parseExpr (i.within low high).text = .ok (i.within low high) := by
  obtain ⟨d, hd⟩ : ∃ d, s.recursionLimit = d + 4 := ⟨s.recursionLimit - 4, by omega⟩
  exact ParserSettings.parseExpr_of_cut hd ((Lexer.tokensOf_within h low high rfl).mpr rfl)
    (Parser.within_read h low high rfl)

/-- The condition holds of a value that is no less than the one integer and less than the other. -/
theorem truth_within {row : NumberRow} {value : Int} (there : row [i] = some (value : ℚ)) (low high : Int) :
    row.valuation.truth (i.within low high) = .true ↔ low ≤ value ∧ value < high := by
  have comparison (op : BinaryOp) (n : Int) :
      Expr.comparison row (.binary (.name [i]) op (intExpr n)) = op.compares value n := by
    simp [Expr.comparison, Expr.number?, there]
  have first : row.valuation.truth (.binary (.name [i]) .gtEq (intExpr low)) =
      BinaryOp.gtEq.compares value low := comparison _ _
  have last : row.valuation.truth (.binary (.name [i]) .lt (intExpr high)) =
      BinaryOp.lt.compares value high := comparison _ _
  rw [Ident.within, Valuation.truth, Truth.and_eq_true_iff, first, last]
  simp [BinaryOp.compares]

end DetectionPlan.Sql
