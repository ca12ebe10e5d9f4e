/-
The tokens of the conditions that predicates stand for, and what is read from
them: behind an expression, each condition is one more operand of a conjunction.
-/
import DetectionPlan.Proofs.Sql.Edge
import DetectionPlan.Sql.Filter

namespace DetectionPlan

namespace Sql

/-- Keywords that are read as names where an expression between parentheses
starts. -/
def Keyword.isName (g : Grammar) : Keyword → Bool
  | TRUE | FALSE | NULL | CURRENT_DATE | CURRENT_TIME | CURRENT_TIMESTAMP | LOCALTIME
  | LOCALTIMESTAMP | CASE | CAST | TRY_CAST | SAFE_CAST | CEIL | FLOOR | EXISTS | NOT | SELECT
  | WITH => false
  | CURRENT_CATALOG | CURRENT_USER | SESSION_USER | USER => !g.hasUserWords
  | _ => true

/-- Whether a word is read as a name where an expression between parentheses
starts. -/
def startsName (g : Grammar) (word : String) : Bool := (Keyword.ofWord? word).all (·.isName g)

end Sql

namespace Predicate

open Sql (Token)

/-- The tokens of the column of a predicate. -/
def columnTokens (p : Predicate) : List Token :=
  match p.dataset with
  | some dataset => [.ofWord dataset, .mark .period, .ofWord p.column]
  | none => [.ofWord p.column]

/-- The word that the tokens of a predicate start with. -/
def firstWord (p : Predicate) : String := p.dataset.getD p.column

/-- The token of a value. -/
def valueToken (value : String) : Token := .string .single value

/-- The tokens of values with commas between them. -/
def listTokens : List String → List Token
  | [] => []
  | [value] => [valueToken value]
  | value :: next :: more => valueToken value :: .mark .comma :: listTokens (next :: more)

/-- The tokens of the condition that a predicate stands for. -/
def tokens (p : Predicate) : List Token :=
  p.columnTokens ++
    match p.operator with
    | .eq => .mark .eq :: p.values.map valueToken
    | .neq => .mark .notEq :: p.values.map valueToken
    | _ => .ofWord "IN" :: .mark .leftParen :: listTokens p.values ++ [.mark .rightParen]

end Predicate

namespace Sql

/-- Tokens behind an expression that make a conjunction with each of some
conditions. -/
def conjunctionTokens (conditions : List (List Token)) : List Token :=
  conditions.flatMap fun c => .ofWord "AND" :: .mark .leftParen :: c ++ [.mark .rightParen]

theorem ofWord_and : Token.ofWord "AND" = .word ⟨"AND", none⟩ (some .AND) := by decide +kernel

theorem ofWord_in : Token.ofWord "IN" = .word ⟨"IN", none⟩ (some .IN) := by decide +kernel

namespace Parser

variable {s : ParserSettings} {inner inner' : Inner} {power n d : Nat} {rest : List Token}

/-! ## Operands -/

theorem operatorsIn_step (h : inner.Local inner') {left e : Expr} {ts : List Token}
    (enough : ts.length ≤ n) (binds : power < nextPower ts) (hi : infixExpr s inner left ts = .ok (e, rest)) :
    operatorsIn s inner power n left ts = operatorsIn s inner power rest.length e rest := by
  have := (infixExpr_local h left).takes_lt hi
  obtain ⟨n, rfl⟩ : ∃ m, n = m + 1 := ⟨n - 1, by omega⟩
  rw [operatorsIn, get_bind_apply, if_pos binds, bind_of_ok hi]
  exact operatorsIn_enough h (by omega) (Nat.le_refl _)

theorem expression_of_operand {e : Expr} {ts : List Token} (h : operand s inner ts = .ok (e, rest))
    (stops : nextPower rest ≤ power) : expression s inner power ts = .ok (e, rest) := by
  rw [expression, bind_of_ok h]
  exact operatorsIn_stops stops

theorem atQuery_apply (ts : List Token) : atQuery ts =
    .ok (wordOf? ts.head? == some .SELECT || wordOf? ts.head? == some .WITH, ts) := by
  rw [atQuery, bind_of_ok peekWord_apply]
  rfl

theorem string_read (text : String) (stops : nextPower rest ≤ power) :
    (innerIn s (d + 1)).expr power (.string .single text :: rest) =
      .ok (.literal (.string .single text), rest) := by
  rw [innerIn_expr_succ]
  exact expression_of_operand rfl stops

theorem keywordExpr_of_isName {k : Keyword} (h : k.isName s.grammar) (name : Ident) :
    keywordExpr s inner name k = nameOrCall s inner name := by
  unfold keywordExpr
  split
  iterate 8 cases h
  iterate 4
    have plain : s.grammar.hasUserWords = false := by simpa [Keyword.isName] using h
    simp only [plain]
    rfl
  iterate 8 cases h
  rfl

theorem operand_of_startsName {word : String} (h : startsName s.grammar word) (ts : List Token) :
    operand s inner (.ofWord word :: ts) = nameOrCall s inner ⟨word, none⟩ ts := by
  rw [operand, Token.ofWord, bind_of_ok (take_cons _)]
  cases hk : Keyword.ofWord? word with
  | none => rfl
  | some k =>
    have named : k.isName s.grammar := by simpa [startsName, hk] using h
    exact congrFun (keywordExpr_of_isName named _) ts

/-- The column of a predicate is read before anything but a point or a parenthesis. -/
theorem column_read {p : Predicate} (h : startsName s.grammar p.firstWord)
    (point : rest.head? ≠ some (.mark .period)) (paren : rest.head? ≠ some (.mark .leftParen)) :
    operand s inner (p.columnTokens ++ rest) = .ok (p.columnExpr, rest) := by
  have ends (parts : List Ident) (first : Ident) :
      nameEnd s inner first (parts, false) rest = .ok (.name (first :: parts), rest) := by
    unfold nameEnd
    simp only
    exact bind_of_ok (skipMark_other paren)
  unfold Predicate.columnTokens Predicate.columnExpr Predicate.firstWord at *
  cases hd : p.dataset with
  | none =>
    rw [hd, Option.getD_none] at h
    simp only [List.cons_append, List.nil_append]
    rw [operand_of_startsName h, nameOrCall_eq, bind_of_ok (nameTail_other _ point)]
    exact ends _ _
  | some dataset =>
    rw [hd, Option.getD_some] at h
    simp only [List.cons_append, List.nil_append]
    have parts : nameTail s.grammar.allowsStarValue (.mark .period :: .ofWord p.column :: rest) =
        .ok (([⟨p.column, none⟩], false), rest) := by
      rw [nameTail_point, nameTail_other _ point]
      rfl
    rw [operand_of_startsName h, nameOrCall_eq, bind_of_ok parts]
    exact ends _ _

/-! ## Conditions -/

theorem endsList_close (trailing : Bool) :
    endsList trailing (.mark .rightParen :: rest) = .ok (true, .mark .rightParen :: rest) :=
  bind_of_ok (skipMark_other (by simp))

theorem endsList_comma (trailing : Bool) {kind : StringKind} {text : String} {ts : List Token}
    (h : ts.head? = some (.string kind text)) :
    endsList trailing (.mark .comma :: ts) = .ok (false, ts) := by
  obtain ⟨rest, rfl⟩ := List.head?_eq_some_iff.mp h
  rw [endsList, bind_of_ok (skipMark_self .comma)]
  cases trailing <;> rfl

/-- A list of one item before a parenthesis that closes. -/
theorem commaSeparated_one {α : Type} {item : Parser α} {a : α} {ts : List Token} (trailing : Bool)
    (some : ts ≠ []) (h : item ts = .ok (a, .mark .rightParen :: rest)) :
    commaSeparated trailing item ts = .ok ([a], .mark .rightParen :: rest) := by
  obtain ⟨n, hn⟩ : ∃ n, ts.length = n + 1 :=
    ⟨ts.length - 1, by have := List.length_pos_of_ne_nil some; omega⟩
  rw [commaSeparated, get_bind_apply, hn, commaSeparatedIn, bind_of_ok h,
    bind_of_ok (endsList_close trailing)]
  rfl

/-- The values of a list are read one after the other. -/
theorem values_read (trailing : Bool) : ∀ {values : List String} {n : Nat}, values ≠ [] →
    values.length ≤ n → commaSeparatedIn trailing ((innerIn s (d + 1)).expr 0) n
      (Predicate.listTokens values ++ .mark .rightParen :: rest) =
        .ok (values.map Predicate.valueExpr, .mark .rightParen :: rest)
  | [v], n + 1, _, _ => by
    have stops : nextPower (.mark .rightParen :: rest) ≤ 0 := Nat.le_refl _
    rw [Predicate.listTokens, List.singleton_append, commaSeparatedIn]
    exact (bind_of_ok (string_read v stops)).trans (bind_of_ok (endsList_close trailing))
  | v :: w :: values, n + 1, _, h => by
    let more := Predicate.listTokens (w :: values) ++ .mark .rightParen :: rest
    have stops : nextPower (.mark .comma :: more) ≤ 0 := Nat.le_refl _
    have first : more.head? = some (.string .single w) := by cases values <;> rfl
    rw [Predicate.listTokens, List.cons_append, List.cons_append, commaSeparatedIn]
    refine (bind_of_ok (string_read v stops)).trans ((bind_of_ok (endsList_comma trailing first)).trans ?_)
    exact bind_of_ok (values_read trailing (by simp) (by simpa using h))

/-- A list of values is read behind `IN`. -/
theorem list_read {values : List String} (given : values ≠ []) (e : Expr) :
    inExpr s (innerIn s (d + 1)) e false
      (.mark .leftParen :: Predicate.listTokens values ++ .mark .rightParen :: rest) =
        .ok (.inList e false (values.map Predicate.valueExpr), rest) := by
  obtain ⟨v, more, rfl⟩ := List.exists_cons_of_ne_nil given
  let ts := Predicate.listTokens (v :: more) ++ .mark .rightParen :: rest
  have first : ts.head? = some (.string .single v) := by cases more <;> rfl
  have enough : (v :: more).length ≤ ts.length := by
    have (values : List String) : values.length ≤ (Predicate.listTokens values).length := by
      induction values with
      | nil => exact Nat.le_refl _
      | cons v values ih => cases values <;> simp_all [Predicate.listTokens]; omega
    have := this (v :: more)
    simp only [ts, List.length_append]
    omega
  have items : inItems s (innerIn s (d + 1)) e false ts =
      .ok (.inList e false ((v :: more).map Predicate.valueExpr), .mark .rightParen :: rest) := by
    have noQuery : atQuery ts = .ok (false, ts) := by
      rw [atQuery_apply, first]
      rfl
    rw [inItems, bind_of_ok noQuery]
    simp only [Bool.false_eq_true, if_false]
    rw [bind_of_ok peek_apply, first]
    have full : (some (Token.string .single v) == some (.mark .rightParen)) = false := rfl
    simp only [full, Bool.and_false, Bool.false_eq_true, if_false]
    exact bind_of_ok (values_read s.trailingCommas given enough)
  exact Local.parenthesised_of_ok items

theorem markOp_read {m : Mark} {op : BinaryOp} {left right : Expr} {ts : List Token}
    (found : markOp? m = some (op, power)) (h : inner.expr power ts = .ok (right, rest)) :
    infixExpr s inner left (.mark m :: ts) = .ok (.binary left op right, rest) := by
  rw [infixExpr, bind_of_ok (take_cons _)]
  cases m <;> cases found <;> exact bind_of_ok h

theorem wordOp_read {k : Keyword} {name : Ident} {op : BinaryOp} {left right : Expr} {ts : List Token}
    (found : wordOp? k = some (op, power)) (h : inner.expr power ts = .ok (right, rest)) :
    infixExpr s inner left (.word name (some k) :: ts) = .ok (.binary left op right, rest) := by
  rw [infixExpr, bind_of_ok (take_cons _)]
  cases k <;> cases found <;> exact bind_of_ok h

/-- The condition of a predicate is read before a parenthesis that closes. -/
theorem condition_read {p : Predicate} {c : Expr} (h : p.expr = .ok c)
    (name : startsName s.grammar p.firstWord) :
    (innerIn s (d + 2)).expr 0 (p.tokens ++ .mark .rightParen :: rest) =
      .ok (c, .mark .rightParen :: rest) := by
  have local_ := innerIn_local s (Nat.le_refl (d + 1))
  have read {e : Expr} {ts : List Token} (point : ts.head? ≠ some (.mark .period))
      (paren : ts.head? ≠ some (.mark .leftParen)) (binds : 0 < nextPower ts)
      (hi : infixExpr s (innerIn s (d + 1)) p.columnExpr ts = .ok (e, .mark .rightParen :: rest)) :
      (innerIn s (d + 2)).expr 0 (p.columnTokens ++ ts) = .ok (e, .mark .rightParen :: rest) := by
    rw [innerIn_expr_succ, expression, bind_of_ok (column_read name point paren), get_bind_apply,
      operatorsIn_step local_ (Nat.le_refl _) binds hi]
    exact operatorsIn_stops (Nat.le_refl 0)
  have value (v : String) : (innerIn s (d + 1)).expr 20 (Predicate.valueToken v :: .mark .rightParen :: rest) =
      .ok (Predicate.valueExpr v, .mark .rightParen :: rest) := string_read v (Nat.zero_le 20)
  unfold Predicate.tokens
  rw [List.append_assoc]
  unfold Predicate.expr Predicate.comparison at h
  split at h
  next op =>
    split at h
    next v hv =>
      obtain rfl := Except.ok.inj h
      rw [op, hv]
      exact read (by simp) (by simp) (Nat.succ_pos 19) (markOp_read rfl (value v))
    · cases h
  next op =>
    split at h
    next v hv =>
      obtain rfl := Except.ok.inj h
      rw [op, hv]
      exact read (by simp) (by simp) (Nat.succ_pos 19) (markOp_read rfl (value v))
    · cases h
  next op =>
    split at h
    · cases h
    next given =>
      obtain rfl := Except.ok.inj h
      rw [op, ofWord_in]
      simp only [List.cons_append, List.append_assoc]
      exact read (by simp) (by simp) (Nat.succ_pos 19) (list_read (by simpa using given) p.columnExpr)
  · cases h

/-! ## Conjunctions -/

/-- What stands between parentheses is one operand, unless it is a query. -/
theorem nested_read {e : Expr} {ts : List Token} (given : ts ≠ [])
    (noSelect : wordOf? ts.head? ≠ some .SELECT) (noWith : wordOf? ts.head? ≠ some .WITH)
    (h : inner.expr 0 ts = .ok (e, .mark .rightParen :: rest)) :
    operand s inner (.mark .leftParen :: ts) = .ok (.nested e, rest) := by
  have noQuery : atQuery ts = .ok (false, ts) := by
    rw [atQuery_apply]
    simp [noSelect, noWith]
  have items : groupItems s inner ts = .ok (.nested e, .mark .rightParen :: rest) := by
    rw [groupItems, bind_of_ok noQuery]
    exact bind_of_ok (commaSeparated_one _ given h)
  rw [operand, bind_of_ok (take_cons _)]
  simp only [group_eq]
  rw [bind_of_ok items, bind_of_ok (expectMark_self _)]
  rfl

theorem isName_ne_query {g : Grammar} {k : Keyword} (h : k.isName g) : k ≠ .SELECT ∧ k ≠ .WITH := by
  constructor <;> rintro rfl <;> cases h

theorem condition_first {p : Predicate} (name : startsName s.grammar p.firstWord) :
    ∃ more, p.tokens = .ofWord p.firstWord :: more ∧
      wordOf? (some (.ofWord p.firstWord)) ≠ some .SELECT ∧
      wordOf? (some (.ofWord p.firstWord)) ≠ some .WITH := by
  have first : ∃ more, p.tokens = .ofWord p.firstWord :: more := by
    unfold Predicate.tokens Predicate.columnTokens Predicate.firstWord
    cases p.dataset <;> exact ⟨_, rfl⟩
  obtain ⟨more, hm⟩ := first
  have noQuery {k : Keyword} (hk : Keyword.ofWord? p.firstWord = some k) : k ≠ .SELECT ∧ k ≠ .WITH :=
    isName_ne_query (by simpa [startsName, hk] using name)
  exact ⟨more, hm, fun e => (noQuery e).1 rfl, fun e => (noQuery e).2 rfl⟩

theorem nextPower_conjunctionTokens (cs : List (List Token)) (stops : nextPower rest = 0) :
    nextPower (conjunctionTokens cs ++ rest) ≤ 10 := by
  cases cs with
  | nil => exact Nat.le_trans (Nat.le_of_eq stops) (Nat.zero_le 10)
  | cons c cs =>
    simp only [conjunctionTokens, List.flatMap_cons, List.cons_append, ofWord_and]
    exact Nat.le_refl 10

/-- Each condition behind an expression is one more operand of a conjunction. -/
theorem conjunction_read {ps : List Predicate} {conditions : List Expr}
    (h : List.Forall₂ (fun p c => p.expr = .ok c) ps conditions)
    (names : ∀ p ∈ ps, startsName s.grammar p.firstWord) (stops : nextPower rest = 0) :
    ∀ {left : Expr} {n : Nat}, (conjunctionTokens (ps.map Predicate.tokens) ++ rest).length ≤ n →
    operatorsIn s (innerIn s (d + 3)) 0 n left (conjunctionTokens (ps.map Predicate.tokens) ++ rest) =
      .ok (conditions.foldl (fun all c => .binary all .and (.nested c)) left, rest) := by
  induction h with
  | nil =>
    intro left n _
    exact operatorsIn_stops (Nat.le_of_eq stops)
  | @cons p c ps conditions hp hps ih =>
    intro left n enough
    have name := names p (List.mem_cons_self ..)
    let more := conjunctionTokens (ps.map Predicate.tokens) ++ rest
    have split : conjunctionTokens ((p :: ps).map Predicate.tokens) ++ rest =
        .word ⟨"AND", none⟩ (some .AND) :: .mark .leftParen :: (p.tokens ++ .mark .rightParen :: more) := by
      simp [conjunctionTokens, more, ofWord_and]
    obtain ⟨tail, first, noSelect, noWith⟩ := condition_first name
    have nested : (innerIn s (d + 3)).expr 10 (.mark .leftParen :: (p.tokens ++ .mark .rightParen :: more)) =
        .ok (.nested c, more) := by
      rw [innerIn_expr_succ]
      refine expression_of_operand ?_ (nextPower_conjunctionTokens _ stops)
      exact nested_read (by simp) (by simpa [first] using noSelect) (by simpa [first] using noWith)
        (condition_read hp name)
    rw [split] at enough ⊢
    rw [operatorsIn_step (innerIn_local s (Nat.le_refl (d + 3))) enough (Nat.succ_pos 9)
      (wordOp_read rfl nested)]
    exact ih (fun q hq => names q (List.mem_cons_of_mem _ hq)) (Nat.le_refl _)

end Parser

end Sql

end DetectionPlan
