/-
Terms of arithmetic: columns, whole numbers, signs, sums, differences, products and parentheses, the
way they are nested when they are read. A term is read from its text (`parseExpr_term`), and before
whatever binds no tighter than its own operators (`Parser.read_term`).
-/
import DetectionPlan.Proofs.Sql.Range

namespace DetectionPlan.Sql

/-! ## Terms -/

/-- The mark and the power of an operator on numbers. -/
def BinaryOp.arithmetic? : BinaryOp → Option (Mark × Nat)
  | plus => some (.plus, 30)
  | minus => some (.minus, 30)
  | times => some (.star, 40)
  | _ => none

/-- The mark of a sign. -/
def UnaryOp.sign? : UnaryOp → Option Mark
  | plus => some .plus
  | minus => some .minus
  | not => none

/-- Terms whose operators outside parentheses all bind tighter than a power. Operators of one power
are nested to the left. Two minus signs side by side would start a comment. -/
inductive Expr.IsTerm (g : Grammar) : (power : Nat) → Expr → Prop where
  | column {power : Nat} {first : Ident} {parts : List Ident} (h : first.IsColumn g)
    (behind : ∀ i ∈ parts, i.IsPart g) : IsTerm g power (.name (first :: parts))
  | number {power : Nat} {digits : String} (h : isDigits digits.toList) :
    IsTerm g power (.literal (.number digits false))
  | nested {power : Nat} {e : Expr} (h : IsTerm g 0 e) : IsTerm g power (.nested e)
  | sign {power : Nat} {op : UnaryOp} {m : Mark} {e : Expr} (found : op.sign? = some m)
    (h : IsTerm g Parser.timesPower e) (apart : m = .minus → e.text.toList.head? ≠ some '-') :
    IsTerm g power (.unary op e)
  | binary {power tight : Nat} {op : BinaryOp} {m : Mark} {left right : Expr}
    (found : op.arithmetic? = some (m, tight)) (binds : power < tight) (l : IsTerm g (tight - 1) left)
    (r : IsTerm g tight right) : IsTerm g power (.binary left op right)

/-- How many levels a term is nested, the way it is read. -/
def Expr.levels : Expr → Nat
  | .nested e => e.levels + 1
  | .unary _ e => e.levels + 1
  | .binary left _ right => max left.levels (right.levels + 1)
  | _ => 0

/-- The tokens of a term. -/
def Expr.termTokens : Expr → List Token
  | .name parts => nameTokens parts
  | .literal (.number digits _) => [.number digits false]
  | .nested e => .mark .leftParen :: (e.termTokens ++ [.mark .rightParen])
  | .unary op e => (op.sign?.map Token.mark).toList ++ e.termTokens
  | .binary left op right =>
    left.termTokens ++ ((op.arithmetic?.map fun found => Token.mark found.1).toList ++ right.termTokens)
  | _ => []

variable {g : Grammar} {s : ParserSettings} {e : Expr} {power : Nat}

/-! ## The text of a name -/

/-- A name begins with something that begins neither a string nor a number. -/
theorem head?_quoted {i : Ident} (h : i.IsPart g) :
    ∃ c, i.quoted.toList.head? = some c ∧ c ≠ '\x27' ∧ c.isDigit = false := by
  cases h with
  | @plain word h =>
    obtain ⟨c, rest, hn, start, digit, -⟩ := Lexer.exists_cons_of_isPlainName h
    refine ⟨c, (congrArg List.head? hn : _), fun quote => ?_, digit⟩
    exact Lexer.not_mem_noNames start (quote ▸ by decide)
  | @quoted word q h shut =>
    refine ⟨q, by rw [Lexer.toList_quoted h shut]; rfl, ?_⟩
    rcases Lexer.isNameQuote_cases h with rfl | rfl | rfl <;> decide

/-- The text of a qualified name, cut behind its first part. -/
theorem toList_nameText (first : Ident) (parts : List Ident) : (nameText (first :: parts)).toList =
    first.quoted.toList ++ parts.flatMap fun i => '.' :: i.quoted.toList := by
  induction parts generalizing first with
  | nil => simp [nameText]
  | cons i parts ih =>
    have cut : nameText (first :: i :: parts) = first.quoted ++ "." ++ nameText (i :: parts) :=
      String.intercalate_cons_cons
    rw [cut, String.toList_append, String.toList_append, ih]
    simp

/-- The text of a qualified name is cut into its tokens. -/
theorem Lexer.tokensOf_nameText {first : Ident} {parts : List Ident} {w : List Char} {ts : List Token}
    (h : first.IsPart s.grammar) (behind : ∀ i ∈ parts, i.IsPart s.grammar) (stop : w.head?.all endsName) :
    tokensOf s ((nameText (first :: parts)).toList ++ w) = .ok (nameTokens (first :: parts) ++ ts) ↔
      tokensOf s w = .ok ts := by
  rw [toList_nameText, List.append_assoc, nameTokens, List.cons_append]
  induction parts generalizing first with
  | nil => exact tokensOf_ident h stop
  | cons i parts ih =>
    obtain ⟨part, behind⟩ := List.forall_mem_cons.mp behind
    obtain ⟨c, starts, -, digit⟩ := head?_quoted part
    have noDigit : (i.quoted.toList ++ (parts.flatMap (fun i => '.' :: i.quoted.toList) ++ w)).head?.all
        (!·.isDigit) := by simp [List.head?_append, starts, digit]
    simp only [List.flatMap_cons, List.cons_append, List.append_assoc, List.nil_append]
    exact (tokensOf_ident h rfl).trans ((tokensOf_point noDigit).trans (ih part behind))

/-! ## The text of a term -/

/-- The text of a term begins with something, which is no quote of a string. -/
theorem head?_text (h : e.IsTerm g power) : ∃ c, e.text.toList.head? = some c ∧ c ≠ '\x27' := by
  induction h with
  | @column power first parts h behind =>
    obtain ⟨c, starts, other, -⟩ := head?_quoted h.isPart
    have text : (Expr.name (first :: parts)).text = nameText (first :: parts) := rfl
    exact ⟨c, by simp [text, toList_nameText, List.head?_append, starts], other⟩
  | @number power digits h =>
    have text : (Expr.literal (.number digits false)).text = digits := by simp [Expr.text, Literal.text]
    obtain ⟨given, all⟩ := Bool.and_eq_true_iff.mp h
    obtain ⟨c, rest, hn⟩ := List.exists_cons_of_ne_nil (show digits.toList ≠ [] by simpa using given)
    have first : c.isDigit := List.all_eq_true.mp all c (hn ▸ List.mem_cons_self)
    refine ⟨c, by rw [text, hn]; rfl, fun quote => ?_⟩
    rw [quote] at first
    cases first
  | nested h ih => exact ⟨'(', by simp [Expr.text, String.toList_append], by decide⟩
  | @sign power op m e found h apart ih =>
    cases op <;> cases found
    · exact ⟨'+', by simp [Expr.text, UnaryOp.text, String.toList_append], by decide⟩
    · exact ⟨'-', by simp [Expr.text, UnaryOp.text, String.toList_append], by decide⟩
  | binary found binds l r ihl ihr =>
    obtain ⟨c, first, other⟩ := ihl
    exact ⟨c, by simp [Expr.text, String.toList_append, List.head?_append, first], other⟩

namespace Lexer

variable {w : List Char} {ts : List Token}

theorem tokensOf_sign {op : UnaryOp} {m : Mark} (found : op.sign? = some m)
    (apart : m = .minus → w.head? ≠ some '-') :
    tokensOf s (op.text.toList ++ w) = .ok (.mark m :: ts) ↔ tokensOf s w = .ok ts := by
  cases op <;> cases found
  · exact tokensOf_plus
  · exact tokensOf_minus (apart rfl)

theorem tokensOf_operator {op : BinaryOp} {m : Mark} {tight : Nat} (found : op.arithmetic? = some (m, tight)) :
    tokensOf s (' ' :: (op.text.toList ++ ' ' :: w)) = .ok (.mark m :: ts) ↔ tokensOf s w = .ok ts := by
  refine tokensOf_blank.trans ?_
  cases op <;> cases found
  · exact tokensOf_mark rfl rfl
  · exact (tokensOf_minus (by simp)).trans tokensOf_blank
  · exact tokensOf_mark rfl rfl

/-- The text of a term is cut into its tokens. -/
theorem tokensOf_term (h : e.IsTerm s.grammar power) (stop : w.head?.all isBreak) :
    tokensOf s (e.text.toList ++ w) = .ok (e.termTokens ++ ts) ↔ tokensOf s w = .ok ts := by
  induction h generalizing w ts with
  | column h behind =>
    have ends : w.head?.all endsName := by
      cases first : w.head? with
      | none => rfl
      | some c => exact endsName_of_isBreak (by simpa [first] using stop)
    exact tokensOf_nameText h.isPart behind ends
  | @number power digits h =>
    have text : (Expr.literal (.number digits false)).text = digits := by simp [Expr.text, Literal.text]
    rw [text]
    exact tokensOf_digits h stop
  | @nested power e h ih =>
    have text : (Expr.nested e).text.toList ++ w = '(' :: (e.text.toList ++ ')' :: w) := by
      simp [Expr.text, String.toList_append]
    rw [text, Expr.termTokens, List.cons_append, List.append_assoc]
    exact tokensOf_open.trans ((ih rfl).trans tokensOf_close)
  | @sign power op m e found h apart ih =>
    have text : (Expr.unary op e).text.toList ++ w = op.text.toList ++ (e.text.toList ++ w) := by
      simp [Expr.text, String.toList_append]
    rw [text, Expr.termTokens, found]
    refine (tokensOf_sign found fun minus => ?_).trans (ih stop)
    obtain ⟨c, first, -⟩ := head?_text h
    have noDash := apart minus
    rw [first] at noDash
    rwa [List.head?_append, first]
  | @binary power tight op m left right found binds l r ihl ihr =>
    have text : (Expr.binary left op right).text.toList ++ w =
        left.text.toList ++ ' ' :: (op.text.toList ++ ' ' :: (right.text.toList ++ w)) := by
      simp [Expr.text, String.toList_append]
    rw [text, Expr.termTokens, found, List.append_assoc, List.append_assoc]
    exact (ihl rfl).trans ((tokensOf_operator found).trans (ihr stop))

end Lexer

/-! ## Reading a term -/

namespace Parser

variable {inner : Inner} {rest : List Token} {d least : Nat}

/-- What may follow a term: nothing, a parenthesis that closes or an operator on numbers. -/
def followsTerm : List Token → Bool
  | [] => true
  | .mark m :: _ => m == .rightParen || m == .plus || m == .minus || m == .star || m == .slash
  | _ => false

theorem followsTerm_cases (h : followsTerm rest) : rest = [] ∨ ∃ m more, rest = .mark m :: more ∧
    (m = .rightParen ∨ m = .plus ∨ m = .minus ∨ m = .star ∨ m = .slash) := by
  unfold followsTerm at h
  split at h
  · exact .inl rfl
  next m more => exact .inr ⟨m, more, rfl, by simpa [or_assoc] using h⟩
  · cases h

theorem nextPower_le (h : followsTerm rest) : nextPower rest ≤ timesPower := by
  rcases followsTerm_cases h with rfl | ⟨m, more, rfl, rfl | rfl | rfl | rfl | rfl⟩ <;> simp [nextPower, markOp?, timesPower]

theorem not_point (h : followsTerm rest) : rest.head? ≠ some (.mark .period) := by
  rcases followsTerm_cases h with rfl | ⟨m, more, rfl, rfl | rfl | rfl | rfl | rfl⟩ <;> simp

theorem not_paren (h : followsTerm rest) : rest.head? ≠ some (.mark .leftParen) := by
  rcases followsTerm_cases h with rfl | ⟨m, more, rfl, rfl | rfl | rfl | rfl | rfl⟩ <;> simp

/-- An operator on numbers has its power. -/
theorem arithmetic?_spec {op : BinaryOp} {m : Mark} {tight : Nat} (found : op.arithmetic? = some (m, tight))
    (more : List Token) : markOp? m = some (op, tight) ∧ nextPower (.mark m :: more) = tight ∧
      followsTerm (.mark m :: more) ∧ tight ≤ timesPower := by
  cases op <;> cases found <;> exact ⟨rfl, rfl, rfl, by decide⟩

/-- A term begins with a token that begins no query. -/
theorem exists_first_token (h : e.IsTerm g power) : ∃ t more, e.termTokens = t :: more ∧
    wordOf? (some t) ≠ some .SELECT ∧ wordOf? (some t) ≠ some .WITH := by
  induction h with
  | column h behind => exact ⟨_, _, rfl, wordOf?_token h (.inl rfl), wordOf?_token h (.inr rfl)⟩
  | number h => exact ⟨_, _, rfl, nofun, nofun⟩
  | nested h ih => exact ⟨_, _, rfl, nofun, nofun⟩
  | @sign power op m e found h apart ih =>
    refine ⟨.mark m, e.termTokens, ?_, nofun, nofun⟩
    rw [Expr.termTokens, found]
    rfl
  | @binary power tight op m left right found binds l r ihl ihr =>
    obtain ⟨t, more, first, noSelect, noWith⟩ := ihl
    exact ⟨t, _, by rw [Expr.termTokens, first, List.cons_append], noSelect, noWith⟩

/-- A term is read up to what follows it, if no operator of it binds less tight than that. What
follows is left to be taken in. -/
theorem read_term (h : e.IsTerm s.grammar power) (levels : e.levels ≤ d) (least_le : least ≤ power)
    (loose : nextPower rest ≤ power + 1) (follows : followsTerm rest) :
    expression s (innerIn s d) least (e.termTokens ++ rest) =
      operatorsIn s (innerIn s d) least rest.length e rest := by
  induction h generalizing d least rest with
  | column h behind =>
    rw [Expr.termTokens, expression, bind_of_ok (name_read _ h (not_point follows) (not_paren follows))]
    rfl
  | number h => rfl
  | @nested power e h ih =>
    rw [Expr.levels] at levels
    obtain ⟨d, rfl⟩ : ∃ d', d = d' + 1 := ⟨d - 1, by omega⟩
    obtain ⟨t, more, first, noSelect, noWith⟩ := exists_first_token h
    have inside : (innerIn s (d + 1)).expr 0 (e.termTokens ++ .mark .rightParen :: rest) =
        .ok (e, .mark .rightParen :: rest) := by
      rw [innerIn_expr_succ, ih (by omega) le_rfl (Nat.zero_le _) rfl]
      exact operatorsIn_stops le_rfl
    have whole : (Expr.nested e).termTokens ++ rest =
        .mark .leftParen :: (e.termTokens ++ .mark .rightParen :: rest) := by simp [Expr.termTokens]
    have read : operand s (innerIn s (d + 1)) (.mark .leftParen :: (e.termTokens ++ .mark .rightParen :: rest)) =
        .ok (.nested e, rest) :=
      nested_read (by simp) (by rw [first]; exact noSelect) (by rw [first]; exact noWith) inside
    rw [whole, expression, bind_of_ok read]
    rfl
  | @sign power op m e found h apart ih =>
    rw [Expr.levels] at levels
    obtain ⟨d, rfl⟩ : ∃ d', d = d' + 1 := ⟨d - 1, by omega⟩
    have inside : (innerIn s (d + 1)).expr timesPower (e.termTokens ++ rest) = .ok (e, rest) := by
      rw [innerIn_expr_succ, ih (by omega) le_rfl ((nextPower_le follows).trans (Nat.le_succ _)) follows]
      exact operatorsIn_stops (nextPower_le follows)
    have read : operand s (innerIn s (d + 1)) (.mark m :: (e.termTokens ++ rest)) = .ok (.unary op e, rest) := by
      rw [operand, bind_of_ok (take_cons _)]
      cases op <;> cases found <;> exact bind_of_ok inside
    have whole : (Expr.unary op e).termTokens ++ rest = .mark m :: (e.termTokens ++ rest) := by
      rw [Expr.termTokens, found]
      rfl
    rw [whole, expression, bind_of_ok read]
    rfl
  | @binary power tight op m left right found binds l r ihl ihr =>
    rw [Expr.levels] at levels
    obtain ⟨d, rfl⟩ : ∃ d', d = d' + 1 := ⟨d - 1, by omega⟩
    have whole : (Expr.binary left op right).termTokens ++ rest =
        left.termTokens ++ .mark m :: (right.termTokens ++ rest) := by
      rw [Expr.termTokens, found]
      simp
    -- The right side is read as far as operators bind tighter; the loop takes the others.
    obtain ⟨mark, tightness, behind, -⟩ := arithmetic?_spec found (right.termTokens ++ rest)
    have inside : (innerIn s (d + 1)).expr tight (right.termTokens ++ rest) = .ok (right, rest) := by
      rw [innerIn_expr_succ, ihr (by omega) le_rfl (by omega) follows]
      exact operatorsIn_stops (by omega)
    rw [whole, ihl (by omega) (by omega) (by omega) behind,
      operatorsIn_step (innerIn_local s le_rfl) le_rfl (by omega) (markOp_read mark inside)]

end Parser

open DetectionPlan.Sql.Parser in
/-- A term is read from its text. -/
theorem parseExpr_term (h : e.IsTerm s.grammar 0) (room : e.levels < s.recursionLimit) :
    s.parseExpr e.text = .ok e := by
  obtain ⟨d, hd⟩ : ∃ d, s.recursionLimit = d + 1 := ⟨s.recursionLimit - 1, by omega⟩
  refine ParserSettings.parseExpr_of_cut hd ((Lexer.tokensOf_term h rfl).mpr rfl) ?_
  rw [innerIn_expr_succ, read_term h (by omega) le_rfl (Nat.zero_le _) rfl]
  exact operatorsIn_stops le_rfl

end DetectionPlan.Sql
