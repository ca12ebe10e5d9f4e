/-
Calls of functions on names, strings and other calls, whose strings are written between quotes with
their own quotes doubled. The text of such a call is cut into its tokens, whatever its strings hold
(`Lexer.tokensOf_applied`), and these are read as the call (`Parser.read_applied`).
-/
import DetectionPlan.Proofs.Sql.Range
import DetectionPlan.TimeFormat.Basic

namespace DetectionPlan.Sql

/-- A name, a string, or a function applied to one or more of these. -/
inductive Applied where
  | name (i : Ident)
  | string (value : String)
  | call (function : String) (first : Applied) (more : List Applied)

namespace Applied

mutual

def text : Applied → String
  | name i => i.quoted
  | string value => TimeFormat.stringLiteral value
  | call function first more => function ++ "(" ++ first.text ++ moreText more ++ ")"

def moreText : List Applied → String
  | [] => ""
  | a :: more => ", " ++ a.text ++ moreText more

end

mutual

def tokens : Applied → List Token
  | name i => [i.token]
  | string value => [.string .single value]
  | call function first more =>
    .ofWord function :: .mark .leftParen :: (first.tokens ++ (moreTokens more ++ [.mark .rightParen]))

def moreTokens : List Applied → List Token
  | [] => []
  | a :: more => .mark .comma :: (a.tokens ++ moreTokens more)

end

mutual

/-- The tree that the text is read as. -/
def expr : Applied → Expr
  | name i => .name [i]
  | string value => .literal (.string .single value)
  | call function first more =>
    .call ⟨[⟨function, none⟩], .list none (.positional first.expr :: moreArguments more)⟩

def moreArguments : List Applied → List Argument
  | [] => []
  | a :: more => .positional a.expr :: moreArguments more

end

mutual

/-- How many levels the calls are nested. -/
def levels : Applied → Nat
  | name _ | string _ => 0
  | call _ first more => max first.levels (moreLevels more) + 1

def moreLevels : List Applied → Nat
  | [] => 0
  | a :: more => max a.levels (moreLevels more)

end

end Applied

/-- Names that are read as a name wherever an argument may start: they do not say which values count,
and end no list where the last comma of one may trail. -/
structure Ident.IsArgument (s : ParserSettings) (i : Ident) : Prop where
  column : i.IsColumn s.grammar
  starts : ∀ k, Parser.wordOf? (some i.token) = some k →
    k ≠ .ALL ∧ k ≠ .DISTINCT ∧ (s.trailingCommas → k.endsResult = false)

/-- A plain name that is no keyword is read as a name everywhere. -/
theorem Ident.isArgument_of_plain {s : ParserSettings} {word : String} (plain : s.grammar.isPlainName word)
    (noKeyword : Keyword.ofWord? word = none) : (⟨word, none⟩ : Ident).IsArgument s where
  column := .plain ⟨plain, by simp [startsName, noKeyword]⟩
  starts k found := by
    have found : Keyword.ofWord? word = some k := found
    rw [noKeyword] at found
    cases found

/-- Calls under names that are read as such. -/
inductive Applied.IsPlain (s : ParserSettings) : Applied → Prop where
  | name {i : Ident} (h : i.IsArgument s) : IsPlain s (.name i)
  | string (value : String) : IsPlain s (.string value)
  | call {function : String} {first : Applied} {more : List Applied}
    (h : (⟨function, none⟩ : Ident).IsArgument s) (head : first.IsPlain s) (tail : ∀ a ∈ more, a.IsPlain s) :
    IsPlain s (.call function first more)

variable {s : ParserSettings} {a first : Applied} {more : List Applied}

/-! ## The text -/

namespace Lexer

variable {w : List Char} {ts : List Token}

/-- Characters that stand behind an argument. -/
def endsArgument (c : Char) : Bool := c == ',' || c == ')'

/-- What stands behind an argument ends it, be it the next one. -/
theorem head?_moreText (stop : w.head?.all endsArgument) (more : List Applied) :
    ((Applied.moreText more).toList ++ w).head?.all endsArgument := by
  cases more with
  | nil => simpa [Applied.moreText] using stop
  | cons a more => simp [Applied.moreText, String.toList_append, endsArgument]

/-- Arguments are cut, with the commas in front of them, when each of them is. -/
theorem tokensOf_more (stop : w.head?.all endsArgument)
    (h : ∀ a ∈ more, ∀ {w ts}, w.head?.all endsArgument →
      (tokensOf s (a.text.toList ++ w) = .ok (a.tokens ++ ts) ↔ tokensOf s w = .ok ts)) :
    tokensOf s ((Applied.moreText more).toList ++ w) = .ok (Applied.moreTokens more ++ ts) ↔
      tokensOf s w = .ok ts := by
  induction more with
  | nil => simp [Applied.moreText, Applied.moreTokens]
  | cons a more ih =>
    have text : (Applied.moreText (a :: more)).toList ++ w =
        ',' :: ' ' :: (a.text.toList ++ ((Applied.moreText more).toList ++ w)) := by
      simp [Applied.moreText, String.toList_append]
    rw [text, Applied.moreTokens, List.cons_append, List.append_assoc]
    refine (tokensOf_mark rfl rfl).trans ((h a List.mem_cons_self (head?_moreText stop more)).trans ?_)
    exact ih fun b hb => h b (List.mem_cons_of_mem _ hb)

/-- A call is cut into its tokens, whatever its strings hold. -/
theorem tokensOf_applied (plain : s.PlainStrings) (h : a.IsPlain s) (stop : w.head?.all endsArgument) :
    tokensOf s (a.text.toList ++ w) = .ok (a.tokens ++ ts) ↔ tokensOf s w = .ok ts := by
  induction h generalizing w ts with
  | name h =>
    have ends : w.head?.all endsName := by
      cases first : w.head? with
      | none => rfl
      | some c =>
        rw [first] at stop
        rcases (by simpa [endsArgument] using stop : c = ',' ∨ c = ')') with rfl | rfl <;> rfl
    exact tokensOf_ident h.column.isPart ends
  | string value =>
    have ends : w.head? ≠ some '\x27' := by
      intro quote
      rw [quote] at stop
      cases stop
    have text : (Applied.string value).text.toList ++ w =
        '\x27' :: (doubleChar '\x27' value.toList ++ '\x27' :: w) := by
      simp [Applied.text, TimeFormat.stringLiteral]
    rw [text]
    exact tokensOf_doubled plain value ends
  | @call function first more h head tail ihHead ihTail =>
    have text : (Applied.call function first more).text.toList ++ w =
        function.toList ++ '(' :: (first.text.toList ++ ((Applied.moreText more).toList ++ ')' :: w)) := by
      simp [Applied.text, String.toList_append]
    have tokens : (Applied.call function first more).tokens ++ ts = .ofWord function :: .mark .leftParen ::
        (first.tokens ++ (Applied.moreTokens more ++ .mark .rightParen :: ts)) := by simp [Applied.tokens]
    rw [text, tokens]
    refine (tokensOf_ident h.column.isPart (w := '(' :: _) rfl).trans (tokensOf_open.trans ?_)
    refine (ihHead (head?_moreText rfl more)).trans ((tokensOf_more rfl fun a ha => ?_).trans tokensOf_close)
    exact ihTail a ha

end Lexer

/-! ## Reading it -/

namespace Parser

variable {inner : Inner} {rest : List Token} {d : Nat}

/-- A token that an argument begins with: a name, or a string. -/
def BeginsArgument (s : ParserSettings) (t : Token) : Prop :=
  (∃ i : Ident, i.IsArgument s ∧ t = i.token) ∨ ∃ value, t = .string .single value

theorem BeginsArgument.ne_mark {t : Token} (h : BeginsArgument s t) (m : Mark) : t ≠ .mark m := by
  rcases h with ⟨⟨text, _ | quote⟩, -, rfl⟩ | ⟨value, rfl⟩ <;> exact nofun

theorem BeginsArgument.ne_word {t : Token} (h : BeginsArgument s t) {k : Keyword}
    (hk : k = .SELECT ∨ k = .WITH ∨ k = .ALL ∨ k = .DISTINCT) : wordOf? (some t) ≠ some k := by
  rcases h with ⟨i, hi, rfl⟩ | ⟨value, rfl⟩
  · intro word
    obtain ⟨notAll, notDistinct, -⟩ := hi.starts k word
    rcases hk with rfl | rfl | rfl | rfl
    · exact wordOf?_token hi.column (.inl rfl) word
    · exact wordOf?_token hi.column (.inr rfl) word
    · exact notAll rfl
    · exact notDistinct rfl
  · exact nofun

/-- A comma before an argument does not end the list. -/
theorem BeginsArgument.endsList {t : Token} (h : BeginsArgument s t) (ts : List Token) :
    endsList s.trailingCommas (.mark .comma :: t :: ts) = .ok (false, t :: ts) := by
  rw [Parser.endsList, bind_of_ok (skipMark_self .comma)]
  cases trailing : s.trailingCommas with
  | false => rfl
  | true =>
    rcases h with ⟨i, hi, rfl⟩ | ⟨value, rfl⟩
    · obtain ⟨name, k, word⟩ : ∃ name k, i.token = .word name k := by
        obtain ⟨text, _ | quote⟩ := i <;> exact ⟨_, _, rfl⟩
      cases k with
      | none => rw [word]; rfl
      | some k =>
        have stays := (hi.starts k (by rw [word]; rfl)).2.2 trailing
        have ends : atListEnd (.word name (some k) :: ts) = .ok (k.endsResult, .word name (some k) :: ts) := rfl
        rw [stays] at ends
        rw [word]
        exact ends
    · rfl

/-- A call begins as an argument does, and its second token opens the list of its own arguments. -/
theorem exists_first_applied (h : a.IsPlain s) : ∃ t behind, a.tokens = t :: behind ∧ BeginsArgument s t ∧
    (behind = [] ∨ ∃ more, behind = .mark .leftParen :: more) := by
  cases h with
  | name h => exact ⟨_, [], rfl, .inl ⟨_, h, rfl⟩, .inl rfl⟩
  | string value => exact ⟨_, [], rfl, .inr ⟨value, rfl⟩, .inl rfl⟩
  | call h head tail => exact ⟨_, _, rfl, .inl ⟨_, h, rfl⟩, .inr ⟨_, rfl⟩⟩

/-- What is read before a comma or a parenthesis that closes is an argument without a name. -/
theorem argument_read {m : Mark} (h : a.IsPlain s) (hm : m = .comma ∨ m = .rightParen)
    (read : inner.expr 0 (a.tokens ++ .mark m :: rest) = .ok (a.expr, .mark m :: rest)) :
    argument s inner (a.tokens ++ .mark m :: rest) = .ok (.positional a.expr, .mark m :: rest) := by
  obtain ⟨t, behind, split, begins, second⟩ := exists_first_applied h
  obtain ⟨n, ts, whole, hn⟩ : ∃ n ts, a.tokens ++ .mark m :: rest = t :: .mark n :: ts ∧
      (n = .leftParen ∨ n = .comma ∨ n = .rightParen) := by
    rcases second with rfl | ⟨more, rfl⟩
    · exact ⟨m, rest, by rw [split]; rfl, .inr hm⟩
    · exact ⟨.leftParen, more ++ .mark m :: rest, by rw [split]; rfl, .inl rfl⟩
  have noMark : argumentMark? s.grammar n = none := by rcases hn with rfl | rfl | rfl <;> rfl
  have unnamed : argumentName s (t :: .mark n :: ts) = .ok (none, t :: .mark n :: ts) := by
    have noPair : argumentPair s.grammar (some t) (some (.mark n)) = none := by
      simp only [argumentPair, noMark]
      cases argumentIdent? t <;> rfl
    rw [(argumentName_readsPair s).1]
    simp [noPair]
  have star : (t :: .mark n :: ts).head? ≠ some (.mark .star) := by simpa using begins.ne_mark .star
  have point : starName? (t :: .mark n :: ts) = none := by
    rcases hn with rfl | rfl | rfl <;> simp [starName?]
  rw [whole] at read ⊢
  rw [argument, bind_of_ok unnamed]
  exact bind_of_ok ((starOrExpr_plain inner star point).trans read)

/-- Arguments are read one after the other, up to the parenthesis that closes. -/
theorem arguments_read {n : Nat} (enough : more.length < n) (plain : ∀ a ∈ more, a.IsPlain s)
    (read : ∀ a ∈ first :: more, ∀ m rest, m = .comma ∨ m = .rightParen →
      argument s inner (a.tokens ++ .mark m :: rest) = .ok (.positional a.expr, .mark m :: rest)) :
    commaSeparatedIn s.trailingCommas (argument s inner) n
        (first.tokens ++ (Applied.moreTokens more ++ .mark .rightParen :: rest)) =
      .ok (.positional first.expr :: Applied.moreArguments more, .mark .rightParen :: rest) := by
  induction more generalizing first n with
  | nil =>
    obtain ⟨n, rfl⟩ : ∃ fewer, n = fewer + 1 := ⟨n - 1, by omega⟩
    have one := read first List.mem_cons_self .rightParen rest (.inr rfl)
    exact (bind_of_ok one).trans (bind_of_ok (endsList_close _))
  | cons a more ih =>
    obtain ⟨here, later⟩ := List.forall_mem_cons.mp plain
    obtain ⟨t, behind, split, begins, -⟩ := exists_first_applied here
    let left := Applied.moreTokens more ++ .mark .rightParen :: rest
    have one := read first List.mem_cons_self .comma (a.tokens ++ left) (.inl rfl)
    have goes : endsList s.trailingCommas (.mark .comma :: (a.tokens ++ left)) = .ok (false, a.tokens ++ left) := by
      rw [split]
      exact begins.endsList _
    rw [List.length_cons] at enough
    obtain ⟨n, rfl⟩ : ∃ fewer, n = fewer + 1 := ⟨n - 1, by omega⟩
    have others := ih (n := n) (by omega) later fun b hb => read b (List.mem_cons_of_mem _ hb)
    rw [Applied.moreTokens, List.cons_append, List.append_assoc]
    exact (bind_of_ok one).trans ((bind_of_ok goes).trans (bind_of_ok others))

/-- What may follow a call: nothing, a comma or a parenthesis that closes. -/
def followsArgument : List Token → Bool
  | [] => true
  | .mark m :: _ => m == .comma || m == .rightParen
  | _ => false

theorem followsArgument_cases (h : followsArgument rest) :
    nextPower rest = 0 ∧ rest.head? ≠ some (.mark .period) ∧ rest.head? ≠ some (.mark .leftParen) := by
  unfold followsArgument at h
  split at h
  · exact ⟨rfl, nofun, nofun⟩
  next m more =>
    rcases (by simpa using h : m = .comma ∨ m = .rightParen) with rfl | rfl <;>
      exact ⟨rfl, by simp, by simp⟩
  · cases h

/-- The list between the parentheses of a call is read when its arguments are. -/
theorem argumentList_read (plain : ∀ a ∈ first :: more, a.IsPlain s)
    (read : ∀ a ∈ first :: more, ∀ rest, followsArgument rest → inner.expr 0 (a.tokens ++ rest) = .ok (a.expr, rest)) :
    arguments s inner (first.tokens ++ (Applied.moreTokens more ++ .mark .rightParen :: rest)) =
      .ok (.list none (.positional first.expr :: Applied.moreArguments more), rest) := by
  obtain ⟨head, tail⟩ := List.forall_mem_cons.mp plain
  obtain ⟨t, behind, split, begins, -⟩ := exists_first_applied head
  let ts := first.tokens ++ (Applied.moreTokens more ++ .mark .rightParen :: rest)
  have starts : ts.head? = some t := by simp only [ts, split]; rfl
  have noQuery : atQuery ts = .ok (false, ts) := by
    rw [atQuery_apply, starts]
    simp [begins.ne_word (.inl rfl), begins.ne_word (.inr (.inl rfl))]
  have noWord (k : Keyword) (hk : k = .ALL ∨ k = .DISTINCT) : skipWord k ts = .ok (false, ts) := by
    refine skipWord_other fun name word => ?_
    rw [starts] at word
    obtain rfl := Option.some.inj word
    exact begins.ne_word (.inr (.inr hk)) rfl
  have noQuantifier : quantifier ts = .ok (none, ts) := by
    rw [quantifier, bind_of_ok (noWord .ALL (.inl rfl)), bind_of_ok (noWord .DISTINCT (.inr rfl))]
    rfl
  have noClose : ts.head? ≠ some (.mark .rightParen) := by
    rw [starts]
    simpa using begins.ne_mark .rightParen
  have enough : more.length < ts.length := by
    have commas (more : List Applied) : more.length ≤ (Applied.moreTokens more).length := by
      induction more with
      | nil => exact Nat.le_refl _
      | cons a more ih => simp [Applied.moreTokens]; omega
    have := commas more
    simp only [ts, List.length_append, List.length_cons]
    omega
  have items : commaSeparated s.trailingCommas (argument s inner) ts =
      .ok (.positional first.expr :: Applied.moreArguments more, .mark .rightParen :: rest) := by
    refine arguments_read enough tail fun a ha m rest hm => argument_read (plain a ha) hm (read a ha _ ?_)
    rcases hm with rfl | rfl <;> rfl
  have list : argumentList s inner ts =
      .ok (.list none (.positional first.expr :: Applied.moreArguments more), rest) := by
    rw [argumentList, bind_of_ok (skipMark_other noClose)]
    refine (bind_of_ok noQuantifier).trans ((bind_of_ok items).trans ?_)
    exact bind_of_ok (expectMark_self .rightParen)
  rw [arguments, bind_of_ok noQuery]
  simpa using list

theorem levels_le_of_mem (h : a ∈ more) : a.levels ≤ Applied.moreLevels more := by
  induction more with
  | nil => cases h
  | cons b more ih =>
    rw [Applied.moreLevels]
    rcases List.mem_cons.mp h with rfl | later
    · exact le_max_left _ _
    · exact (ih later).trans (le_max_right _ _)

/-- A call is read up to what follows it. -/
theorem read_applied (h : a.IsPlain s) (room : a.levels < d) (follows : followsArgument rest) :
    (innerIn s d).expr 0 (a.tokens ++ rest) = .ok (a.expr, rest) := by
  induction h generalizing d rest with
  | name h =>
    obtain ⟨d, rfl⟩ : ∃ fewer, d = fewer + 1 := ⟨d - 1, by omega⟩
    obtain ⟨stops, point, paren⟩ := followsArgument_cases follows
    rw [innerIn_expr_succ]
    exact expression_of_operand (ident_read h.column point paren) (Nat.le_of_eq stops)
  | string value =>
    obtain ⟨d, rfl⟩ : ∃ fewer, d = fewer + 1 := ⟨d - 1, by omega⟩
    exact string_read value (Nat.le_of_eq (followsArgument_cases follows).1)
  | @call function first more h head tail ihHead ihTail =>
    obtain ⟨d, rfl⟩ : ∃ fewer, d = fewer + 1 := ⟨d - 1, by omega⟩
    rw [Applied.levels] at room
    have read : ∀ a ∈ first :: more, ∀ rest, followsArgument rest →
        (innerIn s d).expr 0 (a.tokens ++ rest) = .ok (a.expr, rest) := by
      intro a ha rest follows
      rcases List.mem_cons.mp ha with rfl | later
      · exact ihHead (by omega) follows
      · exact ihTail a later (by have := levels_le_of_mem later; omega) follows
    have list : arguments s (innerIn s d) (first.tokens ++ (Applied.moreTokens more ++ .mark .rightParen :: rest)) =
        .ok (.list none (.positional first.expr :: Applied.moreArguments more), rest) :=
      argumentList_read (List.forall_mem_cons.mpr ⟨head, tail⟩) read
    have tokens : (Applied.call function first more).tokens ++ rest = .ofWord function :: .mark .leftParen ::
        (first.tokens ++ (Applied.moreTokens more ++ .mark .rightParen :: rest)) := by simp [Applied.tokens]
    have starts : startsName s.grammar function := by
      cases h.column with
      | plain h => exact h.first
    have call : operand s (innerIn s d) ((Applied.call function first more).tokens ++ rest) =
        .ok ((Applied.call function first more).expr, rest) := by
      rw [tokens, operand_of_startsName starts, nameOrCall_eq, bind_of_ok (nameTail_other _ (by simp))]
      exact (bind_of_ok (skipMark_self .leftParen)).trans ((bind_of_ok list).trans rfl)
    rw [innerIn_expr_succ]
    exact expression_of_operand call (Nat.le_of_eq (followsArgument_cases follows).1)

end Parser

/-- The text of a call is cut into its tokens and read as the call, whatever its strings hold. -/
theorem parseExpr_applied (plain : s.PlainStrings) (h : a.IsPlain s) (room : a.levels < s.recursionLimit) :
    Lexer.scan s a.text = .ok a.tokens ∧ s.parseExpr a.text = .ok a.expr := by
  have cut : Lexer.tokensOf s (a.text.toList ++ []) = .ok (a.tokens ++ []) :=
    (Lexer.tokensOf_applied plain h rfl).mpr rfl
  refine ⟨?_, ParserSettings.parseExpr_of_cut rfl cut (Parser.read_applied h room rfl)⟩
  rwa [List.append_nil, List.append_nil, ← Lexer.scan_eq] at cut

end DetectionPlan.Sql
