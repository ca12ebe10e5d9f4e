/-
Expressions that may stand in the place of a call: by themselves when they are read as one
operand, and between parentheses otherwise.
-/
import DetectionPlan.Proofs.Sql.Filtered
import DetectionPlan.Proofs.Sql.Swap.Query

namespace DetectionPlan.Sql

/-! ## Operands -/

namespace Expr

/-- Whether an expression is read as one operand, whatever stands around it. -/
def isOperand : Expr → Bool
  | .name _ | .literal _ | .nested _ | .call _ => true
  | _ => false

theorem leftOperand?_of_isOperand (e : Expr) (h : e.isOperand) : e.leftOperand? = none := by
  cases e <;> first | rfl | cases h

/-- Whether an expression is a lone word or a text between quotes that may be a name. -/
def isWord : Expr → Bool
  | .name [_] | .literal (.bool _) | .literal .null | .literal (.string .single _)
  | .literal (.string .double _) | .call ⟨_, .absent⟩ => true
  | _ => false

/-- The keyword that an expression begins with, where that stands for a name. -/
def firstKeyword (e : Expr) : Option Keyword :=
  e.firstName.bind fun i => if i.quote.isNone then Keyword.ofWord? i.text else none

/-- An expression that may stand in the place of a call. Between parentheses it is no query. By
itself it begins with no word that is looked for where an operand may begin, it is no lone `FROM`,
and it is no lone word where that could name an argument. -/
structure Placeable (s : ParserSettings) (e : Expr) : Prop where
  noQuery : e.startsQuery = false
  unclaimed : e.isOperand → e.firstKeyword.all (fun k => !k.isClaimed && !(s.mayTrail && k.endsResult))
  result : e.isOperand → e.isResult
  unnamed : s.grammar.namesArgumentsWithEquals → e.isWord = false

end Expr

namespace Parser

variable {s : ParserSettings} {inner inner' : Inner} {ts rest : List Token} {e : Expr}

/-- What takes in an operator is no operand. -/
theorem operatorsIn_operand {power n : Nat} {left : Expr} (h : operatorsIn s inner power n left ts = .ok (e, rest))
    (operand : e.isOperand) : left = e ∧ ts = rest := by
  induction n generalizing left ts with
  | zero => exact Prod.mk.inj (Except.ok.inj h)
  | succ n ih =>
    rw [operatorsIn, get_bind_apply] at h
    split at h
    · obtain ⟨first, mid, hf, h⟩ := bind_eq_ok_iff.mp h
      obtain ⟨rfl, -⟩ := ih h
      have taken : first.leftOperand? = some left := infixExpr_leftOperand left hf
      rw [first.leftOperand?_of_isOperand operand] at taken
      cases taken
    · exact Prod.mk.inj (Except.ok.inj h)

/-! ## What closes with a parenthesis -/

/-- A parser that reads the same whatever stands behind what it has read to the end. -/
def Closed {α : Type} (p : Parser α) : Prop :=
  ∀ ⦃ts : List Token⦄ ⦃a : α⦄, p ts = .ok (a, []) → ∀ rest, p (ts ++ rest) = .ok (a, rest)

theorem Closed.closes {α β : Type} {i o : Nat} {b : Bool} {p p' : Parser α} {g : α → β} (h : Local i o b p p') :
    Closed (do let a ← p; expectMark .rightParen; return g a) := by
  intro ts b hp rest
  obtain ⟨a, mid, ha, hp⟩ := bind_eq_ok_iff.mp hp
  obtain ⟨_, mid', closes, hp⟩ := bind_eq_ok_iff.mp hp
  obtain ⟨rfl, rfl⟩ := Prod.mk.inj (Except.ok.inj hp)
  obtain rfl := expectMark_ok_iff.mp closes
  obtain ⟨front, rfl, -⟩ := h.takes ha
  have framed := h.frame_end (.inl rfl : Hides (.mark .rightParen) rest) ha
  rw [List.append_assoc]
  exact (bind_of_ok framed).trans (bind_of_ok (expectMark_self _))

/-- The arguments of a call, up to the parenthesis that closes them. -/
def argumentItems (s : ParserSettings) (inner : Inner) : Parser Arguments := do
  let q ← quantifier
  return .list q (← commaSeparated s.trailingCommas (argument s inner))

theorem argumentItems_local (h : inner.Local inner') :
    Local 0 0 true (argumentItems s inner) (argumentItems s inner') :=
  quantifier_local.bind_strict fun _ => Local.bind (commaSeparated_local (argument_local h)) fun _ => .pure _

theorem argumentList_closed (h : inner.Local inner') : Closed (argumentList s inner) := by
  have split_ : argumentList s inner = (do
      if ← skipMark .rightParen then return .list none []
      else
        let a ← argumentItems s inner
        expectMark .rightParen
        return a) := by
    refine bind_congr fun found => ?_
    simp only [argumentItems, bind_assoc, pure_bind]
  intro ts a hp rest
  match ts with
  | [] => exact absurd ((argumentList_local (b := true) h).takes_lt hp) (Nat.lt_irrefl _)
  | t :: ts =>
    rw [split_] at hp ⊢
    by_cases close : t = .mark .rightParen
    · subst close
      rw [bind_of_ok (skipMark_self _)] at hp
      obtain ⟨rfl, rfl⟩ := Prod.mk.inj (Except.ok.inj hp)
      exact bind_of_ok (skipMark_self _)
    · have other (ts : List Token) : skipMark .rightParen (t :: ts) = .ok (false, t :: ts) :=
        skipMark_other (by simpa using close)
      rw [bind_of_ok (other ts)] at hp
      exact (bind_of_ok (other (ts ++ rest))).trans (Closed.closes (argumentItems_local h) hp rest)

theorem arguments_closed (h : inner.Local inner') : Closed (arguments s inner) := by
  intro ts a hp rest
  match ts with
  | [] => exact absurd ((arguments_local (b := true) h).takes_lt hp) (Nat.lt_irrefl _)
  | t :: ts =>
    have looks (ts : List Token) : arguments s inner (t :: ts) =
        (if s.grammar.allowsBareSubquery && (wordOf? (some t) == some .SELECT || wordOf? (some t) == some .WITH) then
          (do let q ← inner.query; expectMark .rightParen; return .query q) else argumentList s inner) (t :: ts) :=
      bind_of_ok (atQuery_apply _)
    rw [List.cons_append, looks]
    rw [looks] at hp
    split at hp
    next query =>
      rw [if_pos query]
      exact Closed.closes h.query hp rest
    next list =>
      rw [if_neg list]
      exact argumentList_closed h hp rest

theorem group_closed (h : inner.Local inner') : Closed (group s inner) := by
  rw [group_eq]
  exact .closes (groupItems_local h)

/-! ## What ends with its last token -/

/-- Some tokens of an operand behind its first one, before others that do not go on with it. -/
structure Sealed (p : Parser Expr) (ts rest : List Token) (e : Expr) : Prop where
  read : p (ts ++ rest) = .ok (e, rest)
  parts : (ts ++ rest).head? = some (.mark .period) →
    ∃ parts left, nameTail true (ts ++ rest) = .ok ((parts, false), left)
  marks : ∀ m, (ts ++ rest).head? = some (.mark m) → m = .period ∨ m = .leftParen ∨ e.isWord ∧ m.goesOn = false

/-- A parser that seals the operands that it has read to the end. -/
def Seals (p : Parser Expr) : Prop :=
  ∀ ⦃ts : List Token⦄ ⦃e : Expr⦄, p ts = .ok (e, []) → e.isOperand → ∀ rest,
    (∀ m, rest.head? = some (.mark m) → m.goesOn = false) → Sealed p ts rest e

namespace Seals

variable {p q : Parser Expr}

theorem word (h : e.isWord) : Seals (Pure.pure e) := by
  intro ts e' hp _ rest quiet
  obtain ⟨rfl, rfl⟩ := Prod.mk.inj (Except.ok.inj hp)
  exact ⟨rfl, fun point => absurd (quiet _ point) nofun, fun m hm => .inr (.inr ⟨h, quiet m hm⟩)⟩

theorem compound (h : Answers (fun e => e.isOperand = false) p) : Seals p := by
  intro ts e hp operand
  have compound : e.isOperand = false := h hp
  rw [operand] at compound
  cases compound

/-- Either what a parenthesis closes or nothing. -/
theorem skipMark_bind {f : Bool → Parser Expr} (yes : Closed (f true)) (no : Seals (f false))
    (idle : ∀ {ts e}, f false ts = .ok (e, []) → e.isOperand → ts = []) : Seals (skipMark .leftParen >>= f) := by
  intro ts e hp operand rest quiet
  by_cases first : ts.head? = some (.mark .leftParen)
  · obtain ⟨ts, rfl⟩ := List.head?_eq_some_iff.mp first
    rw [bind_of_ok (skipMark_self _)] at hp
    refine ⟨(bind_of_ok (skipMark_self _)).trans (yes hp rest), nofun, fun m hm => ?_⟩
    obtain rfl : Mark.leftParen = m := by simpa using hm
    exact .inr (.inl rfl)
  · rw [bind_of_ok (skipMark_other first)] at hp
    obtain rfl := idle hp operand
    have closed : rest.head? ≠ some (.mark .leftParen) := fun open_ => absurd (quiet _ open_) nofun
    obtain ⟨read, parts, marks⟩ := no hp operand rest quiet
    exact ⟨(bind_of_ok (skipMark_other closed)).trans read, parts, marks⟩

end Seals

theorem wordCall_seals (h : inner.Local inner') (name : Ident) : Seals (wordCall s inner name) := by
  refine .skipMark_bind ?_ (.word rfl) ?_
  · intro ts e hp rest
    obtain ⟨a, mid, ha, hp⟩ := bind_eq_ok_iff.mp hp
    obtain ⟨rfl, rfl⟩ := Prod.mk.inj (Except.ok.inj hp)
    exact (bind_of_ok (argumentList_closed h ha rest)).trans rfl
  · intro ts e hp _
    exact (Prod.mk.inj (Except.ok.inj hp)).2

/-- The parts of a name may stand before what does not go on with them. -/
theorem NameTail.before {star : Bool} {mid rest ts : List Token} {r : List Ident × Bool} (h : NameTail star mid ts r)
    (plain : r.2 = false) (point : (mid ++ rest).head? ≠ some (.mark .period)) :
    NameTail star (mid ++ rest) (ts ++ rest) r := by
  induction h with
  | none _ => exact .none point
  | all _ => cases plain
  | part h _ ih => exact .part h (ih plain)

theorem NameTail.none_or {star : Bool} {mid ts : List Token} {r : List Ident × Bool} (h : NameTail star mid ts r) :
    (ts = mid ∧ r = ([], false)) ∨ ∃ more, ts = .mark .period :: more := by
  cases h with
  | none _ => exact .inl ⟨rfl, rfl⟩
  | all _ | part _ _ => exact .inr ⟨_, rfl⟩

theorem nameEnd_cases {first : Ident} {parts : List Ident} {mid rest : List Token} {e : Expr}
    (h : nameEnd s inner first (parts, false) mid = .ok (e, rest)) :
    (mid = rest ∧ e = .name (first :: parts)) ∨ ∃ more a, mid = .mark .leftParen :: more ∧
      arguments s inner more = .ok (a, rest) ∧ e = .call ⟨first :: parts, a⟩ := by
  by_cases open_ : mid.head? = some (.mark .leftParen)
  · obtain ⟨more, rfl⟩ := List.head?_eq_some_iff.mp open_
    obtain ⟨a, left, ha, h⟩ := bind_eq_ok_iff.mp ((bind_of_ok (skipMark_self _)).symm.trans h)
    obtain ⟨rfl, rfl⟩ := Prod.mk.inj (Except.ok.inj h)
    exact .inr ⟨more, a, rfl, ha, rfl⟩
  · obtain ⟨rfl, rfl⟩ := Prod.mk.inj (Except.ok.inj ((bind_of_ok (skipMark_other open_)).symm.trans h))
    exact .inl ⟨rfl, rfl⟩

theorem nameOrCall_seals (h : inner.Local inner') (first : Ident) : Seals (nameOrCall s inner first) := by
  intro ts e hp operand rest quiet
  rw [nameOrCall_eq] at hp ⊢
  obtain ⟨⟨parts, star⟩, mid, tail, hp⟩ := bind_eq_ok_iff.mp hp
  cases star with
  | true =>
    obtain ⟨rfl, -⟩ := Prod.mk.inj (Except.ok.inj hp)
    cases operand
  | false =>
    have ends := nameEnd_cases hp
    have closed : rest.head? ≠ some (.mark .leftParen) := fun open_ => absurd (quiet _ open_) nofun
    have point : (mid ++ rest).head? ≠ some (.mark .period) := by
      obtain ⟨rfl, -⟩ | ⟨more, a, rfl, -⟩ := ends
      · exact fun point => absurd (quiet _ point) nofun
      · nofun
    have read : nameEnd s inner first (parts, false) (mid ++ rest) = .ok (e, rest) := by
      obtain ⟨rfl, rfl⟩ | ⟨more, a, rfl, ha, rfl⟩ := ends
      · exact bind_of_ok (skipMark_other closed)
      · exact (bind_of_ok (skipMark_self _)).trans (bind_of_ok (arguments_closed h ha rest))
    have tail := NameTail.of_read tail
    have tail' : NameTail _ (mid ++ rest) (ts ++ rest) (parts, false) := tail.before rfl point
    refine ⟨(bind_of_ok tail'.read).trans read, fun _ => ⟨parts, _, tail'.stars.read⟩, fun m hm => ?_⟩
    obtain ⟨rfl, made⟩ | ⟨more, rfl⟩ := tail.none_or
    · obtain ⟨rfl, -⟩ := Prod.mk.inj made
      obtain ⟨rfl, rfl⟩ | ⟨more, a, rfl, -, -⟩ := ends
      · exact .inr (.inr ⟨rfl, quiet m hm⟩)
      · exact .inr (.inl (Token.mark.inj (Option.some.inj hm)).symm)
    · exact .inl (Token.mark.inj (Option.some.inj hm)).symm

/-- What is read behind a keyword that an expression begins with: nothing, where it is a literal or a
call by itself, a call or a name that begins with it, or what is no operand. -/
inductive KeywordForm (s : ParserSettings) (inner : Inner) (name : Ident) : Keyword → Parser Expr → Prop
  | literal {k : Keyword} {value : Literal} (is : k = .TRUE ∨ k = .FALSE ∨ k = .NULL)
    (lone : (Expr.literal value).isWord) : KeywordForm s inner name k (Pure.pure (.literal value))
  | alone {k : Keyword} : KeywordForm s inner name k (Pure.pure (.call ⟨[name], .absent⟩))
  | wordCall {k : Keyword} : KeywordForm s inner name k (wordCall s inner name)
  | nameOrCall {k : Keyword} : KeywordForm s inner name k (nameOrCall s inner name)
  | compound {k : Keyword} {p : Parser Expr} (h : Answers (fun e => e.isOperand = false) p) :
    KeywordForm s inner name k p

theorem keywordExpr_form (name : Ident) (k : Keyword) : KeywordForm s inner name k (keywordExpr s inner name k) := by
  have branches (operand : Option Expr) : Answers (fun e => e.isOperand = false) (caseBranches inner operand) :=
    .bind fun _ => .bind fun _ => .bind fun _ => .pure rfl
  have cast (style : CastStyle) : Answers (fun e => e.isOperand = false) (castExpr inner style) :=
    .parenthesised (.bind fun _ => .bind fun _ => .bind fun _ => .pure rfl)
  have rounding (upward : Bool) : Answers (fun e => e.isOperand = false) (roundingExpr inner upward) := by
    refine .parenthesised (.bind fun _ => .bind fun _ => .ite (.bind fun t => ?_) (.pure rfl))
    split
    · exact .pure rfl
    · exact .fail
  have exists_ (negated : Bool) : Answers (fun e => e.isOperand = false) (existsExpr inner negated) :=
    .bind fun _ => .pure rfl
  have user {k : Keyword} : KeywordForm s inner name k
      (if s.grammar.hasUserWords then return .call ⟨[name], .absent⟩ else nameOrCall s inner name) := by
    split
    · exact .alone
    · exact .nameOrCall
  unfold keywordExpr
  split
  iterate 3 exact .literal (by simp) rfl
  iterate 5 exact .wordCall
  iterate 4 exact user
  · exact .compound (.bind fun _ => .ite (branches none) (.bind fun e => .bind fun _ => branches (some e)))
  iterate 3 exact .compound (cast _)
  iterate 2 exact .compound (rounding _)
  · exact .compound (exists_ false)
  · exact .compound (.bind fun _ => .ite (exists_ true) (.bind fun _ => .pure rfl))
  · exact .nameOrCall

theorem keywordExpr_seals (h : inner.Local inner') (name : Ident) (k : Keyword) :
    Seals (keywordExpr s inner name k) := by
  have form : KeywordForm s inner name k (keywordExpr s inner name k) := keywordExpr_form name k
  generalize keywordExpr s inner name k = p at form ⊢
  cases form with
  | literal _ lone => exact .word lone
  | alone => exact .word rfl
  | wordCall => exact wordCall_seals h name
  | nameOrCall => exact nameOrCall_seals h name
  | compound h => exact .compound h

/-- The word of a keyword that an operand begins with is a literal or a name. -/
theorem keywordExpr_first (name : Ident) (k : Keyword) : Answers (fun e => e.isOperand → e.firstName = some name ∨
    k = .TRUE ∨ k = .FALSE ∨ k = .NULL) (keywordExpr s inner name k) := by
  have form : KeywordForm s inner name k (keywordExpr s inner name k) := keywordExpr_form name k
  generalize keywordExpr s inner name k = p at form ⊢
  cases form with
  | literal is _ => exact .pure fun _ => .inr is
  | alone => exact .pure fun _ => .inl rfl
  | wordCall => exact .bind fun _ => .ite (.bind fun _ => .pure fun _ => .inl rfl) (.pure fun _ => .inl rfl)
  | nameOrCall =>
    refine .bind fun _ => .ite (.pure fun _ => .inl rfl) (.bind fun _ => .ite ?_ (.pure fun _ => .inl rfl))
    exact .bind fun _ => .pure fun _ => .inl rfl
  | compound h =>
    intro ts rest e hp operand
    have compound : e.isOperand = false := h hp
    rw [operand] at compound
    cases compound

variable {P : Token → Prop}

namespace Sealed

variable {p : Parser Expr} {t : Token}

theorem plain (h : Sealed p ts rest e) (star : t ≠ .mark .star) : Plain (t :: ts ++ rest) := by
  refine ⟨fun first => star (Option.some.inj first), fun name named => ?_⟩
  obtain ⟨t, more, same, -⟩ := starName?_of_some named
  obtain ⟨-, same⟩ := List.cons.inj same
  exact h.parts (congrArg List.head? same)

theorem unnamed (h : Sealed p ts rest e) (named : s.grammar.namesArgumentsWithEquals → e.isWord = false) :
    Unnamed s (t :: ts ++ rest) := by
  refine .of_mark fun m hm => ?_
  obtain rfl | rfl | ⟨word, ends⟩ := h.marks m hm
  · rfl
  · rfl
  · unfold argumentMark?
    split
    · cases ends
    · exact if_neg fun named' => absurd word (by simp [named named'])
    · rfl

/-- What is read behind a word fits with it. -/
theorem fits {name : Ident} {k : Option Keyword}
    (again : ∀ rest, (∀ m, rest.head? = some (.mark m) → m.goesOn = false) → Sealed p ts rest e)
    (same : ∀ ts, operand s inner (.word name k :: ts) = p ts) (opens : Opens s (some (.word name k)))
    (named : s.grammar.namesArgumentsWithEquals → e.isWord = false) (known : ∀ t ∈ Token.word name k :: ts, P t) :
    Fits s P inner e := by
  refine ⟨_, known, opens, fun rest quiet => ?_⟩
  have sealed_ := again rest quiet
  exact ⟨(same _).trans sealed_.read, sealed_.plain nofun, sealed_.unnamed named⟩

end Sealed

/-- A literal that is a token by itself. -/
theorem fits_literal {t : Token} {value : Literal}
    (read : ∀ rest, operand s inner (t :: rest) = .ok (.literal value, rest)) (opens : Opens s (some t)) (known : P t)
    (star : t ≠ .mark .star)
    (named : argumentIdent? t = none ∨ s.grammar.namesArgumentsWithEquals = false) :
    Fits s P inner (.literal value) := by
  refine ⟨[t], by simpa using known, opens, fun rest quiet => ⟨read rest, ?_, ?_⟩⟩
  · exact .of_point star fun point => absurd (quiet _ point) nofun
  · obtain none | none := named
    · exact .of_ident none
    · refine .of_mark fun m hm => ?_
      unfold argumentMark?
      split
      · cases quiet _ hm
      · simp [none]
      · rfl

theorem plain_leftParen (rest : List Token) : Plain (.mark .leftParen :: rest) := by
  refine ⟨nofun, fun name named => ?_⟩
  obtain ⟨t, more, same, part⟩ := starName?_of_some named
  obtain ⟨rfl, -⟩ := List.cons.inj same
  cases part

/-- An operand that was read to the end is read again before what does not go on with it. -/
theorem operand_fits (h : inner.Local inner') (spelled : ∀ t ∈ ts, Lexer.KeywordSpelled t)
    (read : operand s inner ts = .ok (e, [])) (operand_ : e.isOperand) (placeable : e.Placeable s)
    (known : ∀ t ∈ ts, P t) : Fits s P inner e := by
  match ts with
  | [] => cases read
  | .word name none :: ts =>
    have same (ts : List Token) : operand s inner (.word name none :: ts) = nameOrCall s inner name ts :=
      bind_of_ok (take_cons _)
    rw [same] at read
    exact Sealed.fits (nameOrCall_seals h name read operand_) same nofun placeable.unnamed known
  | .word name (some k) :: ts =>
    have same (ts : List Token) : operand s inner (.word name (some k) :: ts) = keywordExpr s inner name k ts :=
      bind_of_ok (take_cons _)
    rw [same] at read
    refine Sealed.fits (keywordExpr_seals h name k read operand_) same ?_ placeable.unnamed known
    rintro _ ⟨⟩
    obtain first | rfl | rfl | rfl := keywordExpr_first name k read operand_
    · obtain ⟨quote, text⟩ := spelled _ List.mem_cons_self name k rfl
      have unclaimed := placeable.unclaimed operand_
      rw [Expr.firstKeyword, first, Option.bind_some, quote, Option.isNone_none, if_pos rfl, text] at unclaimed
      simp only [Option.all_some, Bool.and_eq_true, Bool.not_eq_true', Bool.and_eq_false_imp] at unclaimed
      exact unclaimed
    all_goals exact ⟨rfl, fun _ => rfl⟩
  | .number digits long :: ts =>
    obtain ⟨rfl, rfl⟩ := Prod.mk.inj (Except.ok.inj read)
    exact fits_literal (t := .number digits long) (fun _ => rfl) trivial (known _ List.mem_cons_self) nofun (.inl rfl)
  | .string kind text :: ts =>
    obtain ⟨rfl, rfl⟩ := Prod.mk.inj (Except.ok.inj read)
    refine fits_literal (t := .string kind text) (fun _ => rfl) trivial (known _ List.mem_cons_self) nofun ?_
    have named := placeable.unnamed
    cases kind with
    | single | double => exact .inr (by simpa [Expr.isWord] using named)
    | national | hex | triple => exact .inl rfl
  | .other c :: ts => cases read
  | .mark m :: ts =>
    cases m
    case leftParen =>
      have same (ts : List Token) : operand s inner (.mark .leftParen :: ts) = group s inner ts :=
        bind_of_ok (take_cons _)
      rw [same] at read
      refine ⟨_, known, trivial, fun rest _ => ⟨?_, plain_leftParen _, .of_ident rfl⟩⟩
      exact (same _).trans (group_closed h read rest)
    case minus | plus =>
      obtain ⟨left, mid, -, read⟩ := bind_eq_ok_iff.mp ((bind_of_ok (take_cons _)).symm.trans read)
      obtain ⟨rfl, -⟩ := Prod.mk.inj (Except.ok.inj read)
      cases operand_
    all_goals cases read

/-- Whatever is read to the end as an expression may stand as an operand, between parentheses if it is none. -/
theorem fits_of_read {m d : Nat} (spelled : ∀ t ∈ ts, Lexer.KeywordSpelled t)
    (read : (innerIn s m).expr 0 ts = .ok (e, [])) (placeable : e.Placeable s) (known : ∀ t ∈ ts, P t)
    (open_ : P (.mark .leftParen)) (close : P (.mark .rightParen)) (le : m ≤ d) :
    Fits s P (innerIn s d) (if e.isOperand then e else .nested e) := by
  split
  next operand_ =>
    cases m with
    | zero =>
      rw [innerIn_expr_zero] at read
      cases read
    | succ m =>
      rw [innerIn_expr_succ] at read
      obtain ⟨left, mid, hl, read⟩ := bind_eq_ok_iff.mp read
      obtain ⟨rfl, rfl⟩ := operatorsIn_operand read operand_
      have deeper : Local 0 0 true (operand s (innerIn s m)) (operand s (innerIn s d)) :=
        operand_local (innerIn_local s (Nat.le_of_succ_le le))
      have read' := (deeper.deeper (by rw [hl]; nofun)).trans hl
      exact operand_fits (innerIn_local s (Nat.le_refl d)) spelled read' operand_ placeable known
  next =>
    have given : ts ≠ [] := by
      rintro rfl
      exact absurd (((innerIn_local s (Nat.le_refl m)).expr 0).takes_lt read) (Nat.lt_irrefl _)
    have read' : (innerIn s m).expr 0 (ts ++ []) = .ok (e, []) := by rwa [List.append_nil]
    have noQuery {k : Keyword} (hk : k = .SELECT ∨ k = .WITH) : wordOf? ts.head? ≠ some k :=
      Filterable.first_of_startsQuery hk spelled read' placeable.noQuery
    have opens : Opens s (Token.mark .leftParen :: ts ++ [Token.mark .rightParen]).head? := trivial
    refine ⟨_, by simpa [open_, close, or_imp, forall_and] using known, opens, fun rest _ => ?_⟩
    refine ⟨?_, plain_leftParen _, ?_⟩
    · have closes : Ends (.mark .rightParen :: rest) := ⟨_, _, rfl, .inl rfl⟩
      have inside := @innerIn_edge s m 0 ts [] _ _ closes (Nat.zero_le _) read'
      have deeper := ((innerIn_local s le).expr 0).deeper (by rw [inside]; nofun)
      have first : (ts ++ .mark .rightParen :: rest).head? = ts.head? := by
        cases ts with
        | nil => exact absurd rfl given
        | cons t ts => rfl
      have whole := nested_read (s := s) (by simp) (first ▸ noQuery (.inl rfl)) (first ▸ noQuery (.inr rfl))
        (deeper.trans inside)
      simpa using whole
    · exact .of_ident rfl

end Parser

end DetectionPlan.Sql
