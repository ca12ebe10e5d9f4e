/-
Expressions are read locally when what nests in them is.
-/
import DetectionPlan.Proofs.Sql.Local.Basic

namespace DetectionPlan.Sql.Parser

open Local

variable {b : Bool}

/-! ## Types -/

theorem typeArgument_local : Local 0 0 b typeArgument typeArgument := by
  refine take_bind fun t => ?_
  cases t with
  | word name k =>
    cases k with
    | none => exact .word (.pure _)
    | some k => exact .fail
  | number digits long => exact .number (.pure _)
  | string | mark | other => exact .fail

/-- The arguments of a type, if it has any. -/
def typeArguments : Parser (List String) := do
  if (← peek) == some (.mark .leftParen) then parenthesised (commaSeparated false typeArgument)
  else return []

/-- The type of a name, which may be one that is written in capitals. -/
def typeNamed (name : Ident) (arguments : List String) : DataType :=
  let capitals := asciiUpper name.text
  if name.quote == none && knownTypes.contains capitals then ⟨capitals, arguments⟩
  else ⟨name.text, arguments⟩

theorem dataType_eq :
    dataType = (do let name ← ident; return typeNamed name (← typeArguments)) := by
  unfold dataType typeArguments typeNamed
  refine bind_congr fun name => ?_
  rw [bind_assoc]
  refine bind_congr fun first => ?_
  split <;> exact bind_congr fun arguments => (apply_ite Pure.pure ..).symm

theorem typeArguments_local : Local 0 0 false typeArguments typeArguments :=
  peek_bind fun _ => .ite (.parenthesised (commaSeparated_local typeArgument_local)) (.pure _)

theorem dataType_local : Local 0 0 b dataType dataType := by
  rw [dataType_eq]
  exact bind ident_local fun name => typeArguments_local.bind fun _ => .pure _

/-! ## Results and arguments -/

/-- Parsers that are local, for what nests one level deeper. -/
structure Inner.Local (inner inner' : Inner) : Prop where
  expr (power : Nat) : Parser.Local 0 0 true (inner.expr power) (inner'.expr power)
  query : Parser.Local 0 0 true inner.query inner'.query

variable {s : ParserSettings} {inner inner' : Inner}

/-- The name that an argument or a result may start with, when a point follows. -/
def starName? (ts : List Token) : Option Ident :=
  if ts[1]? = some (.mark .period) then ts[0]?.bind partOf? else none

theorem starOrExpr_star (inner : Inner) (rest : List Token) :
    starOrExpr inner (.mark .star :: rest) = .ok (.star [], rest) := rfl

theorem starOrExpr_plain (inner : Inner) {ts : List Token} (star : ts.head? ≠ some (.mark .star))
    (name : starName? ts = none) : starOrExpr inner ts = inner.expr 0 ts := by
  unfold starOrExpr
  rw [get_bind_apply]
  split
  · simp at star
  · simp [starName?, partOf?] at name
  · simp [starName?, partOf?] at name
  · rfl

theorem starOrExpr_name (inner : Inner) {ts : List Token} {name : Ident}
    (h : starName? ts = some name) :
    starOrExpr inner ts = match nameTail true (ts.drop 1) with
      | .ok ((parts, true), rest) => .ok (.star (name :: parts), rest)
      | .ok ((_, false), _) => inner.expr 0 ts
      | .error e => .error e := by
  unfold starName? at h
  split at h
  next point =>
    obtain ⟨t, ht, part⟩ := Option.bind_eq_some_iff.mp h
    match ts, ht, point with
    | t :: _ :: rest, rfl, rfl =>
      unfold partOf? at part
      split at part
      all_goals cases part
      all_goals
        unfold starOrExpr
        rw [get_bind_apply, List.drop_succ_cons, List.drop_zero]
        simp only
        cases nameTail true (.mark .period :: rest) with
        | error e => rfl
        | ok r =>
          obtain ⟨⟨parts, star⟩, rest'⟩ := r
          cases star <;> rfl
  · cases h

theorem starName?_of_some {ts : List Token} {name : Ident} (h : starName? ts = some name) :
    ∃ t rest, ts = t :: .mark .period :: rest ∧ partOf? t = some name := by
  unfold starName? at h
  split at h
  next point =>
    obtain ⟨t, ht, part⟩ := Option.bind_eq_some_iff.mp h
    match ts, ht, point with
    | t :: _ :: rest, rfl, rfl => exact ⟨t, rest, rfl, part⟩
  · cases h

theorem nest_of_partOf? {i : Nat} {t : Token} {name : Ident} (h : partOf? t = some name) :
    nest i t = some i := by
  refine nest_plain i ?_ ?_ <;> rintro rfl <;> cases h

theorem starOrExpr_takes (h : inner.Local inner') {ts rest : List Token} {a : Expr}
    (hp : starOrExpr inner ts = .ok (a, rest)) :
    ∃ front, ts = front ++ rest ∧ Chunk 0 0 true front := by
  by_cases star : ts.head? = some (.mark .star)
  · obtain ⟨rest', rfl⟩ := List.head?_eq_some_iff.mp star
    obtain ⟨-, rfl⟩ := Prod.mk.inj (Except.ok.inj ((starOrExpr_star inner rest').symm.trans hp))
    exact ⟨[.mark .star], rfl, .cons (nest_plain 0 nofun nofun) (.nil 0) nofun⟩
  · cases name : starName? ts with
    | none => exact (h.expr 0).takes (starOrExpr_plain inner star name ▸ hp)
    | some name' =>
      rw [starOrExpr_name inner name] at hp
      obtain ⟨t, more, rfl, part⟩ := starName?_of_some name
      split at hp
      next parts rest' tail =>
        obtain ⟨-, rfl⟩ := Prod.mk.inj (Except.ok.inj hp)
        obtain ⟨front, e, chunk⟩ := (nameTail_local (i := 0) true).takes tail
        refine ⟨t :: front, by simpa using e, .cons (nest_of_partOf? part) chunk ?_⟩
        rintro rfl
        cases part
      · exact (h.expr 0).takes hp
      · cases hp

/-- The first two tokens decide what is read. -/
theorem starName?_append (t m : Token) (front after after' : List Token) :
    starName? (t :: front ++ m :: after) = starName? (t :: front ++ m :: after') := by
  cases front <;> simp [starName?]

theorem starOrExpr_deeper (h : inner.Local inner') {ts : List Token}
    (hp : starOrExpr inner ts ≠ .error .nesting) : starOrExpr inner' ts = starOrExpr inner ts := by
  by_cases star : ts.head? = some (.mark .star)
  · obtain ⟨rest', rfl⟩ := List.head?_eq_some_iff.mp star
    rfl
  · cases name : starName? ts with
    | none =>
      rw [starOrExpr_plain inner star name] at hp ⊢
      rw [starOrExpr_plain inner' star name, (h.expr 0).deeper hp]
    | some name' =>
      rw [starOrExpr_name inner name] at hp ⊢
      rw [starOrExpr_name inner' name]
      split at hp
      · rfl
      · exact (h.expr 0).deeper hp
      · rfl

/-- What is read does not depend on what is hidden, unless the first token is a star. -/
theorem starOrExpr_frame_cons (h : inner.Local inner') {t m : Token} {front left after after' : List Token}
    {a : Expr} (star : t ≠ .mark .star) (hides : Hides m after')
    (hp : starOrExpr inner (t :: front ++ m :: after) = .ok (a, left ++ m :: after)) :
    starOrExpr inner (t :: front ++ m :: after') = .ok (a, left ++ m :: after') := by
  have first (after : List Token) : (t :: front ++ m :: after).head? ≠ some (.mark .star) := by
    simpa using star
  have drop (after : List Token) : (t :: front ++ m :: after).drop 1 = front ++ m :: after := rfl
  have same := starName?_append t m front after after'
  cases name : starName? (t :: front ++ m :: after) with
  | none =>
    rw [starOrExpr_plain inner (first _) name] at hp
    rw [starOrExpr_plain inner (first _) (same ▸ name)]
    exact (h.expr 0).frame hides hp
  | some name' =>
    rw [starOrExpr_name inner name, drop] at hp
    rw [starOrExpr_name inner (same ▸ name), drop]
    split at hp
    next parts rest tail =>
      obtain ⟨rfl, rfl⟩ := Prod.mk.inj (Except.ok.inj hp)
      rw [(nameTail_local (i := 0) true).frame hides tail]
    next parts rest tail =>
      -- The parts found so far are given up, so they may be others behind what is hidden.
      obtain ⟨parts', rest', tail'⟩ := nameTail_plain hides tail
      rw [tail']
      exact (h.expr 0).frame hides hp
    · cases hp

theorem starOrExpr_frame (h : inner.Local inner') {front left : List Token} {m : Token} {after after' : List Token}
    {a : Expr} (hides : Hides m after') (hp : starOrExpr inner (front ++ m :: after) = .ok (a, left ++ m :: after)) :
    starOrExpr inner (front ++ m :: after') = .ok (a, left ++ m :: after') := by
  match front with
  | [] =>
    obtain ⟨taken, e, chunk⟩ := starOrExpr_takes h hp
    have := List.length_pos_of_ne_nil (chunk.taken rfl)
    have := congrArg List.length e
    simp at this
    omega
  | t :: front =>
    by_cases star : t = .mark .star
    · subst star
      rw [List.cons_append, starOrExpr_star] at hp ⊢
      obtain ⟨rfl, e⟩ := Prod.mk.inj (Except.ok.inj hp)
      rw [List.append_cancel_right e]
    · exact starOrExpr_frame_cons h star hides hp

/-- A fault before a parenthesis that closes stays, unless the first token is a star. -/
theorem starOrExpr_fault_cons (h : inner.Local inner') {t : Token} {front after after' : List Token}
    {e : SyntaxFault} (star : t ≠ .mark .star) (depth : depthAfter 0 (t :: front) = some 0)
    (hp : starOrExpr inner (t :: front ++ .mark .rightParen :: after) = .error e) :
    starOrExpr inner (t :: front ++ .mark .rightParen :: after') = .error e := by
  have first (after : List Token) :
      (t :: front ++ .mark .rightParen :: after).head? ≠ some (.mark .star) := by simpa using star
  have drop (after : List Token) : (t :: front ++ .mark .rightParen :: after).drop 1 =
      front ++ .mark .rightParen :: after := rfl
  have same := starName?_append t (.mark .rightParen) front after after'
  cases name : starName? (t :: front ++ .mark .rightParen :: after) with
  | none =>
    rw [starOrExpr_plain inner (first _) name] at hp
    rw [starOrExpr_plain inner (first _) (same ▸ name)]
    exact (h.expr 0).fault depth hp
  | some name' =>
    obtain ⟨u, more, split, part⟩ := starName?_of_some name
    obtain rfl := (List.cons.inj split).1
    have rest := depth
    rw [depthAfter_cons, nest_of_partOf? part] at rest
    rw [starOrExpr_name inner name, drop] at hp
    rw [starOrExpr_name inner (same ▸ name), drop]
    split at hp
    · cases hp
    next parts _ tail =>
      obtain ⟨parts', rest', tail'⟩ := nameTail_plain (.inl rfl) tail
      rw [tail']
      exact (h.expr 0).fault depth hp
    next f tail =>
      rw [(nameTail_local (i := 0) true).fault rest tail]
      exact hp

theorem starOrExpr_fault (h : inner.Local inner') {front after after' : List Token} {e : SyntaxFault}
    (depth : depthAfter 0 front = some 0)
    (hp : starOrExpr inner (front ++ .mark .rightParen :: after) = .error e) :
    starOrExpr inner (front ++ .mark .rightParen :: after') = .error e := by
  match front with
  | [] =>
    have none (rest : List Token) : starName? (.mark .rightParen :: rest) = none := by
      simp [starName?, partOf?]
    rw [List.nil_append, starOrExpr_plain inner (by simp) (none _)] at hp ⊢
    exact (h.expr 0).fault depth hp
  | t :: front =>
    by_cases star : t = .mark .star
    · subst star
      cases hp
    · exact starOrExpr_fault_cons h star depth hp

theorem starOrExpr_local (h : inner.Local inner') :
    Parser.Local 0 0 true (starOrExpr inner) (starOrExpr inner') where
  takes := starOrExpr_takes h
  deeper := starOrExpr_deeper h
  frame := starOrExpr_frame h
  fault := starOrExpr_fault h

/-- The name of an argument. -/
def argumentIdent? : Token → Option Ident
  | .word name _ => some name
  | .string .single text => some ⟨text, some '\x27'⟩
  | .string .double text => some ⟨text, some '"'⟩
  | _ => none

/-- The name and mark that two tokens are. -/
def argumentPair (g : Grammar) : Option Token → Option Token → Option (Option (Ident × ArgumentMark))
  | some t, some (.mark m) => do
    let name ← argumentIdent? t
    let mark ← argumentMark? g m
    return some (name, mark)
  | _, _ => none

theorem argumentMark?_arrow_or_eq {g : Grammar} {m : Mark} {mark : ArgumentMark}
    (h : argumentMark? g m = some mark) : m = .arrow ∨ m = .eq := by
  unfold argumentMark? at h
  split at h
  · exact .inl rfl
  · exact .inr rfl
  · cases h

theorem argumentName_readsPair (s : ParserSettings) :
    ReadsPair (argumentPair s.grammar) none (argumentName s) := by
  constructor
  · intro ts
    unfold argumentName
    rw [get_bind_apply]
    split
    iterate 3
      next m rest =>
        cases h : argumentMark? s.grammar m <;> simp [argumentPair, argumentIdent?, h]
    next word single double =>
      have other : argumentPair s.grammar ts[0]? ts[1]? = none := by
        unfold argumentPair
        split
        next t m ht hm =>
          have none : argumentIdent? t = none := by
            match ts, ht, hm with
            | t :: _ :: rest, rfl, rfl =>
              unfold argumentIdent?
              split
              · exact absurd rfl (word _ _ _ _)
              · exact absurd rfl (single _ _ _)
              · exact absurd rfl (double _ _ _)
              · rfl
          rw [none]
          rfl
        · rfl
      rw [other]
      rfl
  · intro first second a h
    unfold argumentPair at h
    split at h
    next t m =>
      obtain ⟨name, hn, h⟩ := Option.bind_eq_some_iff.mp h
      obtain ⟨mark, hm, -⟩ := Option.bind_eq_some_iff.mp h
      refine ⟨t, .mark m, rfl, rfl, ?_, ?_, ?_, ?_, ?_, nofun⟩
      · rintro rfl
        cases hn
      · rintro rfl
        cases hn
      all_goals
        rcases argumentMark?_arrow_or_eq hm with rfl | rfl <;> nofun
    · cases h

theorem argument_local (h : inner.Local inner') :
    Parser.Local 0 0 true (argument s inner) (argument s inner') := by
  refine (argumentName_readsPair s).local.bind_strict fun found => ?_
  cases found with
  | none => exact (starOrExpr_local h).bind fun e => .pure _
  | some r => exact (starOrExpr_local h).bind fun e => .pure _

theorem quantifier_local {i : Nat} : Parser.Local i i false quantifier quantifier := by
  refine skipWord_local.bind fun all => skipWord_local.bind fun distinct => ?_
  cases all <;> cases distinct
  · exact .pure _
  · exact .pure _
  · exact .pure _
  · exact .fail

theorem argumentList_local (h : inner.Local inner') :
    Parser.Local 1 0 b (argumentList s inner) (argumentList s inner') := by
  refine skipMark_ite rfl nofun (.pure _) ?_
  refine quantifier_local.bind_strict fun q => ?_
  refine bind (commaSeparated_local (argument_local h)).lift fun items => ?_
  exact closes.bind fun _ => .pure _

theorem atQuery_bind {α : Type} {i o : Nat} {f f' : Bool → Parser α}
    (h : ∀ found, Parser.Local i o b (f found) (f' found)) :
    Parser.Local i o b (atQuery >>= f) (atQuery >>= f') := by
  unfold atQuery
  rw [bind_assoc, bind_assoc]
  exact peekWord_bind fun k => h _

theorem arguments_local (h : inner.Local inner') :
    Parser.Local 1 0 b (arguments s inner) (arguments s inner') := by
  refine atQuery_bind fun found => .ite ?_ (argumentList_local h)
  exact bind h.query.weaken.lift fun q => closes.bind fun _ => .pure _

/-- What is made of the parts of a name. -/
def nameEnd (s : ParserSettings) (inner : Inner) (first : Ident) (r : List Ident × Bool) :
    Parser Expr := do
  if r.2 then return .star (first :: r.1)
  else if ← skipMark .leftParen then return .call ⟨first :: r.1, ← arguments s inner⟩
  else return .name (first :: r.1)

theorem nameOrCall_eq (s : ParserSettings) (inner : Inner) (first : Ident) :
    nameOrCall s inner first = nameTail s.grammar.allowsStarValue >>= nameEnd s inner first := rfl

theorem nameEnd_local (h : inner.Local inner') (first : Ident) (r : List Ident × Bool) :
    Parser.Local 0 0 false (nameEnd s inner first r) (nameEnd s inner' first r) := by
  refine .ite (.pure _) ?_
  exact skipMark_ite rfl nofun (bind (arguments_local h) fun _ => .pure _) (.pure _)

theorem nameOrCall_local (h : inner.Local inner') (first : Ident) :
    Parser.Local 0 0 false (nameOrCall s inner first) (nameOrCall s inner' first) :=
  (nameTail_local _).bind fun r => nameEnd_local h first r

theorem wordCall_local (h : inner.Local inner') (name : Ident) :
    Parser.Local 0 0 false (wordCall s inner name) (wordCall s inner' name) :=
  skipMark_ite rfl nofun (bind (argumentList_local h) fun _ => .pure _) (.pure _)

/-! ## Operands -/

/-- What stands between parentheses. -/
def groupItems (s : ParserSettings) (inner : Inner) : Parser Expr := do
  if ← atQuery then return .query (← inner.query)
  else match ← commaSeparated s.trailingCommas (inner.expr 0) with
    | [e] => return .nested e
    | items => return .tuple items

theorem group_eq (s : ParserSettings) (inner : Inner) :
    group s inner = (do let e ← groupItems s inner; expectMark .rightParen; return e) := by
  unfold group groupItems
  rw [bind_assoc]
  refine bind_congr fun found => ?_
  split
  · simp only [bind_assoc]
  · rw [bind_assoc]
    refine bind_congr fun items => ?_
    match items with
    | [] | [e] | a :: b :: rest => rfl

theorem groupItems_local (h : inner.Local inner') :
    Parser.Local 0 0 true (groupItems s inner) (groupItems s inner') := by
  refine atQuery_bind fun found => .ite (bind h.query fun _ => .pure _) ?_
  refine bind (commaSeparated_local (h.expr 0)) fun items => ?_
  split <;> exact .pure _

theorem group_local (h : inner.Local inner') :
    Parser.Local 1 0 b (group s inner) (group s inner') := by
  rw [group_eq, group_eq]
  exact bind (groupItems_local h).weaken.lift fun e => closes.bind fun _ => .pure e

theorem branchesIn_local (h : inner.Local inner') (n : Nat) :
    Parser.Local 0 0 b (branchesIn inner n) (branchesIn inner' n) := by
  induction n generalizing b with
  | zero => exact .fail
  | succ n ih =>
    refine bind (h.expr 0).weaken fun condition => bind .expectWord fun _ => ?_
    refine bind (h.expr 0).weaken fun result => ?_
    exact skipWord_ite (bind ih fun rest => .pure _) (.pure _)

theorem branchesIn_enough (h : inner.Local inner') {n m : Nat} {ts : List Token} (hn : 0 < n)
    (hm : 0 < m) (hn' : ts.length ≤ n) (hm' : ts.length ≤ m) :
    branchesIn inner n ts = branchesIn inner m ts := by
  induction n generalizing m ts with
  | zero => omega
  | succ n ih =>
    obtain ⟨m, rfl⟩ : ∃ m', m = m' + 1 := ⟨m - 1, by omega⟩
    refine bind_congr_of_ok fun condition mid₁ h₁ => bind_congr_of_ok fun _ mid₂ h₂ => ?_
    refine bind_congr_of_ok fun result mid₃ h₃ => bind_congr_of_ok fun more rest h₄ => ?_
    cases more with
    | false => rfl
    | true =>
      have l₁ := (h.expr 0).takes_lt h₁
      have l₂ := (Local.expectWord (i := 0) (b := true)).takes_lt h₂
      have l₃ := (h.expr 0).takes_lt h₃
      have l₄ := (skipWord_local (i := 0)).takes_length h₄
      exact bind_congr_left (ih (by omega) (by omega) (by omega) (by omega))

/-- The branches of a case. -/
def branches (inner : Inner) : Parser (List (Expr × Expr)) := do branchesIn inner (← get).length

theorem branches_local (h : inner.Local inner') :
    Parser.Local 0 0 b (branches inner) (branches inner') := by
  refine of_length (fun n => branchesIn_local h n) (fun _ => rfl) (fun _ => rfl) ?_
  intro ts n some enough
  have := List.length_pos_of_ne_nil some
  exact branchesIn_enough h (by omega) this enough (Nat.le_refl _)

/-- The branches of a case and all behind them. -/
def caseBranches (inner : Inner) (operand : Option Expr) : Parser Expr := do
  let branches ← branches inner
  let otherwise ← Parser.after .ELSE (inner.expr 0)
  Parser.expectWord .END
  return .case operand branches otherwise

theorem caseBranches_local (h : inner.Local inner') (operand : Option Expr) :
    Parser.Local 0 0 b (caseBranches inner operand) (caseBranches inner' operand) :=
  bind (branches_local h) fun _ => bind (.after (h.expr 0).weaken) fun _ =>
    bind .expectWord fun _ => .pure _

theorem caseExpr_local (h : inner.Local inner') :
    Parser.Local 0 0 b (caseExpr inner) (caseExpr inner') := by
  refine skipWord_local.bind_strict fun found => ?_
  refine .ite ((Local.pure none).bind_strict fun e => caseBranches_local h _) ?_
  exact bind_strict (h.expr 0).weaken fun e => bind_strict .expectWord fun _ =>
    (Local.pure _).bind_strict fun _ => caseBranches_local h _

/-- What stands between the parentheses of a conversion. -/
def castItems (inner : Inner) (style : CastStyle) : Parser Expr := do
  let e ← inner.expr 0
  expectWord .AS
  return .cast style e (← dataType)

theorem castItems_local (h : inner.Local inner') (style : CastStyle) :
    Parser.Local 0 0 false (castItems inner style) (castItems inner' style) :=
  bind (h.expr 0).weaken fun _ => bind .expectWord fun _ => bind dataType_local fun _ => .pure _

theorem castExpr_local (h : inner.Local inner') (style : CastStyle) :
    Parser.Local 0 0 b (castExpr inner style) (castExpr inner' style) :=
  .parenthesised (castItems_local h style)

/-- What stands between the parentheses of a rounding. -/
def roundingItems (inner : Inner) (upward : Bool) : Parser Expr := do
  let e ← inner.expr 0
  if ← skipMark .comma then
    match ← take with
    | .number digits long => return .rounding upward e (some (.number digits long))
    | _ => Parser.fail
  else return .rounding upward e none

theorem roundingItems_local (h : inner.Local inner') (upward : Bool) :
    Parser.Local 0 0 false (roundingItems inner upward) (roundingItems inner' upward) := by
  refine bind (h.expr 0).weaken fun e => ?_
  refine skipMark_ite (nest_plain 0 nofun nofun) nofun (take_bind fun t => ?_) (.pure _)
  cases t with
  | number digits long => exact .number (.pure _)
  | word | string | mark | other => exact .fail

theorem roundingExpr_local (h : inner.Local inner') (upward : Bool) :
    Parser.Local 0 0 b (roundingExpr inner upward) (roundingExpr inner' upward) :=
  .parenthesised (roundingItems_local h upward)

theorem existsExpr_local (h : inner.Local inner') (negated : Bool) :
    Parser.Local 0 0 b (existsExpr inner negated) (existsExpr inner' negated) :=
  bind (.parenthesised h.query.weaken) fun _ => .pure _

theorem keywordExpr_local (h : inner.Local inner') (name : Ident) (k : Keyword) :
    Parser.Local 0 0 false (keywordExpr s inner name k) (keywordExpr s inner' name k) := by
  unfold keywordExpr
  split
  iterate 3 exact .pure _
  iterate 5 exact wordCall_local h name
  iterate 4 exact .ite (.pure _) (nameOrCall_local h name)
  · exact caseExpr_local h
  iterate 3 exact castExpr_local h _
  iterate 2 exact roundingExpr_local h _
  · exact existsExpr_local h false
  · exact skipWord_ite (existsExpr_local h true) (bind (h.expr notPower).weaken fun e => .pure _)
  · exact nameOrCall_local h name

theorem operand_local (h : inner.Local inner') :
    Parser.Local 0 0 b (operand s inner) (operand s inner') := by
  refine take_bind fun t => ?_
  cases t with
  | word name k =>
    cases k with
    | none => exact .word (nameOrCall_local h name)
    | some k => exact .word (keywordExpr_local h name k)
  | number digits long => exact .number (.pure _)
  | string kind text => exact .string (.pure _)
  | mark m =>
    cases m
    case leftParen => exact .mark rfl nofun (group_local h)
    case minus | plus =>
      exact .mark rfl nofun (bind (h.expr timesPower).weaken fun e => .pure _)
    all_goals exact .fail
  | other => exact .fail

/-! ## Operators -/

theorem finish_begins (e : Expr) (negated : Bool) (what : TruthTest) (name : Ident)
    (k : Option Keyword) :
    Begins 0 0 b (testExpr.finish e negated what) (testExpr.finish e negated what)
      (some (.word name k)) := .discard_take (.pure _)

/-- What an expression is tested for, when that is no other expression. -/
def truthTest (e : Expr) (negated : Bool) : Parser Expr := do
  match ← peekWord with
  | some .NULL => testExpr.finish e negated .null
  | some .TRUE => testExpr.finish e negated .true
  | some .FALSE => testExpr.finish e negated .false
  | some .UNKNOWN => testExpr.finish e negated .unknown
  | _ => Parser.fail

theorem truthTest_local (e : Expr) (negated : Bool) :
    Parser.Local 0 0 b (truthTest e negated) (truthTest e negated) := by
  refine peekWord_begins fun first => ?_
  match first with
  | some (.word name (some k)) =>
    simp only [wordOf?]
    split
    iterate 4 exact finish_begins e negated _ name _
    exact .of_local .fail
  | none | some (.word _ none) | some (.number ..) | some (.string ..) | some (.mark _)
  | some (.other _) => exact .of_local .fail

theorem testExpr_local (h : inner.Local inner') (e : Expr) :
    Parser.Local 0 0 false (testExpr inner e) (testExpr inner' e) := by
  refine skipWord_local.bind fun negated => ?_
  exact skipWords_ite nofun (bind (h.expr 0).weaken fun r => .pure _) (truthTest_local e negated)

/-- What stands between the parentheses behind `IN`. -/
def inItems (s : ParserSettings) (inner : Inner) (e : Expr) (negated : Bool) : Parser Expr := do
  if ← atQuery then return .inQuery e negated (← inner.query)
  else if s.grammar.allowsEmptyIn && (← peek) == some (.mark .rightParen) then
    return .inList e negated []
  else return .inList e negated (← commaSeparated s.trailingCommas (inner.expr 0))

theorem inItems_local (h : inner.Local inner') (e : Expr) (negated : Bool) :
    Parser.Local 0 0 false (inItems s inner e negated) (inItems s inner' e negated) := by
  refine atQuery_bind fun found => .ite ?_ ?_
  · exact bind h.query.weaken fun _ => .pure _
  · refine peek_bind fun t => .ite (.pure _) ?_
    exact bind (commaSeparated_local (h.expr 0)) fun _ => .pure _

theorem inExpr_local (h : inner.Local inner') (e : Expr) (negated : Bool) :
    Parser.Local 0 0 false (inExpr s inner e negated) (inExpr s inner' e negated) :=
  .parenthesised (inItems_local h e negated)

theorem betweenExpr_local (h : inner.Local inner') (e : Expr) (negated : Bool) :
    Parser.Local 0 0 false (betweenExpr inner e negated) (betweenExpr inner' e negated) :=
  bind (h.expr rangePower).weaken fun _ => bind .expectWord fun _ =>
    bind (h.expr rangePower).weaken fun _ => .pure _

/-- The character that `ESCAPE` names. -/
def escapeText : Parser String := do
  match ← take with
  | .string .single text | .string .double text => return text
  | .word name _ => return name.text
  | _ => Parser.fail

theorem escapeText_local : Parser.Local 0 0 b escapeText escapeText := by
  refine take_bind fun t => ?_
  cases t with
  | word name k => exact .word (.pure _)
  | string kind text =>
    cases kind with
    | single | double => exact .string (.pure _)
    | national | hex | triple => exact .fail
  | number | mark | other => exact .fail

theorem likeExpr_local (h : inner.Local inner') (e : Expr) (negated caseless : Bool) :
    Parser.Local 0 0 false (likeExpr inner e negated caseless)
      (likeExpr inner' e negated caseless) :=
  bind (h.expr likePower).weaken fun _ => bind (.after escapeText_local) fun _ => .pure _

theorem negatable_local (h : inner.Local inner') (left : Expr) (negated : Bool) (t : Token) :
    Parser.Local 0 0 false (infixExpr.negatable s inner left negated t)
      (infixExpr.negatable s inner' left negated t) := by
  unfold infixExpr.negatable
  split
  · exact inExpr_local h left negated
  · exact betweenExpr_local h left negated
  · exact likeExpr_local h left negated false
  · exact likeExpr_local h left negated true
  · exact .fail

theorem negated_local (h : inner.Local inner') (left : Expr) :
    Parser.Local 0 0 b (do infixExpr.negatable s inner left true (← take))
      (do infixExpr.negatable s inner' left true (← take)) := by
  refine take_bind fun t => ?_
  cases t with
  | word name k => exact .word (negatable_local h left true _)
  | number | string | mark | other => exact .fail

theorem infixExpr_local (h : inner.Local inner') (left : Expr) :
    Parser.Local 0 0 b (infixExpr s inner left) (infixExpr s inner' left) := by
  refine take_bind fun t => ?_
  have operation (op : BinaryOp) (power : Nat) : Parser.Local 0 0 false
      (do return Expr.binary left op (← inner.expr power))
      (do return Expr.binary left op (← inner'.expr power)) :=
    bind (h.expr power).weaken fun _ => .pure _
  split
  · exact .mark (nest_plain 0 nofun nofun) nofun (bind dataType_local fun _ => .pure _)
  next m _ =>
    cases found : markOp? m with
    | none => exact .fail
    | some r =>
      refine .mark (nest_plain 0 ?_ ?_) ?_ (operation r.1 r.2) <;> rintro e <;> cases e <;> cases found
  · exact .word (testExpr_local h left)
  · exact .word (negated_local h left)
  next name k _ _ =>
    cases wordOp? k with
    | none => exact .word (negatable_local h left false _)
    | some r => exact .word (operation r.1 r.2)
  · exact .fail

/-- What binds next is seen in the first token, except for `NOT`. -/
theorem nextPower_first {t : Token} (h : wordOf? (some t) ≠ some .NOT) (rest : List Token) :
    nextPower (t :: rest) = nextPower [t] := by
  cases t with
  | word name k =>
    cases k with
    | none => rfl
    | some k => cases k <;> first | rfl | exact absurd rfl h
  | mark m => cases m <;> rfl
  | number | string | other => rfl

theorem nextPower_not (name : Ident) (rest : List Token) :
    nextPower (.word name (some .NOT) :: rest) = (wordOf? rest[0]?).elim 0 negatablePower := by
  match rest with
  | [] | .word _ none :: _ | .word _ (some _) :: _ | .number .. :: _ | .string .. :: _ | .mark _ :: _
  | .other _ :: _ => rfl

theorem nextPower_pair (t u : Token) (rest rest' : List Token) :
    nextPower (t :: u :: rest) = nextPower (t :: u :: rest') := by
  by_cases h : wordOf? (some t) = some .NOT
  · match t, h with
    | .word name (some .NOT), rfl => rw [nextPower_not, nextPower_not]; rfl
  · rw [nextPower_first h, nextPower_first h (u :: rest')]

theorem nextPower_hides {m : Token} {after after' : List Token} (hides : Hides m after') :
    nextPower (m :: after') ≤ nextPower (m :: after) := by
  by_cases h : wordOf? (some m) = some .NOT
  · match m, h with
    | .word name (some .NOT), rfl =>
      rcases hides with h | ⟨-, t, rest, rfl, rfl | rfl | ⟨name, rfl⟩⟩
      · cases h
      all_goals
        rw [nextPower_not]
        exact Nat.zero_le _
  · exact Nat.le_of_eq ((nextPower_first h after').trans (nextPower_first h after).symm)

theorem operatorsIn_local (h : inner.Local inner') (power n : Nat) (left : Expr) :
    Parser.Local 0 0 false (operatorsIn s inner power n left) (operatorsIn s inner' power n left) := by
  induction n generalizing left with
  | zero => exact .pure _
  | succ n ih =>
    refine of_test (bind (infixExpr_local h left) fun e => ih e) ?_ ?_ ?_
    · intro t u rest rest'
      rw [nextPower_pair t u rest rest']
    · intro rest closes
      cases closes
    · intro m after after' hides binds
      exact Nat.lt_of_lt_of_le binds (nextPower_hides hides)

theorem operatorsIn_enough (h : inner.Local inner') {power n m : Nat} {left : Expr}
    {ts : List Token} (hn : ts.length ≤ n) (hm : ts.length ≤ m) :
    operatorsIn s inner power n left ts = operatorsIn s inner power m left ts := by
  induction n generalizing m left ts with
  | zero =>
    obtain rfl := List.eq_nil_of_length_eq_zero (Nat.le_zero.mp hn)
    cases m <;> rfl
  | succ n ih =>
    cases m with
    | zero =>
      obtain rfl := List.eq_nil_of_length_eq_zero (Nat.le_zero.mp hm)
      rfl
    | succ m =>
      simp only [operatorsIn, get_bind_apply]
      split
      · refine bind_congr_of_ok fun e mid he => ?_
        have := (infixExpr_local h left).takes_lt he
        exact ih (by omega) (by omega)
      · rfl

theorem expression_local (h : inner.Local inner') (power : Nat) :
    Parser.Local 0 0 true (expression s inner power) (expression s inner' power) := by
  refine bind (operand_local h) fun left => ?_
  exact of_length (fun n => operatorsIn_local h power n left) (fun _ => rfl) (fun _ => rfl)
    fun _ enough => operatorsIn_enough h enough (Nat.le_refl _)

end DetectionPlan.Sql.Parser
