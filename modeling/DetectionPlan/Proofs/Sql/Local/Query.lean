/-
Queries are read locally, at every depth, so a text may be changed behind any of
its tokens that hides what follows.
-/
import DetectionPlan.Proofs.Sql.Local.Table

namespace DetectionPlan.Sql.Parser

open Local

variable {b : Bool} {s : ParserSettings} {inner inner' : Inner}

/-! ## Selections -/

theorem selectItem_local (h : inner.Local inner') :
    Parser.Local 0 0 true (selectItem inner) (selectItem inner') := by
  refine bind (starOrExpr_local h) fun e => ?_
  split
  · exact .pure _
  · exact .ite .fail ((label_local _).bind fun _ => .pure _)
  · exact (label_local _).bind fun _ => .pure _

theorem distinctRows_local : Parser.Local 0 0 false distinctRows distinctRows := by
  refine quantifier_local.bind fun q => ?_
  split <;> exact .pure _

theorem grouping_local (h : inner.Local inner') :
    Parser.Local 0 0 false (grouping s inner) (grouping s inner') := by
  refine skipWords_ite nofun (skipWord_ite (.pure _) ?_) (.pure _)
  exact bind (commaSeparated_local (h.expr 0)) fun _ => .pure _

/-- What a selection says before its filter. -/
def selectHead (s : ParserSettings) (inner : Inner) :
    Parser (Bool × List SelectItem × List TableJoins) := do
  Parser.expectWord .SELECT
  let isDistinct ← distinctRows
  let trailing := s.trailingCommas || s.grammar.allowsTrailingCommaInProjection
  let items ← commaSeparated trailing (selectItem inner)
  let tables ← Parser.after .FROM (tableList s inner)
  return (isDistinct, items, tables.getD [])

/-- What a selection says after its filter. -/
def selectEnd (s : ParserSettings) (inner : Inner) : Parser (Grouping × Option Expr) := do
  let groups ← grouping s inner
  return (groups, ← Parser.after .HAVING (inner.expr 0))

theorem select_eq (s : ParserSettings) (inner : Inner) :
    select s inner = (do
      let head ← selectHead s inner
      let filter ← Parser.after .WHERE (inner.expr 0)
      let tail ← selectEnd s inner
      return ⟨head.1, head.2.1, head.2.2, filter, tail.1, tail.2⟩) := by
  unfold select selectHead selectEnd
  simp only [bind_assoc, pure_bind]

theorem selectHead_local (h : inner.Local inner') :
    Parser.Local 0 0 b (selectHead s inner) (selectHead s inner') :=
  bind .expectWord fun _ => distinctRows_local.bind fun _ =>
    bind (commaSeparated_local (selectItem_local h)) fun _ =>
    bind (.after (tableList_local h)) fun _ => .pure _

theorem selectEnd_local (h : inner.Local inner') :
    Parser.Local 0 0 false (selectEnd s inner) (selectEnd s inner') :=
  (grouping_local h).bind fun _ => bind (.after (h.expr 0).weaken) fun _ => .pure _

theorem select_local (h : inner.Local inner') :
    Parser.Local 0 0 b (select s inner) (select s inner') := by
  rw [select_eq, select_eq]
  exact bind (selectHead_local h) fun _ => bind (.after (h.expr 0).weaken) fun _ =>
    (selectEnd_local h).bind fun _ => .pure _

/-! ## Bodies -/

theorem row_local (h : inner.Local inner') :
    Parser.Local 0 0 b (row s inner) (row s inner') := by
  refine bind .opens fun _ => peek_bind fun t => .ite ?_ ?_
  · exact bind .closes fun _ => .pure _
  · exact bind (commaSeparated_local (h.expr 0)).lift fun _ => bind .closes fun _ => .pure _

theorem valueRows_local (h : inner.Local inner') :
    Parser.Local 0 0 b (valueRows s inner) (valueRows s inner') := by
  refine bind (commaSeparated_local ?_) fun _ => .pure _
  exact skipWord_local.bind_strict fun _ => bind (row_local h) fun _ => .pure _

theorem plainBody_local (h : inner.Local inner') :
    Parser.Local 0 0 b (plainBody s inner) (plainBody s inner') := by
  have lone {b : Bool} : Parser.Local 0 0 b (do return .query (← parenthesised inner.query))
      (do return Body.query (← parenthesised inner'.query)) :=
    bind (.parenthesised h.query.weaken) fun _ => .pure _
  refine peekWord_begins fun first => ?_
  match first with
  | some (.word name (some k)) =>
    simp only [wordOf?]
    split
    · exact .of_local (bind (select_local h) fun _ => .pure _)
    · exact .discard_take (valueRows_local h)
    · exact .of_local lone
  | none | some (.word _ none) | some (.number ..) | some (.string ..) | some (.mark _)
  | some (.other _) => exact .of_local lone

theorem setOp_local (ops : List (Keyword × SetOp)) :
    Parser.Local 0 0 false (setOp ops) (setOp ops) := by
  refine (Local.oneOf ops).bind fun op => ?_
  cases op with
  | none => exact .pure _
  | some op => exact (Local.oneOf _).bind fun _ => .pure _

theorem combineIn_local (ops : List (Keyword × SetOp)) {operand operand' : Parser Body}
    (h : Parser.Local 0 0 true operand operand') (n : Nat) (left : Body) :
    Parser.Local 0 0 false (combineIn ops operand n left) (combineIn ops operand' n left) := by
  induction n generalizing left with
  | zero => exact .pure _
  | succ n ih =>
    refine (setOp_local ops).bind fun found => ?_
    cases found with
    | none => exact .pure _
    | some r => exact bind h.weaken fun _ => ih _

theorem combineIn_nil (ops : List (Keyword × SetOp)) (operand : Parser Body) (n : Nat) (left : Body) :
    combineIn ops operand n left [] = .ok (left, []) := by
  cases n <;> rfl

theorem combineIn_enough (ops : List (Keyword × SetOp)) {operand operand' : Parser Body}
    (h : Parser.Local 0 0 true operand operand') {n m : Nat} {left : Body} {ts : List Token}
    (hn : ts.length ≤ n) (hm : ts.length ≤ m) :
    combineIn ops operand n left ts = combineIn ops operand m left ts := by
  induction n generalizing m left ts with
  | zero =>
    obtain rfl := List.eq_nil_of_length_eq_zero (Nat.le_zero.mp hn)
    rw [combineIn_nil, combineIn_nil]
  | succ n ih =>
    cases m with
    | zero =>
      obtain rfl := List.eq_nil_of_length_eq_zero (Nat.le_zero.mp hm)
      rw [combineIn_nil, combineIn_nil]
    | succ m =>
      refine bind_congr_of_ok fun found mid hf => ?_
      have := (setOp_local ops).takes_length hf
      cases found with
      | none => rfl
      | some r =>
        refine bind_congr_of_ok fun right rest hr => ?_
        have := h.takes_lt hr
        exact ih (by omega) (by omega)

theorem combine_local (ops : List (Keyword × SetOp)) {operand operand' : Parser Body}
    (h : Parser.Local 0 0 true operand operand') :
    Parser.Local 0 0 true (combine ops operand) (combine ops operand') := by
  refine bind h fun first => ?_
  exact of_length (fun n => combineIn_local ops h n first) (fun _ => rfl) (fun _ => rfl)
    fun _ enough => combineIn_enough ops h enough (Nat.le_refl _)

theorem body_local (h : inner.Local inner') :
    Parser.Local 0 0 b (body s inner) (body s inner') :=
  (combine_local _ (combine_local _ (plainBody_local h))).weaken

/-! ## Whole queries -/

theorem namedQuery_local (h : inner.Local inner') :
    Parser.Local 0 0 true (namedQuery s inner) (namedQuery s inner') := by
  refine bind ident_local fun name => (columnNames_local _).bind fun columns => ?_
  exact bind .expectWord fun _ => bind (.parenthesised h.query.weaken) fun _ => .pure _

theorem nullPlace_local : Parser.Local 0 0 false nullPlace nullPlace :=
  skipWords_ite nofun (.pure _) (skipWords_ite nofun (.pure _) (.pure _))

theorem orderItem_local (h : inner.Local inner') :
    Parser.Local 0 0 true (orderItem inner) (orderItem inner') :=
  bind (h.expr 0) fun _ => (Local.oneOf _).bind fun _ => nullPlace_local.bind fun _ => .pure _

theorem literal_local : Parser.Local 0 0 b literal literal := by
  refine take_bind fun t => ?_
  split
  · exact .number (.pure _)
  · exact .string (.pure _)
  · exact .word (.pure _)
  · exact .word (.pure _)
  · exact .word (.pure _)
  · exact .fail

theorem setting_local : Parser.Local 0 0 true setting setting :=
  bind ident_local fun _ => bind (.expectMark (nest_plain 0 nofun nofun) nofun) fun _ =>
    bind literal_local fun _ => .pure _

/-- The parts of the bounds are read one after the other, each or not. -/
theorem bound_local (h : inner.Local inner') (bs : Bounds) :
    Parser.Local 0 0 false (bound s inner bs) (bound s inner' bs) := by
  unfold bound
  extract_lets bs ends comma offset comma' offset'
  have value {β : Type} {f f' : Expr → Parser β} (hf : ∀ e, Parser.Local 0 0 false (f e) (f' e)) :
      Parser.Local 0 0 false (inner.expr 0 >>= f) (inner'.expr 0 >>= f') := bind (h.expr 0).weaken hf
  have comma_local (b : Bounds) : Parser.Local 0 0 false (comma () b) (comma' () b) := by
    refine .ite (skipMark_ite (nest_plain 0 nofun nofun) nofun (value fun _ => ?_) ?_) ?_ <;> exact .pure _
  have offset_local (b : Bounds) : Parser.Local 0 0 false (offset () b) (offset' () b) := by
    refine .ite (skipWord_ite (value fun _ => ?_) (comma_local b)) (comma_local b)
    exact (Local.oneOf _).bind fun _ => comma_local _
  refine .ite (skipWord_ite (skipWord_ite ?_ (value fun _ => ?_)) ?_) ?_ <;> exact offset_local _

/-- What a query says before its body: whether the queries it names may use
themselves, and those queries. -/
def queryHead (s : ParserSettings) (inner : Inner) : Parser (Bool × List NamedQuery) := do
  if ← skipWord .WITH then
    let isRecursive ← skipWord .RECURSIVE
    return (isRecursive, ← commaSeparated s.trailingCommas (namedQuery s inner))
  else return (false, [])

/-- The order of a query, if it has one. -/
def orders (s : ParserSettings) (inner : Inner) : Parser (List OrderItem) := do
  if ← skipWords .ORDER .BY then commaSeparated s.trailingCommas (orderItem inner) else return []

/-- The settings that a query ends in, if the grammar has them. -/
def settings (s : ParserSettings) : Parser (Option (List (Ident × Literal))) :=
  if s.grammar.hasSettings then Parser.after .SETTINGS (commaSeparated s.trailingCommas setting)
  else Pure.pure none

/-- What a query says after its body, which makes it a query. -/
def queryEnd (s : ParserSettings) (inner : Inner) (head : Bool × List NamedQuery) :
    Parser (Body → Query) := do
  let order ← orders s inner
  let bounds ← bound s inner (← bound s inner {})
  let settings ← settings s
  return fun body => ⟨head.1, head.2, body, order, bounds.limit, bounds.offset, bounds.offsetUnit,
    settings.getD []⟩

theorem queryText_eq (s : ParserSettings) (inner : Inner) :
    queryText s inner =
      (do let head ← queryHead s inner; let b ← body s inner; return (← queryEnd s inner head) b) := by
  unfold queryText queryHead
  extract_lets isRecursive named rest
  have end_eq (isRecursive : Bool) (named : List NamedQuery) : rest () isRecursive named =
      (do let b ← body s inner; return (← queryEnd s inner (isRecursive, named)) b) := by
    refine bind_congr fun b => ?_
    unfold queryEnd orders
    simp only [bind_assoc, pure_bind]
    refine bind_congr fun found => ?_
    have settings_eq (order : List OrderItem) (bounds : Bounds) : (do
        let settings ←
          if s.grammar.hasSettings then Parser.after .SETTINGS (commaSeparated s.trailingCommas setting)
          else Pure.pure none
        return Query.mk isRecursive named b order bounds.limit bounds.offset bounds.offsetUnit
          (settings.getD [])) = (do
        let settings ← settings s
        return Query.mk isRecursive named b order bounds.limit bounds.offset bounds.offsetUnit
          (settings.getD [])) := by
      unfold settings
      split <;> rfl
    split
    · refine bind_congr fun order => bind_congr fun first => bind_congr fun bounds => ?_
      exact settings_eq order bounds
    · simp only [pure_bind]
      refine bind_congr fun first => bind_congr fun bounds => ?_
      exact settings_eq [] bounds
  rw [bind_assoc]
  refine bind_congr fun found => ?_
  cases found
  · exact end_eq _ _
  · simp only [if_true, bind_assoc, pure_bind]
    exact bind_congr fun isRecursive => bind_congr fun named => end_eq _ _

theorem queryHead_local (h : inner.Local inner') :
    Parser.Local 0 0 false (queryHead s inner) (queryHead s inner') := by
  refine skipWord_ite (skipWord_local.bind fun _ => ?_) (.pure _)
  exact bind (commaSeparated_local (namedQuery_local h)) fun _ => .pure _

theorem orders_local (h : inner.Local inner') :
    Parser.Local 0 0 false (orders s inner) (orders s inner') :=
  skipWords_ite nofun (commaSeparated_local (orderItem_local h)) (.pure _)

theorem settings_local : Parser.Local 0 0 false (settings s) (settings s) :=
  .ite (.after (commaSeparated_local setting_local)) (.pure _)

theorem queryEnd_local (h : inner.Local inner') (head : Bool × List NamedQuery) :
    Parser.Local 0 0 false (queryEnd s inner head) (queryEnd s inner' head) :=
  (orders_local h).bind fun _ => (bound_local h _).bind fun _ => (bound_local h _).bind fun _ =>
    settings_local.bind fun _ => .pure _

theorem queryText_local (h : inner.Local inner') :
    Parser.Local 0 0 true (queryText s inner) (queryText s inner') := by
  rw [queryText_eq, queryText_eq]
  exact (queryHead_local h).bind_strict fun head => bind (body_local h) fun _ =>
    (queryEnd_local h head).bind fun _ => .pure _

/-! ## Depth -/

variable (s)

theorem innerIn_expr_zero (power : Nat) (ts : List Token) :
    (innerIn s 0).expr power ts = .error .nesting := exprIn.eq_1 s power ts

theorem innerIn_query_zero (ts : List Token) : (innerIn s 0).query ts = .error .nesting :=
  queryIn.eq_1 s ts

theorem innerIn_expr_succ (d power : Nat) :
    (innerIn s (d + 1)).expr power = expression s (innerIn s d) power :=
  funext fun ts => exprIn.eq_2 s power ts d

theorem innerIn_query_succ (d : Nat) : (innerIn s (d + 1)).query = queryText s (innerIn s d) :=
  funext fun ts => queryIn.eq_2 s ts d

theorem innerIn_local {d d' : Nat} (h : d ≤ d') : (innerIn s d).Local (innerIn s d') := by
  induction d generalizing d' with
  | zero =>
    have final {α : Type} {p p' : Parser α} (hp : ∀ ts, p ts = .error .nesting) :
        Parser.Local 0 0 true p p' := by
      refine ⟨fun e => ?_, fun e => absurd (hp _) e, fun _ e => ?_, fun _ e => ?_⟩
      · rw [hp] at e; cases e
      · rw [hp] at e; cases e
      · rw [hp] at e ⊢; exact e
    exact ⟨fun power => final (innerIn_expr_zero s power), final (innerIn_query_zero s)⟩
  | succ d ih =>
    obtain ⟨d', rfl⟩ : ∃ n, d' = n + 1 := ⟨d' - 1, by omega⟩
    have deeper : (innerIn s d).Local (innerIn s d') := ih (by omega)
    refine ⟨fun power => ?_, ?_⟩
    · rw [innerIn_expr_succ, innerIn_expr_succ]
      exact expression_local deeper power
    · rw [innerIn_query_succ, innerIn_query_succ]
      exact queryText_local deeper

end DetectionPlan.Sql.Parser
