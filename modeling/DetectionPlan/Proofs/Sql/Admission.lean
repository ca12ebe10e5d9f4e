/-
Which queries take predicates, and why the others do not. `Takes` says what predicates and a text
have to be like, `Predicate.Refusal` and `TextRefusal` what they are refused for, the predicates before
the text is looked at. `addPredicates_accepts_exactly` says that adding predicates decides between these.
-/
import DetectionPlan.Proofs.Sql.Filter

namespace DetectionPlan

open Outcome (bind_ok_iff bind_error_iff map_ok_iff mapM_ok_iff mapM_error_iff)

/-! ## Predicates -/

namespace Predicate

variable {p : Predicate}

/-- The comparisons that can be added to a query. -/
def IsComparison (p : Predicate) : Prop := p.operator = .eq ∨ p.operator = .neq ∨ p.operator = .isIn

/-- What is wrong with the number of values that a column is compared with. -/
inductive ValueRefusal (operator : FilterOperator) (values : List String) : String → Prop
  | single (comparison : operator = .eq ∨ operator = .neq) (other : values.length ≠ 1) :
    ValueRefusal operator values s!"{operator.name} takes exactly one value, got {values.length}"
  | list (comparison : operator = .isIn) (none : values = []) :
    ValueRefusal operator values "IN needs at least one value"

/-- What predicates are refused for: the first comparison that cannot be added, and if there is none the
first wrong number of values. -/
inductive Refusal (r : Sql.RenderSettings) (ps : List Predicate) : Failure → Prop
  | operator {before p after} (split : ps = before ++ p :: after) (earlier : ∀ q ∈ before, q.IsComparison)
    (other : ¬ p.IsComparison) : Refusal r ps (.unsupportedFilterOperator p.column p.operator)
  | values {before p after reason} (comparisons : ∀ q ∈ ps, q.IsComparison) (split : ps = before ++ p :: after)
    (earlier : ∀ q ∈ before, q.IsAdmissible) (wrong : ValueRefusal p.operator p.values reason) :
    Refusal r ps (.invalidPredicate (r.normalizeIdentifier p.column) reason)

theorem isInjectable_iff : p.operator.isInjectable ↔ p.IsComparison := by
  unfold FilterOperator.isInjectable IsComparison
  cases p.operator <;> simp

theorem comparison_error_iff {op : Sql.BinaryOp} {e : Failure} : p.comparison op = .error e ↔
    p.values.length ≠ 1 ∧
      e = .invalidPredicate p.column s!"{p.operator.name} takes exactly one value, got {p.values.length}" := by
  unfold comparison
  split
  next v hv => simp [hv]
  next other =>
    have many : p.values.length ≠ 1 := fun one => by
      obtain ⟨v, hv⟩ := List.length_eq_one_iff.mp one
      exact other v hv
    rw [Except.error.injEq, and_iff_right many]
    exact eq_comm

/-- A comparison that can be added fails to stand for a condition for the number of its values only. -/
theorem expr_error_iff (comparison : p.IsComparison) {e : Failure} :
    p.expr = .error e ↔ ∃ reason, ValueRefusal p.operator p.values reason ∧ e = .invalidPredicate p.column reason := by
  constructor
  · intro failed
    unfold expr at failed
    rcases comparison with op | op | op
    · rw [op] at failed
      obtain ⟨other, rfl⟩ := comparison_error_iff.mp failed
      exact ⟨_, .single (.inl op) other, rfl⟩
    · rw [op] at failed
      obtain ⟨other, rfl⟩ := comparison_error_iff.mp failed
      exact ⟨_, .single (.inr op) other, rfl⟩
    · rw [op] at failed
      by_cases none : p.values.isEmpty
      · simp only [none, if_true] at failed
        exact ⟨_, .list op (List.isEmpty_iff.mp none), (Except.error.inj failed).symm⟩
      · simp [none] at failed
  · rintro ⟨reason, wrong, rfl⟩
    unfold expr
    cases wrong with
    | single either other =>
      rcases either with op | op <;> rw [op] <;> exact comparison_error_iff.mpr ⟨other, by rw [op]⟩
    | list op none => simp [op, none]

theorem exists_expr_iff (comparison : p.IsComparison) : (∃ c, p.expr = .ok c) ↔ p.IsAdmissible := by
  refine ⟨fun ⟨c, ok⟩ => ?_, exists_expr⟩
  have fine {reason : String} (wrong : ValueRefusal p.operator p.values reason) : False := by
    cases ok.symm.trans ((expr_error_iff comparison).mpr ⟨reason, wrong, rfl⟩)
  unfold IsAdmissible
  rcases comparison with op | op | op <;> rw [op]
  · exact of_not_not fun other => fine (.single (.inl op) other)
  · exact of_not_not fun other => fine (.single (.inr op) other)
  · exact fun none => fine (.list op none)

end Predicate

namespace Sql

variable {d : DialectSettings} {s : ParserSettings} {text : String} {ps : List Predicate} {conditions : List Expr}
  {st : Statement} {q : Query} {sel : Select} {e : Failure}

theorem find?_isInjectable_eq_none_iff :
    ps.find? (!·.operator.isInjectable) = none ↔ ∀ p ∈ ps, p.IsComparison := by
  simp [List.find?_eq_none, Predicate.isInjectable_iff]

theorem find?_isInjectable_eq_some_iff {p : Predicate} : ps.find? (!·.operator.isInjectable) = some p ↔
    ¬ p.IsComparison ∧ ∃ before after, ps = before ++ p :: after ∧ ∀ q ∈ before, q.IsComparison := by
  simp [List.find?_eq_some_iff_append, ← Predicate.isInjectable_iff]

theorem conditionsOf_ok_iff : conditionsOf d ps = .ok conditions ↔ (∀ p ∈ ps, p.IsComparison) ∧
    List.Forall₂ (fun p c => (p.normalized d.render).expr = .ok c) ps conditions := by
  unfold conditionsOf
  rw [← find?_isInjectable_eq_none_iff, ← mapM_ok_iff]
  cases ps.find? (!·.operator.isInjectable) with
  | some p => simp
  | none => simp

theorem conditionsOf_error_iff : conditionsOf d ps = .error e ↔ Predicate.Refusal d.render ps e := by
  constructor
  · intro failed
    unfold conditionsOf at failed
    split at failed
    next p found =>
      obtain rfl := Except.error.inj failed
      obtain ⟨other, before, after, split, earlier⟩ := find?_isInjectable_eq_some_iff.mp found
      exact .operator split earlier other
    next none =>
      have comparisons := find?_isInjectable_eq_none_iff.mp none
      obtain ⟨before, p, after, split, earlier, failed⟩ := mapM_error_iff.mp failed
      have comparison : p.IsComparison := comparisons p (by simp [split])
      obtain ⟨reason, wrong, rfl⟩ :=
        (Predicate.expr_error_iff (p := p.normalized d.render) comparison).mp failed
      refine .values comparisons split (fun q hq => ?_) wrong
      exact (Predicate.exists_expr_iff (p := q.normalized d.render) (comparisons q (by simp [split, hq]))).mp
        (earlier q hq)
  · intro refused
    unfold conditionsOf
    cases refused with
    | @operator before p after split earlier other =>
      rw [find?_isInjectable_eq_some_iff.mpr ⟨other, before, after, split, earlier⟩]
    | @values before p after reason comparisons split earlier wrong =>
      rw [find?_isInjectable_eq_none_iff.mpr comparisons]
      have comparison : p.IsComparison := comparisons p (by simp [split])
      refine mapM_error_iff.mpr ⟨before, p, after, split, fun q hq => ?_, ?_⟩
      · exact Predicate.exists_expr (p := q.normalized d.render) (earlier q hq)
      · exact (Predicate.expr_error_iff (p := p.normalized d.render) comparison).mpr
          ⟨reason, wrong, rfl⟩

theorem exists_conditionsOf_iff :
    (∃ conditions, conditionsOf d ps = .ok conditions) ↔ ∀ p ∈ ps, p.IsAdmissible := by
  constructor
  · rintro ⟨conditions, ok⟩ p hp
    obtain ⟨comparisons, each⟩ := conditionsOf_ok_iff.mp ok
    obtain ⟨c, -, hc⟩ := Outcome.exists_mem_of_forall₂ each hp
    exact (Predicate.exists_expr_iff (p := p.normalized d.render) (comparisons p hp)).mp ⟨c, hc⟩
  · intro admissible
    obtain ⟨conditions, ok, -⟩ := exists_conditions d admissible
    exact ⟨conditions, ok⟩

theorem isEmpty_conditionsOf (h : conditionsOf d ps = .ok conditions) : conditions.isEmpty = true ↔ ps = [] := by
  obtain ⟨-, each⟩ := conditionsOf_ok_iff.mp h
  cases each <;> simp

/-! ## Shapes of statements -/

/-- A query comes down to the selection that is its body, or that of a query between parentheses, when
only one of the two names queries. -/
inductive Query.ComesDownTo (q : Query) (sel : Select) : Prop
  | body (h : q.body = .select sel) : ComesDownTo q sel
  | parenthesised {inner : Query} (body : q.body = .query inner)
    (named : q.hasNamed = false ∨ inner.hasNamed = false) (h : inner.body = .select sel) : ComesDownTo q sel

/-- Why a statement comes down to no selection. -/
inductive Statement.ShapeRefusal : Statement → String → Prop
  | statement {st : Statement} (other : ∀ q, st ≠ .query q) :
    ShapeRefusal st s!"expected a SELECT query, found '{st.kind}'"
  | named {q inner : Query} (body : q.body = .query inner) (outer : q.hasNamed = true)
    (named : inner.hasNamed = true) : ShapeRefusal (.query q) "nested WITH clauses are not supported"
  | deeper {q inner : Query} (body : q.body = .query inner) (named : q.hasNamed = false ∨ inner.hasNamed = false)
    (other : ∀ sel, inner.body ≠ .select sel) : ShapeRefusal (.query q) "more than one level of query nesting"
  | combined {q : Query} {left right : Body} {op : SetOp} {quantifier : Option Quantifier}
    (body : q.body = .combined left op quantifier right) :
    ShapeRefusal (.query q) "set operations (UNION, INTERSECT, EXCEPT) are not supported"
  | rows {q : Query} {marked : Bool} {rows : List (List Expr)} (body : q.body = .values marked rows) :
    ShapeRefusal (.query q) s!"unsupported query body '{q.body.text}'"

theorem Query.ComesDownTo.mapSelect (h : q.ComesDownTo sel) (f : Select → Outcome Select) :
    ∃ g : Select → Query, q.mapSelect f = (f sel).map g := by
  cases h with
  | body h => exact ⟨_, by rw [Query.mapSelect, h]⟩
  | @parenthesised inner body named h =>
    have oneNamed : (q.hasNamed && inner.hasNamed) = false := Bool.and_eq_false_iff.mpr named
    refine ⟨fun sel => { q with body := .query { inner with body := .select sel } }, ?_⟩
    simp only [Query.mapSelect, body, oneNamed, Bool.false_eq_true, if_false, h]

theorem Statement.ShapeRefusal.mapSelect {reason : String} (h : st.ShapeRefusal reason)
    (f : Select → Outcome Select) : st.mapSelect f = .error (.unsupportedQueryShape reason) := by
  cases h with
  | statement other =>
    cases st with
    | query q => exact absurd rfl (other q)
    | _ => rfl
  | named body outer named =>
    rw [Statement.mapSelect, Query.mapSelect, body]
    simp [outer, named, Except.map]
  | @deeper q inner body named other =>
    have oneNamed : (q.hasNamed && inner.hasNamed) = false := Bool.and_eq_false_iff.mpr named
    rw [Statement.mapSelect, Query.mapSelect, body]
    cases body' : inner.body with
    | select sel => exact absurd body' (other sel)
    | _ => simp [oneNamed, Except.map]
  | combined body =>
    rw [Statement.mapSelect, Query.mapSelect, body]
    rfl
  | rows body =>
    rw [Statement.mapSelect, Query.mapSelect, body]
    rfl

/-- A statement comes down to a selection or not. -/
theorem Statement.shape_cases (st : Statement) :
    (∃ reason, st.ShapeRefusal reason) ∨ ∃ q sel, st = .query q ∧ q.ComesDownTo sel := by
  cases st with
  | query q =>
    cases body : q.body with
    | select sel => exact .inr ⟨q, sel, rfl, .body body⟩
    | values marked rows => exact .inl ⟨_, .rows body⟩
    | combined left op quantifier right => exact .inl ⟨_, .combined body⟩
    | query inner =>
      by_cases named : q.hasNamed = false ∨ inner.hasNamed = false
      · cases body' : inner.body with
        | select sel => exact .inr ⟨q, sel, rfl, .parenthesised body named body'⟩
        | _ => exact .inl ⟨_, .deeper body named (by simp [body'])⟩
      · have both := not_or.mp named
        exact .inl ⟨_, .named body (Bool.not_eq_false _ ▸ both.1) (Bool.not_eq_false _ ▸ both.2)⟩
  | _ => exact .inl ⟨_, .statement nofun⟩

theorem withConditions_error_iff :
    sel.withConditions conditions = .error e ↔ sel.filter = none ∧ e = .missingWhereClause := by
  unfold Select.withConditions
  cases sel.filter <;> simp [eq_comm]

theorem exists_withConditions_iff :
    (∃ sel', sel.withConditions conditions = .ok sel') ↔ ∃ filter, sel.filter = some filter := by
  unfold Select.withConditions
  cases sel.filter <;> simp

/-- Conditions are not added to a statement for its shape, or for want of a filter. -/
theorem mapSelect_withConditions_error_iff : st.mapSelect (·.withConditions conditions) = .error e ↔
    (∃ reason, st.ShapeRefusal reason ∧ e = .unsupportedQueryShape reason) ∨
    ∃ q sel, st = .query q ∧ q.ComesDownTo sel ∧ sel.filter = none ∧ e = .missingWhereClause := by
  constructor
  · intro failed
    rcases st.shape_cases with ⟨reason, refused⟩ | ⟨q, sel, rfl, selection⟩
    · exact .inl ⟨reason, refused, Except.error.inj (failed.symm.trans (refused.mapSelect _))⟩
    · obtain ⟨g, mapped⟩ := selection.mapSelect (·.withConditions conditions)
      rw [Statement.mapSelect, mapped] at failed
      cases added : sel.withConditions conditions with
      | ok sel' => simp [added, Except.map] at failed
      | error e' =>
        obtain rfl : e' = e := by simpa [added, Except.map] using failed
        exact .inr ⟨q, sel, rfl, selection, withConditions_error_iff.mp added⟩
  · rintro (⟨reason, refused, rfl⟩ | ⟨q, sel, rfl, selection, none⟩)
    · exact refused.mapSelect _
    · obtain ⟨g, mapped⟩ := selection.mapSelect (·.withConditions conditions)
      rw [Statement.mapSelect, mapped, withConditions_error_iff.mpr none]
      rfl

theorem exists_mapSelect_withConditions_iff :
    (∃ st', st.mapSelect (·.withConditions conditions) = .ok st') ↔
      ∃ q sel, st = .query q ∧ q.ComesDownTo sel ∧ ∃ filter, sel.filter = some filter := by
  constructor
  · rintro ⟨st', ok⟩
    rcases st.shape_cases with ⟨reason, refused⟩ | ⟨q, sel, rfl, selection⟩
    · cases ok.symm.trans (refused.mapSelect _)
    · obtain ⟨g, mapped⟩ := selection.mapSelect (·.withConditions conditions)
      rw [Statement.mapSelect, mapped] at ok
      obtain ⟨_, ok, -⟩ := map_ok_iff.mp ok
      obtain ⟨sel', added, -⟩ := map_ok_iff.mp ok
      exact ⟨q, sel, rfl, selection, exists_withConditions_iff.mp ⟨sel', added⟩⟩
  · rintro ⟨q, sel, rfl, selection, filtered⟩
    obtain ⟨g, mapped⟩ := selection.mapSelect (·.withConditions conditions)
    obtain ⟨sel', added⟩ := exists_withConditions_iff.mpr filtered
    exact ⟨.query (g sel'), by rw [Statement.mapSelect, mapped, added]; rfl⟩

/-! ## Texts -/

theorem parseStatement_error_iff : s.parseStatement text = .error e ↔
    (∃ fault, s.parseStatements text = .error fault ∧ e = .badSyntax fault) ∨
    ∃ statements, s.parseStatements text = .ok statements ∧ statements.length ≠ 1 ∧
      e = .unsupportedQueryShape s!"expected exactly one statement, found {statements.length}" := by
  unfold ParserSettings.parseStatement
  cases s.parseStatements text with
  | error fault => simp [Except.mapError, bind, Except.bind, eq_comm]
  | ok statements =>
    match statements with
    | [st] => simp [Except.mapError, bind, Except.bind]
    | [] => simp [Except.mapError, bind, Except.bind, eq_comm]
    | _ :: _ :: _ => simp [Except.mapError, bind, Except.bind, eq_comm]

/-- What a text is refused for that predicates are to be added to: the first of a fault, several statements
or none, a shape without a selection, and a selection without a filter. Without predicates any statement will
do. -/
inductive TextRefusal (s : ParserSettings) (text : String) (ps : List Predicate) : Failure → Prop
  | fault {fault : SyntaxFault} (read : s.parseStatements text = .error fault) :
    TextRefusal s text ps (.badSyntax fault)
  | count {statements : List Statement} (read : s.parseStatements text = .ok statements)
    (other : statements.length ≠ 1) : TextRefusal s text ps
      (.unsupportedQueryShape s!"expected exactly one statement, found {statements.length}")
  | shape {st : Statement} {reason : String} (given : ps ≠ []) (read : s.parseStatements text = .ok [st])
    (refused : st.ShapeRefusal reason) : TextRefusal s text ps (.unsupportedQueryShape reason)
  | filter {q : Query} {sel : Select} (given : ps ≠ []) (read : s.parseStatements text = .ok [.query q])
    (selection : q.ComesDownTo sel) (none : sel.filter = none) : TextRefusal s text ps .missingWhereClause

/-- What predicates and a text have to be like. -/
structure Takes (d : DialectSettings) (text : String) (ps : List Predicate) : Prop where
  admissible : ∀ p ∈ ps, p.IsAdmissible
  statement : ∃ st, d.parser.parseStatements text = .ok [st] ∧
    (ps = [] ∨ ∃ q sel, st = .query q ∧ q.ComesDownTo sel ∧ ∃ filter, sel.filter = some filter)

section Added

variable (h : conditionsOf d ps = .ok conditions)
include h

theorem addPredicates_of_conditions : addPredicates d text ps = (d.parser.parseStatement text >>= fun st =>
    if ps = [] then .ok st.text
    else st.mapSelect (·.withConditions conditions) >>= fun st => .ok st.text) := by
  simp only [← isEmpty_conditionsOf h, addPredicates, h]
  rfl

theorem addPredicates_error_iff : addPredicates d text ps = .error e ↔ TextRefusal d.parser text ps e := by
  rw [addPredicates_of_conditions h, bind_error_iff, parseStatement_error_iff]
  constructor
  · rintro ((⟨fault, read, rfl⟩ | ⟨statements, read, other, rfl⟩) | ⟨st, read, failed⟩)
    · exact .fault read
    · exact .count read other
    · have read := ParserSettings.parseStatement_ok_iff.mp read
      split at failed
      next => cases failed
      next given =>
        have failed := (bind_error_iff.mp failed).resolve_right nofun
        rcases mapSelect_withConditions_error_iff.mp failed with
          ⟨reason, refused, rfl⟩ | ⟨q, sel, rfl, selection, none, rfl⟩
        · exact .shape given read refused
        · exact .filter given read selection none
  · intro refused
    cases refused with
    | fault read => exact .inl (.inl ⟨_, read, rfl⟩)
    | count read other => exact .inl (.inr ⟨_, read, other, rfl⟩)
    | shape given read refused =>
      refine .inr ⟨_, ParserSettings.parseStatement_ok_iff.mpr read, ?_⟩
      rw [if_neg given]
      exact bind_error_iff.mpr (.inl (mapSelect_withConditions_error_iff.mpr (.inl ⟨_, refused, rfl⟩)))
    | filter given read selection none =>
      refine .inr ⟨_, ParserSettings.parseStatement_ok_iff.mpr read, ?_⟩
      rw [if_neg given]
      exact bind_error_iff.mpr
        (.inl (mapSelect_withConditions_error_iff.mpr (.inr ⟨_, _, rfl, selection, none, rfl⟩)))

theorem exists_addPredicates_iff : (∃ out, addPredicates d text ps = .ok out) ↔
    ∃ st, d.parser.parseStatements text = .ok [st] ∧
      (ps = [] ∨ ∃ q sel, st = .query q ∧ q.ComesDownTo sel ∧ ∃ filter, sel.filter = some filter) := by
  simp only [addPredicates_of_conditions h, bind_ok_iff, ParserSettings.parseStatement_ok_iff]
  constructor
  · rintro ⟨out, st, read, ok⟩
    refine ⟨st, read, or_iff_not_imp_left.mpr fun given => ?_⟩
    rw [if_neg given] at ok
    obtain ⟨st', ok, -⟩ := bind_ok_iff.mp ok
    exact exists_mapSelect_withConditions_iff.mp ⟨st', ok⟩
  · rintro ⟨st, read, none | filtered⟩
    · exact ⟨st.text, st, read, if_pos none⟩
    · obtain ⟨st', ok⟩ := exists_mapSelect_withConditions_iff.mpr filtered
      by_cases none : ps = []
      · exact ⟨st.text, st, read, if_pos none⟩
      · exact ⟨st'.text, st, read, by rw [if_neg none, ok]; rfl⟩

end Added

def lessThanOne : Predicate := { column := "b", operator := .lt, values := ["1"] }

/-- Predicates with two faults: no values, and after that a comparison that cannot be added. -/
def twoFaults : List Predicate := [.oneOf "a" [], lessThanOne]

end Sql

end DetectionPlan
