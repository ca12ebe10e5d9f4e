/-
Queries for the rows of a table within the interval of a request. Preparing one replaces
`__timeFilter` by a condition between parentheses, and the query that comes of it is read
again with this condition as its filter (`prepare_timeQuery`).
-/
import DetectionPlan.Expansion.Request
import DetectionPlan.Proofs.Sql.Selection
import DetectionPlan.Proofs.TimeExpression.Filter

namespace DetectionPlan

open Sql (Expr Ident Query Statement)
open Outcome (bind_ok_iff)
open TimeFormat (ceilDiv)

/-- `SELECT * FROM source WHERE __timeFilter(argument, lookbacks)`, the lookbacks being
strings. -/
structure TimeQuery where
  source : String
  argument : Expr
  lookbacks : List String := []

namespace TimeQuery

def arguments (q : TimeQuery) : List Sql.Argument :=
  .positional q.argument :: q.lookbacks.map fun text => .positional (.literal (.string .single text))

def filter (q : TimeQuery) : Expr :=
  .call ⟨[⟨Placeholder.timeFilterName, none⟩], .list none q.arguments⟩

def query (q : TimeQuery) : Query := .allWhere q.source q.filter

/-- What the query asks for: the argument is handed over as the name of a column that counts
units since the epoch, and the lookbacks move the interval to the bounds. -/
structure Within (q : TimeQuery) (x : Expansion) (column : Ident) (unit : EpochUnit) (bounds : Interval) :
    Prop where
  builtin : x.registry = .builtin
  source : Sql.IsTable x.parser.grammar q.source
  isAtom : (∃ parts, q.argument = .name parts) ∨ ∃ value, q.argument = .literal value
  handed : Expansion.argumentText x.scope.render (.positional q.argument) = column.quoted
  name : column.IsColumn x.parser.grammar
  counts : x.scope.Counts column.quoted unit
  few : q.lookbacks.length ≤ 2
  moved : ∃ back back',
    Placeholder.lookbackArgument Placeholder.timeFilterName q.lookbacks[0]? = .ok back ∧
    Placeholder.lookbackArgument Placeholder.timeFilterName q.lookbacks[1]? = .ok back' ∧
    x.scope.interval.withLookback back back' = .ok bounds
  room : 7 ≤ x.parser.recursionLimit

end TimeQuery

namespace Expansion

variable {x : Expansion}

/-! ## Replacing the call -/

/-- All that is replaced in a query for the rows of a table is its filter. -/
theorem expand_allWhere (source : String) (filter : Expr) :
    x.expand (.query (.allWhere source filter)) =
      ((filter.replace x.step).run .empty).map fun r => (.query (.allWhere source r.1), r.2) := by
  have star : (Expr.star []).replace x.step = pure (.star []) := rfl
  have statement : (Statement.query (.allWhere source filter)).replace x.step =
      (fun e => .query (.allWhere source e)) <$> filter.replace x.step := by
    simp [Query.allWhere, Query.ofBody, Sql.Statement.replace, Sql.Query.replace, Sql.replaceNamed,
      Sql.Body.replace, Sql.Select.replace, Sql.replaceItems, Sql.SelectItem.replace, Sql.replaceTables,
      Sql.TableJoins.replace, Sql.Table.replace, Sql.replaceJoins, Sql.replaceOption, Sql.Grouping.replace,
      Sql.replaceExprs, Sql.replaceOrder, star]
  rw [expand, statement]
  rfl

theorem replace_arguments {q : TimeQuery}
    (atom : (∃ parts, q.argument = .name parts) ∨ ∃ value, q.argument = .literal value) :
    Sql.replaceArguments x.step q.arguments = pure q.arguments := by
  have strings (texts : List String) :
      Sql.replaceArguments x.step (texts.map fun text => .positional (.literal (.string .single text))) =
        pure (texts.map fun text => .positional (.literal (.string .single text))) := by
    induction texts with
    | nil => rfl
    | cons text texts ih =>
      have literal : (Expr.literal (.string .single text)).replace x.step =
          pure (.literal (.string .single text)) := rfl
      simp [Sql.replaceArguments, Sql.Argument.replace, literal, ih]
  have argument : q.argument.replace x.step = pure q.argument := by
    rcases atom with ⟨parts, h⟩ | ⟨value, h⟩ <;> (rw [h]; rfl)
  simp [TimeQuery.arguments, Sql.replaceArguments, Sql.Argument.replace, argument, strings]

variable {q : TimeQuery} {column : Ident} {unit : EpochUnit} {bounds : Interval}

/-- The condition that the placeholder becomes. -/
def boundsFilter (column : Ident) (unit : EpochUnit) (bounds : Interval) : Expr :=
  .nested (column.within (ceilDiv bounds.start unit.millis) (ceilDiv bounds.stop unit.millis))

theorem callee?_builtin (builtin : x.registry = .builtin) {p : Placeholder}
    (known : p ∈ PlaceholderRegistry.builtin.entries) (arguments : Sql.Arguments) :
    x.callee? ⟨[⟨p.name, none⟩], arguments⟩ = some (p.name, p) := by
  have found : PlaceholderRegistry.builtin.get? p.name = some p := by
    have other : asciiLower Placeholder.timeFilter.name ≠ asciiLower Placeholder.timeGroup.name := by decide +kernel
    rcases List.mem_pair.mp known with rfl | rfl
    · simp [PlaceholderRegistry.get?, PlaceholderRegistry.builtin, PlaceholderRegistry.goesBy]
    · simp [PlaceholderRegistry.get?, PlaceholderRegistry.builtin, other, PlaceholderRegistry.goesBy]
  simp [callee?, builtin, found]

/-- A call of a placeholder function is replaced by what the text of its expansion is read as. -/
theorem run_step {c : Sql.Call} {name : String} {p : Placeholder} {texts : List String} {text : String} {e : Expr}
    {given left : Properties} (callee : x.callee? c = some (name, p))
    (handed : x.argumentTexts name c.arguments = .ok texts)
    (expanded : (p.expand x.scope texts).run given = .ok (text, left)) (read : x.parser.parseExpr text = .ok e) :
    (x.step (.call c)).run given = .ok (asOperand e, left) := by
  rw [step]
  simp only [callee]
  rw [Placeholder.run_bind handed, StateT.run_bind]
  refine bind_ok_iff.mpr ⟨_, expanded, ?_⟩
  simp only [read]
  rfl

/-- The filter is replaced by the condition on the bounds, which are recorded. -/
theorem replace_filter (h : q.Within x column unit bounds) :
    (q.filter.replace x.step).run .empty =
      .ok (boundsFilter column unit bounds, Placeholder.withBounds .empty column.quoted bounds) := by
  let low := ceilDiv bounds.start unit.millis
  let high := ceilDiv bounds.stop unit.millis
  obtain ⟨back, back', first, last, moved⟩ := h.moved
  have texts : x.argumentTexts Placeholder.timeFilterName (.list none q.arguments) =
      .ok (column.quoted :: q.lookbacks) := by
    have strings : q.lookbacks.map (argumentText x.scope.render ∘ fun text =>
        Sql.Argument.positional (.literal (.string .single text))) = q.lookbacks := List.map_id' _
    simp [argumentTexts, TimeQuery.arguments, h.handed, strings]
  have expanded : (Placeholder.timeFilter.expand x.scope (column.quoted :: q.lookbacks)).run .empty =
      .ok ((column.within low high).text, Placeholder.withBounds .empty column.quoted bounds) := by
    have becomes : Placeholder.timeFilter.expand x.scope (column.quoted :: q.lookbacks) =
        Placeholder.filterColumn x.scope column.quoted q.lookbacks[0]? q.lookbacks[1]? := by
      rcases shape : q.lookbacks with _ | ⟨_, _ | ⟨_, _ | ⟨_, _⟩⟩⟩
      any_goals rfl
      have few := h.few
      simp [shape] at few
    rw [becomes, Placeholder.filterColumn_eq first last moved h.counts, Sql.text_within]
    rfl
  have parsed := Sql.parseExpr_within h.name (Nat.le_trans (by decide) h.room) low high
  have call : q.filter.replace x.step = x.step q.filter := by
    have arguments := replace_arguments (x := x) h.isAtom
    simp [TimeQuery.filter, Expr.replace, Sql.Call.replace, Sql.Arguments.replace, arguments]
  rw [call]
  exact run_step (callee?_builtin h.builtin List.mem_cons_self _) texts expanded parsed

theorem table_allWhere (x : Expansion) (source : String) (filter : Expr) :
    (match x.scope.dataset with
      | some d => some d.name
      | none => (Statement.query (.allWhere source filter)).firstTable?) =
        some (x.scope.dataset.elim source (·.name)) := by
  cases x.scope.dataset with
  | some d => rfl
  | none =>
    simp [Query.allWhere, Query.ofBody, Sql.Statement.firstTable?, Query.select?, Sql.nameText, Ident.quoted]

/-- A query for the rows of a table is prepared by putting the condition on the bounds in the
place of its filter, and the text that is sent is read as that. -/
theorem prepare_timeQuery {query : String}
    (read : x.parser.parseStatement query = .ok (.query q.query)) (h : q.Within x column unit bounds) :
    x.prepare query = .ok {
      sql := (Query.allWhere q.source (boundsFilter column unit bounds)).text
      table := some (x.scope.dataset.elim q.source (·.name))
      properties := Placeholder.withBounds .empty column.quoted bounds } ∧
    x.parser.parseStatement (Query.allWhere q.source (boundsFilter column unit bounds)).text =
      .ok (.query (.allWhere q.source (boundsFilter column unit bounds))) := by
  let low := ceilDiv bounds.start unit.millis
  let high := ceilDiv bounds.stop unit.millis
  constructor
  · have expanded : x.expand (.query q.query) = .ok (.query (.allWhere q.source (boundsFilter column unit bounds)),
        Placeholder.withBounds .empty column.quoted bounds) := by
      rw [TimeQuery.query, expand_allWhere, replace_filter h]
      rfl
    refine bind_ok_iff.mpr ⟨_, read, bind_ok_iff.mpr ⟨_, expanded, ?_⟩⟩
    exact congrArg (fun table => Except.ok (PreparedRequest.mk _ table _)) (table_allWhere x q.source _)
  · obtain ⟨d, hd⟩ : ∃ d, x.parser.recursionLimit = d + 4 + 1 + 2 :=
      ⟨x.parser.recursionLimit - 7, by have := h.room; omega⟩
    let tokens : List Sql.Token := .mark .leftParen :: (column.withinTokens low high ++ [.mark .rightParen])
    have scanned : Sql.Lexer.tokensOf x.parser (boundsFilter column unit bounds).text.toList = .ok tokens := by
      have text : (boundsFilter column unit bounds).text.toList =
          '(' :: ((column.within low high).text.toList ++ [')']) := by
        simp [boundsFilter, Expr.text, String.toList_append, low, high]
      rw [text, Sql.Lexer.tokensOf_open, Sql.Lexer.tokensOf_within h.name low high rfl,
        Sql.Lexer.tokensOf_close]
      rfl
    have nested : (Sql.Parser.innerIn x.parser (d + 4 + 1)).expr 0 tokens =
        .ok (boundsFilter column unit bounds, []) := by
      rw [Sql.Parser.innerIn_expr_succ]
      refine Sql.Parser.expression_of_operand ?_ (Nat.le_refl 0)
      refine Sql.Parser.nested_read (by simp) ?_ ?_ (Sql.Parser.within_read h.name low high rfl)
      · exact Sql.Parser.wordOf?_token h.name (.inl rfl)
      · exact Sql.Parser.wordOf?_token h.name (.inr rfl)
    exact Sql.parseStatement_allWhere h.source hd scanned nested

end Expansion

end DetectionPlan
