/-
Two replacements of one tree side by side. A relation between the work of the two that holds of what
each does with a call, and of work done in turn when it holds of its parts, holds of the whole
replacements (`Statement.replace_simulated`). The relation knows the calls that were met, in order.
-/
import DetectionPlan.Proofs.Sql.Calls

namespace DetectionPlan.Sql

variable {m n : Type → Type} [Monad m] [Monad n] [LawfulMonad m] [LawfulMonad n]

/-- A relation between work of two kinds that has met some calls. -/
structure Simulation (m n : Type → Type) [Monad m] [Monad n] [LawfulMonad m] [LawfulMonad n] where
  Rel {α : Type} : List Call → m α → n α → Prop
  pure {α : Type} (a : α) : Rel [] (pure a) (pure a)
  bind {α β : Type} {cs ds : List Call} {w : m α} {w' : n α} {k : α → m β} {k' : α → n β}
    (first : Rel cs w w') (next : ∀ a, Rel ds (k a) (k' a)) : Rel (cs ++ ds) (w >>= k) (w' >>= k')

namespace Simulation

variable {T : Simulation m n} {α β : Type} {cs ds : List Call}
variable {w : m α} {w' : n α} {k : α → m β} {k' : α → n β}

theorem of_eq (h : T.Rel cs w w') (same : cs = ds) : T.Rel ds w w' := same ▸ h

/-- Nothing is met after the last call. -/
theorem bind_nil (first : T.Rel cs w w') (next : ∀ a, T.Rel [] (k a) (k' a)) :
    T.Rel cs (w >>= k) (w' >>= k') :=
  of_eq (T.bind first next) (List.append_nil cs)

theorem bind_result (first : T.Rel cs w w') (make : α → β) :
    T.Rel cs (w >>= fun a => Pure.pure (make a)) (w' >>= fun a => Pure.pure (make a)) :=
  bind_nil first fun _ => T.pure _

theorem mapM {γ : Type} {f : γ → m α} {g : γ → n α} {calls : γ → List Call}
    (h : ∀ c, T.Rel (calls c) (f c) (g c)) : ∀ l : List γ, T.Rel (l.flatMap calls) (l.mapM f) (l.mapM g)
  | [] => by simpa using T.pure []
  | c :: l => by
    simp only [List.mapM_cons, List.flatMap_cons]
    exact T.bind (h c) fun _ => bind_result (mapM h l) _

/-- Two ways to deal with an expression whose parts have been replaced. They are related where it is
no call, and where it is one with other arguments. -/
structure Steps (T : Simulation m n) (f : Expr → m Expr) (g : Expr → n Expr) : Prop where
  other {e : Expr} (h : ∀ c, e ≠ .call c) : T.Rel [] (f e) (g e)
  call (c : Call) (arguments : Arguments) :
    T.Rel [c] (f (.call ⟨c.name, arguments⟩)) (g (.call ⟨c.name, arguments⟩))

end Simulation

section Simulated

variable {T : Simulation m n} {f : Expr → m Expr} {g : Expr → n Expr}

open Simulation (bind_nil bind_result)

mutual

theorem Expr.replace_simulated (h : T.Steps f g) : ∀ e : Expr, T.Rel e.calls (e.replace f) (e.replace g)
  | .name _ | .star _ | .literal _ => h.other nofun
  | .nested e | .unary _ e | .test e _ _ | .cast _ e _ | .rounding _ e _ =>
    bind_nil (e.replace_simulated h) fun _ => h.other nofun
  | .tuple items => bind_nil (replaceExprs_simulated h items) fun _ => h.other nofun
  | .binary left _ right | .distinct left _ right | .like left _ _ right _ =>
    T.bind (left.replace_simulated h) fun _ => bind_nil (right.replace_simulated h) fun _ => h.other nofun
  | .inList e _ items =>
    T.bind (e.replace_simulated h) fun _ => bind_nil (replaceExprs_simulated h items) fun _ => h.other nofun
  | .inQuery e _ q =>
    T.bind (e.replace_simulated h) fun _ => bind_nil (q.replace_simulated h) fun _ => h.other nofun
  | .between e _ low high => by
    rw [Expr.calls, List.append_assoc]
    exact T.bind (e.replace_simulated h) fun _ => T.bind (low.replace_simulated h) fun _ =>
      bind_nil (high.replace_simulated h) fun _ => h.other nofun
  | .case operand branches otherwise => by
    rw [Expr.calls, List.append_assoc, List.append_assoc]
    exact T.bind (replaceOption_simulated h operand) fun _ =>
      T.bind (replaceConditions_simulated h branches) fun _ =>
      T.bind (replaceResults_simulated h branches) fun _ =>
      bind_nil (replaceOption_simulated h otherwise) fun _ => h.other nofun
  | .exists _ q | .query q => bind_nil (q.replace_simulated h) fun _ => h.other nofun
  | .call ⟨name, arguments⟩ => by
    simp only [Expr.replace, Call.replace, bind_assoc, pure_bind]
    exact T.bind (arguments.replace_simulated h) fun a => h.call ⟨name, arguments⟩ a

theorem replaceExprs_simulated (h : T.Steps f g) :
    ∀ es : List Expr, T.Rel (exprCalls es) (replaceExprs f es) (replaceExprs g es)
  | [] => T.pure []
  | e :: es => T.bind (e.replace_simulated h) fun _ => bind_result (replaceExprs_simulated h es) _

theorem replaceConditions_simulated (h : T.Steps f g) :
    ∀ bs : List (Expr × Expr), T.Rel (conditionCalls bs) (replaceConditions f bs) (replaceConditions g bs)
  | [] => T.pure []
  | (e, _) :: bs => T.bind (e.replace_simulated h) fun _ => bind_result (replaceConditions_simulated h bs) _

theorem replaceResults_simulated (h : T.Steps f g) :
    ∀ bs : List (Expr × Expr), T.Rel (resultCalls bs) (replaceResults f bs) (replaceResults g bs)
  | [] => T.pure []
  | (_, e) :: bs => T.bind (e.replace_simulated h) fun _ => bind_result (replaceResults_simulated h bs) _

theorem replaceOption_simulated (h : T.Steps f g) :
    ∀ e : Option Expr, T.Rel (optionCalls e) (replaceOption f e) (replaceOption g e)
  | none => T.pure none
  | some e => bind_result (e.replace_simulated h) _

theorem Arguments.replace_simulated (h : T.Steps f g) :
    ∀ a : Arguments, T.Rel a.calls (a.replace f) (a.replace g)
  | .absent => T.pure _
  | .list _ items => bind_result (replaceArguments_simulated h items) _
  | .query q => bind_result (q.replace_simulated h) _

theorem replaceArguments_simulated (h : T.Steps f g) :
    ∀ as : List Argument, T.Rel (argumentCalls as) (replaceArguments f as) (replaceArguments g as)
  | [] => T.pure []
  | a :: as => T.bind (a.replace_simulated h) fun _ => bind_result (replaceArguments_simulated h as) _

theorem Argument.replace_simulated (h : T.Steps f g) :
    ∀ a : Argument, T.Rel a.calls (a.replace f) (a.replace g)
  | .positional e | .named _ _ e => bind_result (e.replace_simulated h) _

theorem Query.replace_simulated (h : T.Steps f g) : ∀ q : Query, T.Rel q.calls (q.replace f) (q.replace g)
  | ⟨_, named, body, order, limit, offset, _, _⟩ => by
    rw [Query.calls, List.append_assoc, List.append_assoc, List.append_assoc]
    exact T.bind (replaceNamed_simulated h named) fun _ => T.bind (body.replace_simulated h) fun _ =>
      T.bind (replaceOrder_simulated h order) fun _ => T.bind (replaceOption_simulated h limit) fun _ =>
      bind_result (replaceOption_simulated h offset) _

theorem replaceNamed_simulated (h : T.Steps f g) :
    ∀ ns : List NamedQuery, T.Rel (namedCalls ns) (replaceNamed f ns) (replaceNamed g ns)
  | [] => T.pure []
  | n :: ns => T.bind (n.replace_simulated h) fun _ => bind_result (replaceNamed_simulated h ns) _

theorem NamedQuery.replace_simulated (h : T.Steps f g) :
    ∀ n : NamedQuery, T.Rel n.calls (n.replace f) (n.replace g)
  | ⟨_, query⟩ => bind_result (query.replace_simulated h) _

theorem Body.replace_simulated (h : T.Steps f g) : ∀ b : Body, T.Rel b.calls (b.replace f) (b.replace g)
  | .select s => bind_result (s.replace_simulated h) _
  | .query q => bind_result (q.replace_simulated h) _
  | .combined left _ _ right =>
    T.bind (left.replace_simulated h) fun _ => bind_result (right.replace_simulated h) _
  | .values _ rows => bind_result (replaceRows_simulated h rows) _

theorem replaceRows_simulated (h : T.Steps f g) :
    ∀ rs : List (List Expr), T.Rel (rowCalls rs) (replaceRows f rs) (replaceRows g rs)
  | [] => T.pure []
  | r :: rs => T.bind (replaceExprs_simulated h r) fun _ => bind_result (replaceRows_simulated h rs) _

theorem Select.replace_simulated (h : T.Steps f g) : ∀ s : Select, T.Rel s.calls (s.replace f) (s.replace g)
  | ⟨_, items, tables, filter, groups, having⟩ => by
    rw [Select.calls, List.append_assoc, List.append_assoc, List.append_assoc]
    exact T.bind (replaceItems_simulated h items) fun _ => T.bind (replaceTables_simulated h tables) fun _ =>
      T.bind (replaceOption_simulated h filter) fun _ => T.bind (groups.replace_simulated h) fun _ =>
      bind_result (replaceOption_simulated h having) _

theorem replaceItems_simulated (h : T.Steps f g) :
    ∀ is : List SelectItem, T.Rel (itemCalls is) (replaceItems f is) (replaceItems g is)
  | [] => T.pure []
  | i :: is => T.bind (i.replace_simulated h) fun _ => bind_result (replaceItems_simulated h is) _

theorem SelectItem.replace_simulated (h : T.Steps f g) :
    ∀ i : SelectItem, T.Rel i.calls (i.replace f) (i.replace g)
  | ⟨value, _⟩ => bind_result (value.replace_simulated h) _

theorem Grouping.replace_simulated (h : T.Steps f g) :
    ∀ b : Grouping, T.Rel b.calls (b.replace f) (b.replace g)
  | .all => T.pure _
  | .by items => bind_result (replaceExprs_simulated h items) _

theorem replaceTables_simulated (h : T.Steps f g) :
    ∀ ts : List TableJoins, T.Rel (tableCalls ts) (replaceTables f ts) (replaceTables g ts)
  | [] => T.pure []
  | t :: ts => T.bind (t.replace_simulated h) fun _ => bind_result (replaceTables_simulated h ts) _

theorem TableJoins.replace_simulated (h : T.Steps f g) :
    ∀ t : TableJoins, T.Rel t.calls (t.replace f) (t.replace g)
  | ⟨table, joins⟩ => T.bind (table.replace_simulated h) fun _ => bind_result (replaceJoins_simulated h joins) _

theorem Table.replace_simulated (h : T.Steps f g) : ∀ t : Table, T.Rel t.calls (t.replace f) (t.replace g)
  | .named _ _ => T.pure _
  | .derived q _ => bind_result (q.replace_simulated h) _
  | .joined t _ => bind_result (t.replace_simulated h) _

theorem replaceJoins_simulated (h : T.Steps f g) :
    ∀ js : List Join, T.Rel (joinCalls js) (replaceJoins f js) (replaceJoins g js)
  | [] => T.pure []
  | j :: js => T.bind (j.replace_simulated h) fun _ => bind_result (replaceJoins_simulated h js) _

theorem Join.replace_simulated (h : T.Steps f g) : ∀ j : Join, T.Rel j.calls (j.replace f) (j.replace g)
  | ⟨_, table, condition⟩ =>
    T.bind (table.replace_simulated h) fun _ => bind_result (condition.replace_simulated h) _

theorem JoinCondition.replace_simulated (h : T.Steps f g) :
    ∀ j : JoinCondition, T.Rel j.calls (j.replace f) (j.replace g)
  | .on e => bind_result (e.replace_simulated h) _
  | .using _ | .natural | .none => T.pure _

theorem replaceOrder_simulated (h : T.Steps f g) :
    ∀ os : List OrderItem, T.Rel (orderCalls os) (replaceOrder f os) (replaceOrder g os)
  | [] => T.pure []
  | o :: os => T.bind (o.replace_simulated h) fun _ => bind_result (replaceOrder_simulated h os) _

theorem OrderItem.replace_simulated (h : T.Steps f g) :
    ∀ o : OrderItem, T.Rel o.calls (o.replace f) (o.replace g)
  | ⟨value, _, _⟩ => bind_result (value.replace_simulated h) _

end

theorem replaceSource_simulated (h : T.Steps f g) :
    ∀ q : Option Query, T.Rel (q.elim [] (·.calls)) (replaceSource f q) (replaceSource g q)
  | none => T.pure none
  | some q => bind_result (q.replace_simulated h) _

theorem ColumnOption.replace_simulated (h : T.Steps f g) :
    ∀ o : ColumnOption, T.Rel o.calls (o.replace f) (o.replace g)
  | .default e => bind_result (e.replace_simulated h) _
  | .notNull | .null | .primaryKey | .unique => T.pure _

theorem ColumnDefinition.replace_simulated (h : T.Steps f g) (c : ColumnDefinition) :
    T.Rel c.calls (c.replace f) (c.replace g) :=
  bind_result (Simulation.mapM (ColumnOption.replace_simulated h) c.options) _

/-- **Replacements side by side.** What relates two ways to deal with calls relates what they make of
a statement. -/
theorem Statement.replace_simulated (h : T.Steps f g) :
    ∀ s : Statement, T.Rel s.calls (s.replace f) (s.replace g)
  | .query q => bind_result (q.replace_simulated h) _
  | .insert _ _ _ source => bind_result (source.replace_simulated h) _
  | .update table assignments source filter => by
    rw [Statement.calls, List.append_assoc, List.append_assoc]
    have assigned := Simulation.mapM (fun a => bind_result (a.2.replace_simulated h) (Prod.mk a.1)) assignments
    refine T.bind (table.replace_simulated h) fun _ => T.bind assigned fun _ => ?_
    have filtered := replaceOption_simulated h filter
    cases source with
    | none => exact T.bind (T.pure none) fun _ => bind_result filtered _
    | some t =>
      simp only [map_eq_pure_bind]
      exact T.bind (bind_result (t.replace_simulated h) some) fun _ => bind_result filtered _
  | .delete _ tables filter =>
    T.bind (replaceTables_simulated h tables) fun _ => bind_result (replaceOption_simulated h filter) _
  | .createTable _ _ _ _ columns source =>
    T.bind (Simulation.mapM (ColumnDefinition.replace_simulated h) columns) fun _ =>
      bind_result (replaceSource_simulated h source) _
  | .explain _ _ _ s => bind_result (Statement.replace_simulated h s) _
  | .dropTable .. | .explainTable .. => T.pure _

end Simulated

end DetectionPlan.Sql
