/-
The calls in a tree, in the order in which a replacement meets them. A replacement of calls
alone decides what calls the new tree has (`Statement.replace_keeps`), and leaves a tree as it
is when it leaves each of its calls (`Statement.replace_spared`).
-/
import DetectionPlan.Proofs.Outcome
import DetectionPlan.Sql.Replacement

namespace DetectionPlan.Sql

mutual

/-- The calls in an expression, those among the arguments of a call before it. -/
def Expr.calls : Expr → List Call
  | .name _ | .star _ | .literal _ => []
  | .nested e | .unary _ e | .test e _ _ | .cast _ e _ | .rounding _ e _ => e.calls
  | .tuple items => exprCalls items
  | .binary left _ right | .distinct left _ right => left.calls ++ right.calls
  | .like e _ _ pattern _ => e.calls ++ pattern.calls
  | .inList e _ items => e.calls ++ exprCalls items
  | .inQuery e _ q => e.calls ++ q.calls
  | .between e _ low high => e.calls ++ low.calls ++ high.calls
  | .case operand branches otherwise =>
    optionCalls operand ++ conditionCalls branches ++ resultCalls branches ++ optionCalls otherwise
  | .exists _ q | .query q => q.calls
  | .call c => c.calls

def exprCalls : List Expr → List Call
  | [] => []
  | e :: rest => e.calls ++ exprCalls rest

def conditionCalls : List (Expr × Expr) → List Call
  | [] => []
  | (condition, _) :: rest => condition.calls ++ conditionCalls rest

def resultCalls : List (Expr × Expr) → List Call
  | [] => []
  | (_, result) :: rest => result.calls ++ resultCalls rest

def optionCalls : Option Expr → List Call
  | none => []
  | some e => e.calls

/-- The calls among the arguments of a call, and the call. -/
def Call.calls : Call → List Call
  | ⟨name, arguments⟩ => arguments.calls ++ [⟨name, arguments⟩]

def Arguments.calls : Arguments → List Call
  | .absent => []
  | .list _ items => argumentCalls items
  | .query q => q.calls

def argumentCalls : List Argument → List Call
  | [] => []
  | a :: rest => a.calls ++ argumentCalls rest

def Argument.calls : Argument → List Call
  | .positional e | .named _ _ e => e.calls

/-- The calls in a query. -/
def Query.calls : Query → List Call
  | ⟨_, named, body, order, limit, offset, _, _⟩ =>
    namedCalls named ++ body.calls ++ orderCalls order ++ optionCalls limit ++ optionCalls offset

def namedCalls : List NamedQuery → List Call
  | [] => []
  | n :: rest => n.calls ++ namedCalls rest

def NamedQuery.calls : NamedQuery → List Call
  | ⟨_, query⟩ => query.calls

def Body.calls : Body → List Call
  | .select s => s.calls
  | .query q => q.calls
  | .combined left _ _ right => left.calls ++ right.calls
  | .values _ rows => rowCalls rows

def rowCalls : List (List Expr) → List Call
  | [] => []
  | row :: rest => exprCalls row ++ rowCalls rest

def Select.calls : Select → List Call
  | ⟨_, items, tables, filter, groups, having⟩ =>
    itemCalls items ++ tableCalls tables ++ optionCalls filter ++ groups.calls ++ optionCalls having

def itemCalls : List SelectItem → List Call
  | [] => []
  | i :: rest => i.calls ++ itemCalls rest

def SelectItem.calls : SelectItem → List Call
  | ⟨value, _⟩ => value.calls

def Grouping.calls : Grouping → List Call
  | .all => []
  | .by items => exprCalls items

def tableCalls : List TableJoins → List Call
  | [] => []
  | t :: rest => t.calls ++ tableCalls rest

def TableJoins.calls : TableJoins → List Call
  | ⟨table, joins⟩ => table.calls ++ joinCalls joins

def Table.calls : Table → List Call
  | .named _ _ => []
  | .derived q _ => q.calls
  | .joined t _ => t.calls

def joinCalls : List Join → List Call
  | [] => []
  | j :: rest => j.calls ++ joinCalls rest

def Join.calls : Join → List Call
  | ⟨_, table, condition⟩ => table.calls ++ condition.calls

def JoinCondition.calls : JoinCondition → List Call
  | .on e => e.calls
  | .using _ | .natural | .none => []

def orderCalls : List OrderItem → List Call
  | [] => []
  | o :: rest => o.calls ++ orderCalls rest

def OrderItem.calls : OrderItem → List Call
  | ⟨value, _, _⟩ => value.calls

end

def ColumnOption.calls : ColumnOption → List Call
  | .default e => e.calls
  | .notNull | .null | .primaryKey | .unique => []

def ColumnDefinition.calls (c : ColumnDefinition) : List Call := c.options.flatMap (·.calls)

/-- The calls in a statement. -/
def Statement.calls : Statement → List Call
  | .query q => q.calls
  | .insert _ _ _ source => source.calls
  | .update table assignments source filter =>
    table.calls ++ assignments.flatMap (·.2.calls) ++ source.elim [] (·.calls) ++ optionCalls filter
  | .delete _ tables filter => tableCalls tables ++ optionCalls filter
  | .createTable _ _ _ _ columns source => columns.flatMap (·.calls) ++ source.elim [] (·.calls)
  | .explain _ _ _ s => s.calls
  | .dropTable .. | .explainTable .. => []

/-! ## Replacing calls -/

section Replacing

variable {σ ε : Type} {f : Expr → StateT σ (Except ε) Expr} {I : σ → Prop} {S Q : Call → Prop}

/-- A replacement of calls and nothing else: of those that are as `S` says, whose arguments have
been replaced, by expressions whose calls are as `Q` says. -/
structure Settles (f : Expr → StateT σ (Except ε) Expr) (I : σ → Prop) (S Q : Call → Prop) : Prop where
  other {e : Expr} (h : ∀ c, e ≠ .call c) : f e = pure e
  call {c : Call} {arguments : Arguments} {s t : σ} (given : S c) (inv : I s)
    (replaced : c.arguments.replace f s = .ok (arguments, t)) (settled : ∀ d ∈ arguments.calls, Q d) :
    Keeps I (fun e => ∀ d ∈ e.calls, Q d) (f (.call ⟨c.name, arguments⟩))

/-- What is no call stays, so its calls are those of its parts. -/
theorem Settles.stays (h : Settles f I S Q) {e : Expr} (other : ∀ c, e ≠ .call c)
    (settled : ∀ c ∈ e.calls, Q c) : Keeps I (fun e => ∀ c ∈ e.calls, Q c) (f e) := by
  rw [h.other other]
  exact .pure settled

theorem conditionCalls_zip {conditions results : List Expr} (h : ∀ c ∈ exprCalls conditions, Q c) :
    ∀ c ∈ conditionCalls (conditions.zip results), Q c := by
  induction conditions generalizing results with
  | nil => nofun
  | cons e conditions ih =>
    cases results with
    | nil => nofun
    | cons r results =>
      simp only [exprCalls, List.zip_cons_cons, conditionCalls, List.forall_mem_append] at h ⊢
      exact ⟨h.1, ih h.2⟩

theorem resultCalls_zip {conditions results : List Expr} (h : ∀ c ∈ exprCalls results, Q c) :
    ∀ c ∈ resultCalls (conditions.zip results), Q c := by
  induction results generalizing conditions with
  | nil => simp [resultCalls]
  | cons r results ih =>
    cases conditions with
    | nil => nofun
    | cons e conditions =>
      simp only [exprCalls, List.zip_cons_cons, resultCalls, List.forall_mem_append] at h ⊢
      exact ⟨h.1, ih h.2⟩

mutual

theorem Expr.replace_keeps (h : Settles f I S Q) :
    ∀ e : Expr, (∀ c ∈ e.calls, S c) → Keeps I (fun e => ∀ c ∈ e.calls, Q c) (e.replace f)
  | .name _, _ | .star _, _ | .literal _, _ => h.stays nofun nofun
  | .nested e, hs | .unary _ e, hs | .test e _ _, hs | .cast _ e _, hs | .rounding _ e _, hs =>
    (e.replace_keeps h hs).bind fun _ he => h.stays nofun he
  | .tuple items, hs => (replaceExprs_keeps h items hs).bind fun _ hi => h.stays nofun hi
  | .binary left _ right, hs | .distinct left _ right, hs | .like left _ _ right _, hs => by
    simp only [Expr.calls, List.forall_mem_append] at hs
    refine (left.replace_keeps h hs.1).bind fun _ hl => (right.replace_keeps h hs.2).bind fun _ hr => ?_
    exact h.stays nofun (List.forall_mem_append.mpr ⟨hl, hr⟩)
  | .inList e _ items, hs => by
    simp only [Expr.calls, List.forall_mem_append] at hs
    refine (e.replace_keeps h hs.1).bind fun _ he => (replaceExprs_keeps h items hs.2).bind fun _ hi => ?_
    exact h.stays nofun (List.forall_mem_append.mpr ⟨he, hi⟩)
  | .inQuery e _ q, hs => by
    simp only [Expr.calls, List.forall_mem_append] at hs
    refine (e.replace_keeps h hs.1).bind fun _ he => (q.replace_keeps h hs.2).bind fun _ hq => ?_
    exact h.stays nofun (List.forall_mem_append.mpr ⟨he, hq⟩)
  | .between e _ low high, hs => by
    simp only [Expr.calls, List.forall_mem_append] at hs
    refine (e.replace_keeps h hs.1.1).bind fun _ he => (low.replace_keeps h hs.1.2).bind fun _ hl =>
      (high.replace_keeps h hs.2).bind fun _ hh => ?_
    exact h.stays nofun (by simpa only [Expr.calls, List.forall_mem_append] using ⟨⟨he, hl⟩, hh⟩)
  | .case operand branches otherwise, hs => by
    simp only [Expr.calls, List.forall_mem_append] at hs
    refine (replaceOption_keeps h operand hs.1.1.1).bind fun _ ho =>
      (replaceConditions_keeps h branches hs.1.1.2).bind fun _ hc =>
      (replaceResults_keeps h branches hs.1.2).bind fun _ hr =>
      (replaceOption_keeps h otherwise hs.2).bind fun _ he => h.stays nofun ?_
    simp only [Expr.calls, List.forall_mem_append]
    exact ⟨⟨⟨ho, conditionCalls_zip hc⟩, resultCalls_zip hr⟩, he⟩
  | .exists _ q, hs | .query q, hs => (q.replace_keeps h hs).bind fun _ hq => h.stays nofun hq
  | .call ⟨name, arguments⟩, hs => by
    -- The one case in which the arguments of the source matter, and not only their calls.
    simp only [Expr.calls, Call.calls, List.forall_mem_append, List.forall_mem_singleton] at hs
    intro s t e run inv
    obtain ⟨⟨c, mid⟩, made, run⟩ := Outcome.bind_ok_iff.mp run
    obtain ⟨⟨arguments', mid'⟩, replaced, made⟩ := Outcome.bind_ok_iff.mp made
    obtain ⟨rfl, rfl⟩ := Prod.mk.inj (Except.ok.inj made)
    obtain ⟨settled, inv'⟩ := arguments.replace_keeps h hs.1 replaced inv
    exact h.call hs.2 inv replaced settled run inv'

theorem replaceExprs_keeps (h : Settles f I S Q) :
    ∀ es : List Expr, (∀ c ∈ exprCalls es, S c) → Keeps I (fun es => ∀ c ∈ exprCalls es, Q c) (replaceExprs f es)
  | [], _ => .pure nofun
  | e :: es, hs => by
    simp only [exprCalls, List.forall_mem_append] at hs
    refine (e.replace_keeps h hs.1).bind fun _ he => (replaceExprs_keeps h es hs.2).bind fun _ hes => ?_
    exact .pure (List.forall_mem_append.mpr ⟨he, hes⟩)

theorem replaceConditions_keeps (h : Settles f I S Q) :
    ∀ bs : List (Expr × Expr), (∀ c ∈ conditionCalls bs, S c) →
      Keeps I (fun es => ∀ c ∈ exprCalls es, Q c) (replaceConditions f bs)
  | [], _ => .pure nofun
  | (e, _) :: bs, hs => by
    simp only [conditionCalls, List.forall_mem_append] at hs
    refine (e.replace_keeps h hs.1).bind fun _ he => (replaceConditions_keeps h bs hs.2).bind fun _ hes => ?_
    exact .pure (List.forall_mem_append.mpr ⟨he, hes⟩)

theorem replaceResults_keeps (h : Settles f I S Q) :
    ∀ bs : List (Expr × Expr), (∀ c ∈ resultCalls bs, S c) →
      Keeps I (fun es => ∀ c ∈ exprCalls es, Q c) (replaceResults f bs)
  | [], _ => .pure nofun
  | (_, e) :: bs, hs => by
    simp only [resultCalls, List.forall_mem_append] at hs
    refine (e.replace_keeps h hs.1).bind fun _ he => (replaceResults_keeps h bs hs.2).bind fun _ hes => ?_
    exact .pure (List.forall_mem_append.mpr ⟨he, hes⟩)

theorem replaceOption_keeps (h : Settles f I S Q) :
    ∀ e : Option Expr, (∀ c ∈ optionCalls e, S c) →
      Keeps I (fun e => ∀ c ∈ optionCalls e, Q c) (replaceOption f e)
  | none, _ => .pure nofun
  | some e, hs => (e.replace_keeps h hs).bind fun _ he => .pure he

theorem Arguments.replace_keeps (h : Settles f I S Q) :
    ∀ a : Arguments, (∀ c ∈ a.calls, S c) → Keeps I (fun a => ∀ c ∈ a.calls, Q c) (a.replace f)
  | .absent, _ => .pure nofun
  | .list _ items, hs => (replaceArguments_keeps h items hs).bind fun _ hi => .pure hi
  | .query q, hs => (q.replace_keeps h hs).bind fun _ hq => .pure hq

theorem replaceArguments_keeps (h : Settles f I S Q) :
    ∀ as : List Argument, (∀ c ∈ argumentCalls as, S c) →
      Keeps I (fun as => ∀ c ∈ argumentCalls as, Q c) (replaceArguments f as)
  | [], _ => .pure nofun
  | a :: as, hs => by
    simp only [argumentCalls, List.forall_mem_append] at hs
    refine (a.replace_keeps h hs.1).bind fun _ ha => (replaceArguments_keeps h as hs.2).bind fun _ has => ?_
    exact .pure (List.forall_mem_append.mpr ⟨ha, has⟩)

theorem Argument.replace_keeps (h : Settles f I S Q) :
    ∀ a : Argument, (∀ c ∈ a.calls, S c) → Keeps I (fun a => ∀ c ∈ a.calls, Q c) (a.replace f)
  | .positional e, hs | .named _ _ e, hs => (e.replace_keeps h hs).bind fun _ he => .pure he

theorem Query.replace_keeps (h : Settles f I S Q) :
    ∀ q : Query, (∀ c ∈ q.calls, S c) → Keeps I (fun q => ∀ c ∈ q.calls, Q c) (q.replace f)
  | ⟨_, named, body, order, limit, offset, _, _⟩, hs => by
    simp only [Query.calls, List.forall_mem_append] at hs
    refine (replaceNamed_keeps h named hs.1.1.1.1).bind fun _ hn =>
      (body.replace_keeps h hs.1.1.1.2).bind fun _ hb => (replaceOrder_keeps h order hs.1.1.2).bind fun _ ho =>
      (replaceOption_keeps h limit hs.1.2).bind fun _ hl =>
      (replaceOption_keeps h offset hs.2).bind fun _ hp => .pure ?_
    simp only [Query.calls, List.forall_mem_append]
    exact ⟨⟨⟨⟨hn, hb⟩, ho⟩, hl⟩, hp⟩

theorem replaceNamed_keeps (h : Settles f I S Q) :
    ∀ ns : List NamedQuery, (∀ c ∈ namedCalls ns, S c) →
      Keeps I (fun ns => ∀ c ∈ namedCalls ns, Q c) (replaceNamed f ns)
  | [], _ => .pure nofun
  | n :: ns, hs => by
    simp only [namedCalls, List.forall_mem_append] at hs
    refine (n.replace_keeps h hs.1).bind fun _ hn => (replaceNamed_keeps h ns hs.2).bind fun _ hns => ?_
    exact .pure (List.forall_mem_append.mpr ⟨hn, hns⟩)

theorem NamedQuery.replace_keeps (h : Settles f I S Q) :
    ∀ n : NamedQuery, (∀ c ∈ n.calls, S c) → Keeps I (fun n => ∀ c ∈ n.calls, Q c) (n.replace f)
  | ⟨_, query⟩, hs => (query.replace_keeps h hs).bind fun _ hq => .pure hq

theorem Body.replace_keeps (h : Settles f I S Q) :
    ∀ b : Body, (∀ c ∈ b.calls, S c) → Keeps I (fun b => ∀ c ∈ b.calls, Q c) (b.replace f)
  | .select s, hs => (s.replace_keeps h hs).bind fun _ hs => .pure hs
  | .query q, hs => (q.replace_keeps h hs).bind fun _ hq => .pure hq
  | .combined left _ _ right, hs => by
    simp only [Body.calls, List.forall_mem_append] at hs
    refine (left.replace_keeps h hs.1).bind fun _ hl => (right.replace_keeps h hs.2).bind fun _ hr => ?_
    exact .pure (List.forall_mem_append.mpr ⟨hl, hr⟩)
  | .values _ rows, hs => (replaceRows_keeps h rows hs).bind fun _ hr => .pure hr

theorem replaceRows_keeps (h : Settles f I S Q) :
    ∀ rs : List (List Expr), (∀ c ∈ rowCalls rs, S c) → Keeps I (fun rs => ∀ c ∈ rowCalls rs, Q c) (replaceRows f rs)
  | [], _ => .pure nofun
  | r :: rs, hs => by
    simp only [rowCalls, List.forall_mem_append] at hs
    refine (replaceExprs_keeps h r hs.1).bind fun _ hr => (replaceRows_keeps h rs hs.2).bind fun _ hrs => ?_
    exact .pure (List.forall_mem_append.mpr ⟨hr, hrs⟩)

theorem Select.replace_keeps (h : Settles f I S Q) :
    ∀ s : Select, (∀ c ∈ s.calls, S c) → Keeps I (fun s => ∀ c ∈ s.calls, Q c) (s.replace f)
  | ⟨_, items, tables, filter, groups, having⟩, hs => by
    simp only [Select.calls, List.forall_mem_append] at hs
    refine (replaceItems_keeps h items hs.1.1.1.1).bind fun _ hi =>
      (replaceTables_keeps h tables hs.1.1.1.2).bind fun _ ht =>
      (replaceOption_keeps h filter hs.1.1.2).bind fun _ hf => (groups.replace_keeps h hs.1.2).bind fun _ hg =>
      (replaceOption_keeps h having hs.2).bind fun _ hh => .pure ?_
    simp only [Select.calls, List.forall_mem_append]
    exact ⟨⟨⟨⟨hi, ht⟩, hf⟩, hg⟩, hh⟩

theorem replaceItems_keeps (h : Settles f I S Q) :
    ∀ is : List SelectItem, (∀ c ∈ itemCalls is, S c) →
      Keeps I (fun is => ∀ c ∈ itemCalls is, Q c) (replaceItems f is)
  | [], _ => .pure nofun
  | i :: is, hs => by
    simp only [itemCalls, List.forall_mem_append] at hs
    refine (i.replace_keeps h hs.1).bind fun _ hi => (replaceItems_keeps h is hs.2).bind fun _ his => ?_
    exact .pure (List.forall_mem_append.mpr ⟨hi, his⟩)

theorem SelectItem.replace_keeps (h : Settles f I S Q) :
    ∀ i : SelectItem, (∀ c ∈ i.calls, S c) → Keeps I (fun i => ∀ c ∈ i.calls, Q c) (i.replace f)
  | ⟨value, _⟩, hs => (value.replace_keeps h hs).bind fun _ hv => .pure hv

theorem Grouping.replace_keeps (h : Settles f I S Q) :
    ∀ g : Grouping, (∀ c ∈ g.calls, S c) → Keeps I (fun g => ∀ c ∈ g.calls, Q c) (g.replace f)
  | .all, _ => .pure nofun
  | .by items, hs => (replaceExprs_keeps h items hs).bind fun _ hi => .pure hi

theorem replaceTables_keeps (h : Settles f I S Q) :
    ∀ ts : List TableJoins, (∀ c ∈ tableCalls ts, S c) →
      Keeps I (fun ts => ∀ c ∈ tableCalls ts, Q c) (replaceTables f ts)
  | [], _ => .pure nofun
  | t :: ts, hs => by
    simp only [tableCalls, List.forall_mem_append] at hs
    refine (t.replace_keeps h hs.1).bind fun _ ht => (replaceTables_keeps h ts hs.2).bind fun _ hts => ?_
    exact .pure (List.forall_mem_append.mpr ⟨ht, hts⟩)

theorem TableJoins.replace_keeps (h : Settles f I S Q) :
    ∀ t : TableJoins, (∀ c ∈ t.calls, S c) → Keeps I (fun t => ∀ c ∈ t.calls, Q c) (t.replace f)
  | ⟨table, joins⟩, hs => by
    simp only [TableJoins.calls, List.forall_mem_append] at hs
    refine (table.replace_keeps h hs.1).bind fun _ ht => (replaceJoins_keeps h joins hs.2).bind fun _ hj => ?_
    exact .pure (List.forall_mem_append.mpr ⟨ht, hj⟩)

theorem Table.replace_keeps (h : Settles f I S Q) :
    ∀ t : Table, (∀ c ∈ t.calls, S c) → Keeps I (fun t => ∀ c ∈ t.calls, Q c) (t.replace f)
  | .named _ _, _ => .pure nofun
  | .derived q _, hs => (q.replace_keeps h hs).bind fun _ hq => .pure hq
  | .joined t _, hs => (t.replace_keeps h hs).bind fun _ ht => .pure ht

theorem replaceJoins_keeps (h : Settles f I S Q) :
    ∀ js : List Join, (∀ c ∈ joinCalls js, S c) → Keeps I (fun js => ∀ c ∈ joinCalls js, Q c) (replaceJoins f js)
  | [], _ => .pure nofun
  | j :: js, hs => by
    simp only [joinCalls, List.forall_mem_append] at hs
    refine (j.replace_keeps h hs.1).bind fun _ hj => (replaceJoins_keeps h js hs.2).bind fun _ hjs => ?_
    exact .pure (List.forall_mem_append.mpr ⟨hj, hjs⟩)

theorem Join.replace_keeps (h : Settles f I S Q) :
    ∀ j : Join, (∀ c ∈ j.calls, S c) → Keeps I (fun j => ∀ c ∈ j.calls, Q c) (j.replace f)
  | ⟨_, table, condition⟩, hs => by
    simp only [Join.calls, List.forall_mem_append] at hs
    refine (table.replace_keeps h hs.1).bind fun _ ht => (condition.replace_keeps h hs.2).bind fun _ hc => ?_
    exact .pure (List.forall_mem_append.mpr ⟨ht, hc⟩)

theorem JoinCondition.replace_keeps (h : Settles f I S Q) :
    ∀ j : JoinCondition, (∀ c ∈ j.calls, S c) → Keeps I (fun j => ∀ c ∈ j.calls, Q c) (j.replace f)
  | .on e, hs => (e.replace_keeps h hs).bind fun _ he => .pure he
  | .using _, _ | .natural, _ | .none, _ => .pure nofun

theorem replaceOrder_keeps (h : Settles f I S Q) :
    ∀ os : List OrderItem, (∀ c ∈ orderCalls os, S c) →
      Keeps I (fun os => ∀ c ∈ orderCalls os, Q c) (replaceOrder f os)
  | [], _ => .pure nofun
  | o :: os, hs => by
    simp only [orderCalls, List.forall_mem_append] at hs
    refine (o.replace_keeps h hs.1).bind fun _ ho => (replaceOrder_keeps h os hs.2).bind fun _ hos => ?_
    exact .pure (List.forall_mem_append.mpr ⟨ho, hos⟩)

theorem OrderItem.replace_keeps (h : Settles f I S Q) :
    ∀ o : OrderItem, (∀ c ∈ o.calls, S c) → Keeps I (fun o => ∀ c ∈ o.calls, Q c) (o.replace f)
  | ⟨value, _, _⟩, hs => (value.replace_keeps h hs).bind fun _ hv => .pure hv

end

theorem replaceSource_keeps (h : Settles f I S Q) (q : Option Query) (hs : ∀ c ∈ q.elim [] (·.calls), S c) :
    Keeps I (fun q => ∀ c ∈ q.elim [] (·.calls), Q c) (replaceSource f q) := by
  cases q with
  | none => exact .pure nofun
  | some q => exact (q.replace_keeps h hs).bind fun _ hq => .pure hq

theorem ColumnOption.replace_keeps (h : Settles f I S Q) :
    ∀ o : ColumnOption, (∀ c ∈ o.calls, S c) → Keeps I (fun o => ∀ c ∈ o.calls, Q c) (o.replace f)
  | .default e, hs => (e.replace_keeps h hs).bind fun _ he => .pure he
  | .notNull, _ | .null, _ | .primaryKey, _ | .unique, _ => .pure nofun

theorem ColumnDefinition.replace_keeps (h : Settles f I S Q) (c : ColumnDefinition)
    (hs : ∀ d ∈ c.calls, S d) : Keeps I (fun c => ∀ d ∈ c.calls, Q d) (c.replace f) := by
  simp only [ColumnDefinition.calls, List.forall_mem_flatMap] at hs
  refine (Keeps.mapM fun o ho => o.replace_keeps h (hs o ho)).bind fun options ho => .pure ?_
  simpa only [ColumnDefinition.calls, List.forall_mem_flatMap] using ho

/-- **What calls a replacement of calls leaves.** The calls of the new statement are those of the
expressions that the calls have become. -/
theorem Statement.replace_keeps (h : Settles f I S Q) :
    ∀ s : Statement, (∀ c ∈ s.calls, S c) → Keeps I (fun s => ∀ c ∈ s.calls, Q c) (s.replace f)
  | .query q, hs => (q.replace_keeps h hs).bind fun _ hq => .pure hq
  | .insert _ _ _ source, hs => (source.replace_keeps h hs).bind fun _ hq => .pure hq
  | .update table assignments source filter, hs => by
    simp only [Statement.calls, List.forall_mem_append, List.forall_mem_flatMap] at hs
    refine (table.replace_keeps h hs.1.1.1).bind fun target ht => ?_
    have assigned : Keeps I (fun as => ∀ a ∈ as, ∀ c ∈ a.2.calls, Q c)
        (assignments.mapM fun a => return (a.1, ← a.2.replace f)) :=
      .mapM fun a ha => (a.2.replace_keeps h (hs.1.1.2 a ha)).bind fun _ he => .pure he
    refine assigned.bind fun as ha => ?_
    have rest {t : Option TableJoins} (hj : ∀ c ∈ t.elim [] (·.calls), Q c) :
        Keeps I (fun s => ∀ c ∈ s.calls, Q c)
          (do return Statement.update target as t (← replaceOption f filter) : StateT σ (Except ε) Statement) := by
      refine (replaceOption_keeps h filter hs.2).bind fun _ hf => .pure ?_
      simp only [Statement.calls, List.forall_mem_append, List.forall_mem_flatMap]
      exact ⟨⟨⟨ht, ha⟩, hj⟩, hf⟩
    cases source with
    | none => exact rest nofun
    | some t => exact ((t.replace_keeps h hs.1.2).map fun _ hj => hj).bind fun _ hj => rest hj
  | .delete _ tables filter, hs => by
    simp only [Statement.calls, List.forall_mem_append] at hs
    refine (replaceTables_keeps h tables hs.1).bind fun _ ht => (replaceOption_keeps h filter hs.2).bind fun _ hf => ?_
    exact .pure (List.forall_mem_append.mpr ⟨ht, hf⟩)
  | .createTable _ _ _ _ columns source, hs => by
    simp only [Statement.calls, List.forall_mem_append, List.forall_mem_flatMap] at hs
    refine (Keeps.mapM fun c hc => c.replace_keeps h (hs.1 c hc)).bind fun _ hc =>
      (replaceSource_keeps h source hs.2).bind fun _ hq => .pure ?_
    simp only [Statement.calls, List.forall_mem_append, List.forall_mem_flatMap]
    exact ⟨hc, hq⟩
  | .explain _ _ _ s, hs => (Statement.replace_keeps h s hs).bind fun _ hs => .pure hs
  | .dropTable .., _ | .explainTable .., _ => .pure nofun

end Replacing

/-! ## Replacements that leave every call -/

section Leaving

variable {m : Type → Type} [Monad m] [LawfulMonad m] {f : Expr → m Expr} {Q : Call → Prop}

/-- A replacement that leaves everything but calls, and of these such as `Q` says. -/
structure Spares (f : Expr → m Expr) (Q : Call → Prop) : Prop where
  other {e : Expr} (h : ∀ c, e ≠ .call c) : f e = pure e
  call {c : Call} (h : Q c) : f (.call c) = pure (.call c)

mutual

theorem Expr.replace_spared (h : Spares f Q) : ∀ e : Expr, (∀ c ∈ e.calls, Q c) → e.replace f = pure e
  | .name _, _ | .star _, _ | .literal _, _ => h.other nofun
  | .nested e, hs | .unary _ e, hs | .test e _ _, hs | .cast _ e _, hs | .rounding _ e _, hs => by
    simp [Expr.replace, e.replace_spared h hs, h.other]
  | .tuple items, hs => by simp [Expr.replace, replaceExprs_spared h items hs, h.other]
  | .binary left _ right, hs | .distinct left _ right, hs | .like left _ _ right _, hs => by
    simp only [Expr.calls, List.forall_mem_append] at hs
    simp [Expr.replace, left.replace_spared h hs.1, right.replace_spared h hs.2, h.other]
  | .inList e _ items, hs => by
    simp only [Expr.calls, List.forall_mem_append] at hs
    simp [Expr.replace, e.replace_spared h hs.1, replaceExprs_spared h items hs.2, h.other]
  | .inQuery e _ q, hs => by
    simp only [Expr.calls, List.forall_mem_append] at hs
    simp [Expr.replace, e.replace_spared h hs.1, q.replace_spared h hs.2, h.other]
  | .between e _ low high, hs => by
    simp only [Expr.calls, List.forall_mem_append] at hs
    simp [Expr.replace, e.replace_spared h hs.1.1, low.replace_spared h hs.1.2, high.replace_spared h hs.2, h.other]
  | .case operand branches otherwise, hs => by
    simp only [Expr.calls, List.forall_mem_append] at hs
    simp [Expr.replace, replaceOption_spared h operand hs.1.1.1, replaceConditions_spared h branches hs.1.1.2,
      replaceResults_spared h branches hs.1.2, replaceOption_spared h otherwise hs.2, h.other,
      List.zip_map']
  | .exists _ q, hs | .query q, hs => by simp [Expr.replace, q.replace_spared h hs, h.other]
  | .call ⟨name, arguments⟩, hs => by
    simp only [Expr.calls, Call.calls, List.forall_mem_append, List.forall_mem_singleton] at hs
    simp [Expr.replace, Call.replace, arguments.replace_spared h hs.1, h.call hs.2]

theorem replaceExprs_spared (h : Spares f Q) :
    ∀ es : List Expr, (∀ c ∈ exprCalls es, Q c) → replaceExprs f es = pure es
  | [], _ => rfl
  | e :: es, hs => by
    simp only [exprCalls, List.forall_mem_append] at hs
    simp [replaceExprs, e.replace_spared h hs.1, replaceExprs_spared h es hs.2]

theorem replaceConditions_spared (h : Spares f Q) :
    ∀ bs : List (Expr × Expr), (∀ c ∈ conditionCalls bs, Q c) → replaceConditions f bs = pure (bs.map (·.1))
  | [], _ => rfl
  | (e, _) :: bs, hs => by
    simp only [conditionCalls, List.forall_mem_append] at hs
    simp [replaceConditions, e.replace_spared h hs.1, replaceConditions_spared h bs hs.2]

theorem replaceResults_spared (h : Spares f Q) :
    ∀ bs : List (Expr × Expr), (∀ c ∈ resultCalls bs, Q c) → replaceResults f bs = pure (bs.map (·.2))
  | [], _ => rfl
  | (_, e) :: bs, hs => by
    simp only [resultCalls, List.forall_mem_append] at hs
    simp [replaceResults, e.replace_spared h hs.1, replaceResults_spared h bs hs.2]

theorem replaceOption_spared (h : Spares f Q) :
    ∀ e : Option Expr, (∀ c ∈ optionCalls e, Q c) → replaceOption f e = pure e
  | none, _ => rfl
  | some e, hs => by simp [replaceOption, e.replace_spared h hs]

theorem Arguments.replace_spared (h : Spares f Q) :
    ∀ a : Arguments, (∀ c ∈ a.calls, Q c) → a.replace f = pure a
  | .absent, _ => rfl
  | .list _ items, hs => by simp [Arguments.replace, replaceArguments_spared h items hs]
  | .query q, hs => by simp [Arguments.replace, q.replace_spared h hs]

theorem replaceArguments_spared (h : Spares f Q) :
    ∀ as : List Argument, (∀ c ∈ argumentCalls as, Q c) → replaceArguments f as = pure as
  | [], _ => rfl
  | a :: as, hs => by
    simp only [argumentCalls, List.forall_mem_append] at hs
    simp [replaceArguments, a.replace_spared h hs.1, replaceArguments_spared h as hs.2]

theorem Argument.replace_spared (h : Spares f Q) :
    ∀ a : Argument, (∀ c ∈ a.calls, Q c) → a.replace f = pure a
  | .positional e, hs | .named _ _ e, hs => by simp [Argument.replace, e.replace_spared h hs]

theorem Query.replace_spared (h : Spares f Q) : ∀ q : Query, (∀ c ∈ q.calls, Q c) → q.replace f = pure q
  | ⟨_, named, body, order, limit, offset, _, _⟩, hs => by
    simp only [Query.calls, List.forall_mem_append] at hs
    simp [Query.replace, replaceNamed_spared h named hs.1.1.1.1, body.replace_spared h hs.1.1.1.2,
      replaceOrder_spared h order hs.1.1.2, replaceOption_spared h limit hs.1.2,
      replaceOption_spared h offset hs.2]

theorem replaceNamed_spared (h : Spares f Q) :
    ∀ ns : List NamedQuery, (∀ c ∈ namedCalls ns, Q c) → replaceNamed f ns = pure ns
  | [], _ => rfl
  | n :: ns, hs => by
    simp only [namedCalls, List.forall_mem_append] at hs
    simp [replaceNamed, n.replace_spared h hs.1, replaceNamed_spared h ns hs.2]

theorem NamedQuery.replace_spared (h : Spares f Q) :
    ∀ n : NamedQuery, (∀ c ∈ n.calls, Q c) → n.replace f = pure n
  | ⟨_, query⟩, hs => by simp [NamedQuery.replace, query.replace_spared h hs]

theorem Body.replace_spared (h : Spares f Q) : ∀ b : Body, (∀ c ∈ b.calls, Q c) → b.replace f = pure b
  | .select s, hs => by simp [Body.replace, s.replace_spared h hs]
  | .query q, hs => by simp [Body.replace, q.replace_spared h hs]
  | .combined left _ _ right, hs => by
    simp only [Body.calls, List.forall_mem_append] at hs
    simp [Body.replace, left.replace_spared h hs.1, right.replace_spared h hs.2]
  | .values _ rows, hs => by simp [Body.replace, replaceRows_spared h rows hs]

theorem replaceRows_spared (h : Spares f Q) :
    ∀ rs : List (List Expr), (∀ c ∈ rowCalls rs, Q c) → replaceRows f rs = pure rs
  | [], _ => rfl
  | r :: rs, hs => by
    simp only [rowCalls, List.forall_mem_append] at hs
    simp [replaceRows, replaceExprs_spared h r hs.1, replaceRows_spared h rs hs.2]

theorem Select.replace_spared (h : Spares f Q) : ∀ s : Select, (∀ c ∈ s.calls, Q c) → s.replace f = pure s
  | ⟨_, items, tables, filter, groups, having⟩, hs => by
    simp only [Select.calls, List.forall_mem_append] at hs
    simp [Select.replace, replaceItems_spared h items hs.1.1.1.1, replaceTables_spared h tables hs.1.1.1.2,
      replaceOption_spared h filter hs.1.1.2, groups.replace_spared h hs.1.2,
      replaceOption_spared h having hs.2]

theorem replaceItems_spared (h : Spares f Q) :
    ∀ is : List SelectItem, (∀ c ∈ itemCalls is, Q c) → replaceItems f is = pure is
  | [], _ => rfl
  | i :: is, hs => by
    simp only [itemCalls, List.forall_mem_append] at hs
    simp [replaceItems, i.replace_spared h hs.1, replaceItems_spared h is hs.2]

theorem SelectItem.replace_spared (h : Spares f Q) :
    ∀ i : SelectItem, (∀ c ∈ i.calls, Q c) → i.replace f = pure i
  | ⟨value, _⟩, hs => by simp [SelectItem.replace, value.replace_spared h hs]

theorem Grouping.replace_spared (h : Spares f Q) :
    ∀ g : Grouping, (∀ c ∈ g.calls, Q c) → g.replace f = pure g
  | .all, _ => rfl
  | .by items, hs => by simp [Grouping.replace, replaceExprs_spared h items hs]

theorem replaceTables_spared (h : Spares f Q) :
    ∀ ts : List TableJoins, (∀ c ∈ tableCalls ts, Q c) → replaceTables f ts = pure ts
  | [], _ => rfl
  | t :: ts, hs => by
    simp only [tableCalls, List.forall_mem_append] at hs
    simp [replaceTables, t.replace_spared h hs.1, replaceTables_spared h ts hs.2]

theorem TableJoins.replace_spared (h : Spares f Q) :
    ∀ t : TableJoins, (∀ c ∈ t.calls, Q c) → t.replace f = pure t
  | ⟨table, joins⟩, hs => by
    simp only [TableJoins.calls, List.forall_mem_append] at hs
    simp [TableJoins.replace, table.replace_spared h hs.1, replaceJoins_spared h joins hs.2]

theorem Table.replace_spared (h : Spares f Q) : ∀ t : Table, (∀ c ∈ t.calls, Q c) → t.replace f = pure t
  | .named _ _, _ => rfl
  | .derived q _, hs => by simp [Table.replace, q.replace_spared h hs]
  | .joined t _, hs => by simp [Table.replace, t.replace_spared h hs]

theorem replaceJoins_spared (h : Spares f Q) :
    ∀ js : List Join, (∀ c ∈ joinCalls js, Q c) → replaceJoins f js = pure js
  | [], _ => rfl
  | j :: js, hs => by
    simp only [joinCalls, List.forall_mem_append] at hs
    simp [replaceJoins, j.replace_spared h hs.1, replaceJoins_spared h js hs.2]

theorem Join.replace_spared (h : Spares f Q) : ∀ j : Join, (∀ c ∈ j.calls, Q c) → j.replace f = pure j
  | ⟨_, table, condition⟩, hs => by
    simp only [Join.calls, List.forall_mem_append] at hs
    simp [Join.replace, table.replace_spared h hs.1, condition.replace_spared h hs.2]

theorem JoinCondition.replace_spared (h : Spares f Q) :
    ∀ j : JoinCondition, (∀ c ∈ j.calls, Q c) → j.replace f = pure j
  | .on e, hs => by simp [JoinCondition.replace, e.replace_spared h hs]
  | .using _, _ | .natural, _ | .none, _ => rfl

theorem replaceOrder_spared (h : Spares f Q) :
    ∀ os : List OrderItem, (∀ c ∈ orderCalls os, Q c) → replaceOrder f os = pure os
  | [], _ => rfl
  | o :: os, hs => by
    simp only [orderCalls, List.forall_mem_append] at hs
    simp [replaceOrder, o.replace_spared h hs.1, replaceOrder_spared h os hs.2]

theorem OrderItem.replace_spared (h : Spares f Q) :
    ∀ o : OrderItem, (∀ c ∈ o.calls, Q c) → o.replace f = pure o
  | ⟨value, _, _⟩, hs => by simp [OrderItem.replace, value.replace_spared h hs]

end

theorem mapM_spared {α : Type} {g : α → m α} {l : List α} (h : ∀ a ∈ l, g a = pure a) : l.mapM g = pure l := by
  induction l with
  | nil => rfl
  | cons a l ih => simp [List.mapM_cons, h a (by simp), ih fun b hb => h b (by simp [hb])]

theorem replaceSource_spared (h : Spares f Q) (q : Option Query) (hs : ∀ c ∈ q.elim [] (·.calls), Q c) :
    replaceSource f q = pure q := by
  cases q with
  | none => rfl
  | some q => simp [replaceSource, q.replace_spared h hs]

theorem ColumnOption.replace_spared (h : Spares f Q) :
    ∀ o : ColumnOption, (∀ c ∈ o.calls, Q c) → o.replace f = pure o
  | .default e, hs => by simp [ColumnOption.replace, e.replace_spared h hs]
  | .notNull, _ | .null, _ | .primaryKey, _ | .unique, _ => rfl

theorem ColumnDefinition.replace_spared (h : Spares f Q) (c : ColumnDefinition) (hs : ∀ d ∈ c.calls, Q d) :
    c.replace f = pure c := by
  simp only [ColumnDefinition.calls, List.forall_mem_flatMap] at hs
  simp [ColumnDefinition.replace, mapM_spared fun o ho => ColumnOption.replace_spared h o (hs o ho)]

/-- A statement stays as it is when each of its calls does. -/
theorem Statement.replace_spared (h : Spares f Q) :
    ∀ s : Statement, (∀ c ∈ s.calls, Q c) → s.replace f = pure s
  | .query q, hs => by simp [Statement.replace, q.replace_spared h hs]
  | .insert _ _ _ source, hs => by simp [Statement.replace, source.replace_spared h hs]
  | .update table assignments source filter, hs => by
    simp only [Statement.calls, List.forall_mem_append, List.forall_mem_flatMap] at hs
    have assigned : (assignments.mapM fun a => Prod.mk a.1 <$> a.2.replace f) = pure assignments :=
      mapM_spared fun a ha => by simp [a.2.replace_spared h (hs.1.1.2 a ha)]
    cases source with
    | none =>
      simp [Statement.replace, table.replace_spared h hs.1.1.1, assigned, replaceOption_spared h filter hs.2]
    | some t =>
      simp [Statement.replace, table.replace_spared h hs.1.1.1, assigned, t.replace_spared h hs.1.2,
        replaceOption_spared h filter hs.2]
  | .delete _ tables filter, hs => by
    simp only [Statement.calls, List.forall_mem_append] at hs
    simp [Statement.replace, replaceTables_spared h tables hs.1, replaceOption_spared h filter hs.2]
  | .createTable _ _ _ _ columns source, hs => by
    simp only [Statement.calls, List.forall_mem_append, List.forall_mem_flatMap] at hs
    simp [Statement.replace, mapM_spared fun c hc => ColumnDefinition.replace_spared h c (hs.1 c hc),
      replaceSource_spared h source hs.2]
  | .explain _ _ _ s, hs => by simp [Statement.replace, Statement.replace_spared h s hs]
  | .dropTable .., _ | .explainTable .., _ => rfl

end Leaving

end DetectionPlan.Sql
