/-
Trees with some calls swapped for other expressions. What a replacement of calls makes of a
tree is such a tree (`Query.replace_turns`), so it can be taken apart by its constructors
without a word about the steps of the replacement.
-/
import DetectionPlan.Proofs.Sql.Calls
import Mathlib.Data.Option.Basic

namespace DetectionPlan.Sql

/-! ## Tables joined between parentheses -/

/-- A word that starts a query, or rows of values, where it stands for no name. -/
def Ident.startsRows (i : Ident) : Bool :=
  i.quote.isNone && (Keyword.ofWord? i.text).any fun k => k == .SELECT || k == .WITH || k == .VALUES

/-- Whether joined tables begin with a table of such a name. -/
def TableJoins.startsRows : TableJoins → Bool
  | ⟨.named name _, _⟩ => name.head?.any Ident.startsRows
  | _ => false

mutual

/-- The tables in an expression that are joined between parentheses. -/
def Expr.bracketed : Expr → List TableJoins
  | .name _ | .star _ | .literal _ => []
  | .nested e | .unary _ e | .test e _ _ | .cast _ e _ | .rounding _ e _ => e.bracketed
  | .tuple items => exprsBracketed items
  | .binary left _ right | .distinct left _ right => left.bracketed ++ right.bracketed
  | .like e _ _ pattern _ => e.bracketed ++ pattern.bracketed
  | .inList e _ items => e.bracketed ++ exprsBracketed items
  | .inQuery e _ q => e.bracketed ++ q.bracketed
  | .between e _ low high => e.bracketed ++ low.bracketed ++ high.bracketed
  | .case operand branches otherwise =>
    optionBracketed operand ++ branchesBracketed branches ++ optionBracketed otherwise
  | .exists _ q | .query q => q.bracketed
  | .call c => c.bracketed

def exprsBracketed : List Expr → List TableJoins
  | [] => []
  | e :: rest => e.bracketed ++ exprsBracketed rest

def branchesBracketed : List (Expr × Expr) → List TableJoins
  | [] => []
  | (condition, result) :: rest => condition.bracketed ++ result.bracketed ++ branchesBracketed rest

def optionBracketed : Option Expr → List TableJoins
  | none => []
  | some e => e.bracketed

def Call.bracketed : Call → List TableJoins
  | ⟨_, arguments⟩ => arguments.bracketed

def Arguments.bracketed : Arguments → List TableJoins
  | .absent => []
  | .list _ items => argumentsBracketed items
  | .query q => q.bracketed

def argumentsBracketed : List Argument → List TableJoins
  | [] => []
  | a :: rest => a.bracketed ++ argumentsBracketed rest

def Argument.bracketed : Argument → List TableJoins
  | .positional e | .named _ _ e => e.bracketed

/-- The tables in a query that are joined between parentheses. -/
def Query.bracketed : Query → List TableJoins
  | ⟨_, named, body, order, limit, offset, _, _⟩ =>
    namedBracketed named ++ body.bracketed ++ orderBracketed order ++ optionBracketed limit ++ optionBracketed offset

def namedBracketed : List NamedQuery → List TableJoins
  | [] => []
  | n :: rest => n.bracketed ++ namedBracketed rest

def NamedQuery.bracketed : NamedQuery → List TableJoins
  | ⟨_, query⟩ => query.bracketed

def Body.bracketed : Body → List TableJoins
  | .select s => s.bracketed
  | .query q => q.bracketed
  | .combined left _ _ right => left.bracketed ++ right.bracketed
  | .values _ rows => rowsBracketed rows

def rowsBracketed : List (List Expr) → List TableJoins
  | [] => []
  | row :: rest => exprsBracketed row ++ rowsBracketed rest

def Select.bracketed : Select → List TableJoins
  | ⟨_, items, tables, filter, groups, having⟩ =>
    itemsBracketed items ++ tablesBracketed tables ++ optionBracketed filter ++ groups.bracketed ++
      optionBracketed having

def itemsBracketed : List SelectItem → List TableJoins
  | [] => []
  | i :: rest => i.bracketed ++ itemsBracketed rest

def SelectItem.bracketed : SelectItem → List TableJoins
  | ⟨value, _⟩ => value.bracketed

def Grouping.bracketed : Grouping → List TableJoins
  | .all => []
  | .by items => exprsBracketed items

def tablesBracketed : List TableJoins → List TableJoins
  | [] => []
  | t :: rest => t.bracketed ++ tablesBracketed rest

def TableJoins.bracketed : TableJoins → List TableJoins
  | ⟨table, joins⟩ => table.bracketed ++ joinsBracketed joins

def Table.bracketed : Table → List TableJoins
  | .named _ _ => []
  | .derived q _ => q.bracketed
  | .joined t _ => t :: t.bracketed

def joinsBracketed : List Join → List TableJoins
  | [] => []
  | j :: rest => j.bracketed ++ joinsBracketed rest

def Join.bracketed : Join → List TableJoins
  | ⟨_, table, condition⟩ => table.bracketed ++ condition.bracketed

def JoinCondition.bracketed : JoinCondition → List TableJoins
  | .on e => e.bracketed
  | .using _ | .natural | .none => []

def orderBracketed : List OrderItem → List TableJoins
  | [] => []
  | o :: rest => o.bracketed ++ orderBracketed rest

def OrderItem.bracketed : OrderItem → List TableJoins
  | ⟨value, _, _⟩ => value.bracketed

end

/-! ## Trees that turn into each other -/

section

variable (R : Call → Option Expr → Prop)

mutual

/-- An expression turns into another in which some of its calls stand, their arguments turned, and
for the others stands an expression. What becomes of a call is what `R` allows. -/
inductive Expr.Turns : Expr → Expr → Prop
  | name {parts : List Ident} : Expr.Turns (.name parts) (.name parts)
  | star {table : List Ident} : Expr.Turns (.star table) (.star table)
  | literal {value : Literal} : Expr.Turns (.literal value) (.literal value)
  | nested {e e' : Expr} (h : Expr.Turns e e') : Expr.Turns (.nested e) (.nested e')
  | tuple {es es' : List Expr} (h : List.Forall₂ Expr.Turns es es') : Expr.Turns (.tuple es) (.tuple es')
  | unary {op : UnaryOp} {e e' : Expr} (h : Expr.Turns e e') : Expr.Turns (.unary op e) (.unary op e')
  | binary {l l' r r' : Expr} {op : BinaryOp} (hl : Expr.Turns l l') (hr : Expr.Turns r r') :
    Expr.Turns (.binary l op r) (.binary l' op r')
  | test {e e' : Expr} {negated : Bool} {what : TruthTest} (h : Expr.Turns e e') :
    Expr.Turns (.test e negated what) (.test e' negated what)
  | distinct {l l' r r' : Expr} {negated : Bool} (hl : Expr.Turns l l') (hr : Expr.Turns r r') :
    Expr.Turns (.distinct l negated r) (.distinct l' negated r')
  | inList {e e' : Expr} {negated : Bool} {es es' : List Expr} (h : Expr.Turns e e')
    (hs : List.Forall₂ Expr.Turns es es') : Expr.Turns (.inList e negated es) (.inList e' negated es')
  | inQuery {e e' : Expr} {negated : Bool} {q q' : Query} (h : Expr.Turns e e') (hq : Query.Turns q q') :
    Expr.Turns (.inQuery e negated q) (.inQuery e' negated q')
  | between {e e' l l' r r' : Expr} {negated : Bool} (h : Expr.Turns e e') (hl : Expr.Turns l l')
    (hr : Expr.Turns r r') : Expr.Turns (.between e negated l r) (.between e' negated l' r')
  | like {e e' p p' : Expr} {negated caseless : Bool} {escape : Option String} (h : Expr.Turns e e')
    (hp : Expr.Turns p p') : Expr.Turns (.like e negated caseless p escape) (.like e' negated caseless p' escape)
  | case {o o' e e' : Option Expr} {bs bs' : List (Expr × Expr)} (ho : Option.Rel Expr.Turns o o')
    (hb : BranchesTurn bs bs') (he : Option.Rel Expr.Turns e e') : Expr.Turns (.case o bs e) (.case o' bs' e')
  | cast {style : CastStyle} {e e' : Expr} {type : DataType} (h : Expr.Turns e e') :
    Expr.Turns (.cast style e type) (.cast style e' type)
  | rounding {upward : Bool} {e e' : Expr} {places : Option Literal} (h : Expr.Turns e e') :
    Expr.Turns (.rounding upward e places) (.rounding upward e' places)
  | exists {negated : Bool} {q q' : Query} (h : Query.Turns q q') :
    Expr.Turns (.exists negated q) (.exists negated q')
  | query {q q' : Query} (h : Query.Turns q q') : Expr.Turns (.query q) (.query q')
  | call {name : List Ident} {a a' : Arguments} (kept : R ⟨name, a⟩ none) (h : Arguments.Turns a a') :
    Expr.Turns (.call ⟨name, a⟩) (.call ⟨name, a'⟩)
  | swapped {c : Call} {e : Expr} (h : R c (some e)) : Expr.Turns (.call c) e

inductive BranchesTurn : List (Expr × Expr) → List (Expr × Expr) → Prop
  | nil : BranchesTurn [] []
  | cons {c c' r r' : Expr} {bs bs' : List (Expr × Expr)} (hc : Expr.Turns c c') (hr : Expr.Turns r r')
    (hb : BranchesTurn bs bs') : BranchesTurn ((c, r) :: bs) ((c', r') :: bs')

inductive Arguments.Turns : Arguments → Arguments → Prop
  | absent : Arguments.Turns .absent .absent
  | list {quantifier : Option Quantifier} {as as' : List Argument} (h : List.Forall₂ Argument.Turns as as') :
    Arguments.Turns (.list quantifier as) (.list quantifier as')
  | query {q q' : Query} (h : Query.Turns q q') : Arguments.Turns (.query q) (.query q')

inductive Argument.Turns : Argument → Argument → Prop
  | positional {e e' : Expr} (h : Expr.Turns e e') : Argument.Turns (.positional e) (.positional e')
  | named {name : Ident} {mark : ArgumentMark} {e e' : Expr} (h : Expr.Turns e e') :
    Argument.Turns (.named name mark e) (.named name mark e')

/-- A query turns into another. Tables joined between parentheses do not begin with a table
whose name starts a query. -/
inductive Query.Turns : Query → Query → Prop
  | mk {isRecursive : Bool} {ns ns' : List NamedQuery} {b b' : Body} {os os' : List OrderItem}
    {l l' o o' : Option Expr} {unit : OffsetUnit} {settings : List (Ident × Literal)}
    (hn : List.Forall₂ NamedQuery.Turns ns ns') (hb : Body.Turns b b') (ho : List.Forall₂ OrderItem.Turns os os')
    (hl : Option.Rel Expr.Turns l l') (hf : Option.Rel Expr.Turns o o') :
    Query.Turns ⟨isRecursive, ns, b, os, l, o, unit, settings⟩ ⟨isRecursive, ns', b', os', l', o', unit, settings⟩

inductive NamedQuery.Turns : NamedQuery → NamedQuery → Prop
  | mk {label : TableLabel} {q q' : Query} (h : Query.Turns q q') : NamedQuery.Turns ⟨label, q⟩ ⟨label, q'⟩

inductive Body.Turns : Body → Body → Prop
  | select {s s' : Select} (h : Select.Turns s s') : Body.Turns (.select s) (.select s')
  | query {q q' : Query} (h : Query.Turns q q') : Body.Turns (.query q) (.query q')
  | combined {l l' r r' : Body} {op : SetOp} {quantifier : Option Quantifier} (hl : Body.Turns l l')
    (hr : Body.Turns r r') : Body.Turns (.combined l op quantifier r) (.combined l' op quantifier r')
  | values {marked : Bool} {rows rows' : List (List Expr)}
    (h : List.Forall₂ (List.Forall₂ Expr.Turns) rows rows') : Body.Turns (.values marked rows) (.values marked rows')

inductive Select.Turns : Select → Select → Prop
  | mk {isDistinct : Bool} {is is' : List SelectItem} {ts ts' : List TableJoins} {f f' h h' : Option Expr}
    {g g' : Grouping} (hi : List.Forall₂ SelectItem.Turns is is') (ht : List.Forall₂ TableJoins.Turns ts ts')
    (hf : Option.Rel Expr.Turns f f') (hg : Grouping.Turns g g') (hh : Option.Rel Expr.Turns h h') :
    Select.Turns ⟨isDistinct, is, ts, f, g, h⟩ ⟨isDistinct, is', ts', f', g', h'⟩

inductive SelectItem.Turns : SelectItem → SelectItem → Prop
  | mk {e e' : Expr} {label : Option Ident} (h : Expr.Turns e e') : SelectItem.Turns ⟨e, label⟩ ⟨e', label⟩

inductive Grouping.Turns : Grouping → Grouping → Prop
  | all : Grouping.Turns .all .all
  | by {es es' : List Expr} (h : List.Forall₂ Expr.Turns es es') : Grouping.Turns (.by es) (.by es')

inductive TableJoins.Turns : TableJoins → TableJoins → Prop
  | mk {t t' : Table} {js js' : List Join} (ht : Table.Turns t t') (hj : List.Forall₂ Join.Turns js js') :
    TableJoins.Turns ⟨t, js⟩ ⟨t', js'⟩

inductive Table.Turns : Table → Table → Prop
  | named {name : List Ident} {label : Option TableLabel} : Table.Turns (.named name label) (.named name label)
  | derived {q q' : Query} {label : Option TableLabel} (h : Query.Turns q q') :
    Table.Turns (.derived q label) (.derived q' label)
  | joined {t t' : TableJoins} {label : Option TableLabel} (plain : t.startsRows = false)
    (h : TableJoins.Turns t t') : Table.Turns (.joined t label) (.joined t' label)

inductive Join.Turns : Join → Join → Prop
  | mk {kind : JoinKind} {t t' : Table} {c c' : JoinCondition} (ht : Table.Turns t t')
    (hc : JoinCondition.Turns c c') : Join.Turns ⟨kind, t, c⟩ ⟨kind, t', c'⟩

inductive JoinCondition.Turns : JoinCondition → JoinCondition → Prop
  | on {e e' : Expr} (h : Expr.Turns e e') : JoinCondition.Turns (.on e) (.on e')
  | using {columns : List Ident} : JoinCondition.Turns (.using columns) (.using columns)
  | natural : JoinCondition.Turns .natural .natural
  | none : JoinCondition.Turns .none .none

inductive OrderItem.Turns : OrderItem → OrderItem → Prop
  | mk {e e' : Expr} {descending : Option Bool} {nulls : Option NullPlace} (h : Expr.Turns e e') :
    OrderItem.Turns ⟨e, descending, nulls⟩ ⟨e', descending, nulls⟩

end

end

/-! ## Replacing calls -/

section Replacing

variable {σ ε : Type} {f : Expr → StateT σ (Except ε) Expr} {S : Call → Prop} {R : Call → Option Expr → Prop}

/-- A replacement of calls and nothing else, of those that are as `S` says: what becomes of one, whose
arguments have been replaced, is what `R` allows. -/
structure Swaps (f : Expr → StateT σ (Except ε) Expr) (S : Call → Prop) (R : Call → Option Expr → Prop) : Prop where
  other {e : Expr} (h : ∀ c, e ≠ .call c) : f e = pure e
  call {c : Call} {arguments : Arguments} {s t : σ} (given : S c)
    (replaced : c.arguments.replace f s = .ok (arguments, t)) :
    Keeps (fun _ => True) (fun e => (R c none ∧ e = .call ⟨c.name, arguments⟩) ∨ R c (some e))
      (f (.call ⟨c.name, arguments⟩))

theorem Swaps.mono {R' : Call → Option Expr → Prop} (h : Swaps f S R) (le : ∀ c e, R c e → R' c e) : Swaps f S R' where
  other := h.other
  call given replaced _ _ _ run hs := (h.call given replaced run hs).imp
    (.imp (fun kept => ⟨le _ _ kept.1, kept.2⟩) (le _ _)) id

/-- What is no call stays, its parts replaced. -/
theorem Swaps.stays (h : Swaps f S R) {e e' : Expr} (other : ∀ c, e' ≠ .call c) (turns : e.Turns R e') :
    Keeps (fun _ => True) (e.Turns R) (f e') := by
  rw [h.other other]
  exact .pure turns

theorem branchesTurn_zip {bs : List (Expr × Expr)} {conditions results : List Expr}
    (hc : List.Forall₂ (Expr.Turns R) (bs.map (·.1)) conditions)
    (hr : List.Forall₂ (Expr.Turns R) (bs.map (·.2)) results) : BranchesTurn R bs (conditions.zip results) := by
  induction bs generalizing conditions results with
  | nil =>
    cases hc
    exact .nil
  | cons b bs ih =>
    match conditions, results, hc, hr with
    | _ :: _, _ :: _, .cons h₁ hc, .cons h₂ hr => exact .cons h₁ h₂ (ih hc hr)

mutual

theorem Expr.replace_turns (h : Swaps f S R) :
    ∀ e : Expr, (∀ c ∈ e.calls, S c) → (∀ t ∈ e.bracketed, t.startsRows = false) →
      Keeps (fun _ => True) (e.Turns R) (e.replace f)
  | .name _, _, _ => h.stays nofun .name
  | .star _, _, _ => h.stays nofun .star
  | .literal _, _, _ => h.stays nofun .literal
  | .nested e, hs, hb => (e.replace_turns h hs hb).bind fun _ he => h.stays nofun (.nested he)
  | .unary _ e, hs, hb => (e.replace_turns h hs hb).bind fun _ he => h.stays nofun (.unary he)
  | .test e _ _, hs, hb => (e.replace_turns h hs hb).bind fun _ he => h.stays nofun (.test he)
  | .cast _ e _, hs, hb => (e.replace_turns h hs hb).bind fun _ he => h.stays nofun (.cast he)
  | .rounding _ e _, hs, hb => (e.replace_turns h hs hb).bind fun _ he => h.stays nofun (.rounding he)
  | .tuple items, hs, hb => (replaceExprs_turns h items hs hb).bind fun _ hi => h.stays nofun (.tuple hi)
  | .binary left _ right, hs, hb => by
    simp only [Expr.calls, Expr.bracketed, List.forall_mem_append] at hs hb
    exact (left.replace_turns h hs.1 hb.1).bind fun _ hl => (right.replace_turns h hs.2 hb.2).bind fun _ hr =>
      h.stays nofun (.binary hl hr)
  | .distinct left _ right, hs, hb => by
    simp only [Expr.calls, Expr.bracketed, List.forall_mem_append] at hs hb
    exact (left.replace_turns h hs.1 hb.1).bind fun _ hl => (right.replace_turns h hs.2 hb.2).bind fun _ hr =>
      h.stays nofun (.distinct hl hr)
  | .like e _ _ pattern _, hs, hb => by
    simp only [Expr.calls, Expr.bracketed, List.forall_mem_append] at hs hb
    exact (e.replace_turns h hs.1 hb.1).bind fun _ he => (pattern.replace_turns h hs.2 hb.2).bind fun _ hp =>
      h.stays nofun (.like he hp)
  | .inList e _ items, hs, hb => by
    simp only [Expr.calls, Expr.bracketed, List.forall_mem_append] at hs hb
    exact (e.replace_turns h hs.1 hb.1).bind fun _ he => (replaceExprs_turns h items hs.2 hb.2).bind fun _ hi =>
      h.stays nofun (.inList he hi)
  | .inQuery e _ q, hs, hb => by
    simp only [Expr.calls, Expr.bracketed, List.forall_mem_append] at hs hb
    exact (e.replace_turns h hs.1 hb.1).bind fun _ he => (q.replace_turns h hs.2 hb.2).bind fun _ hq =>
      h.stays nofun (.inQuery he hq)
  | .between e _ low high, hs, hb => by
    simp only [Expr.calls, Expr.bracketed, List.forall_mem_append] at hs hb
    exact (e.replace_turns h hs.1.1 hb.1.1).bind fun _ he => (low.replace_turns h hs.1.2 hb.1.2).bind fun _ hl =>
      (high.replace_turns h hs.2 hb.2).bind fun _ hh => h.stays nofun (.between he hl hh)
  | .case operand branches otherwise, hs, hb => by
    simp only [Expr.calls, Expr.bracketed, List.forall_mem_append] at hs hb
    exact (replaceOption_turns h operand hs.1.1.1 hb.1.1).bind fun _ ho =>
      (replaceConditions_turns h branches hs.1.1.2 hb.1.2).bind fun _ hc =>
      (replaceResults_turns h branches hs.1.2 hb.1.2).bind fun _ hr =>
      (replaceOption_turns h otherwise hs.2 hb.2).bind fun _ he =>
        h.stays nofun (.case ho (branchesTurn_zip hc hr) he)
  | .exists _ q, hs, hb => (q.replace_turns h hs hb).bind fun _ hq => h.stays nofun (.exists hq)
  | .query q, hs, hb => (q.replace_turns h hs hb).bind fun _ hq => h.stays nofun (.query hq)
  | .call ⟨name, arguments⟩, hs, hb => by
    simp only [Expr.calls, Call.calls, List.forall_mem_append, List.forall_mem_singleton] at hs
    intro s t e run _
    obtain ⟨⟨c, mid⟩, made, run⟩ := Outcome.bind_ok_iff.mp run
    obtain ⟨⟨arguments', mid'⟩, replaced, made⟩ := Outcome.bind_ok_iff.mp made
    obtain ⟨rfl, rfl⟩ := Prod.mk.inj (Except.ok.inj made)
    obtain ⟨⟨kept, rfl⟩ | swapped, -⟩ := h.call hs.2 replaced run trivial
    · exact ⟨.call kept (arguments.replace_turns h hs.1 hb replaced trivial).1, trivial⟩
    · exact ⟨.swapped swapped, trivial⟩

theorem replaceExprs_turns (h : Swaps f S R) :
    ∀ es : List Expr, (∀ c ∈ exprCalls es, S c) → (∀ t ∈ exprsBracketed es, t.startsRows = false) →
      Keeps (fun _ => True) (List.Forall₂ (Expr.Turns R) es) (replaceExprs f es)
  | [], _, _ => .pure .nil
  | e :: es, hs, hb => by
    simp only [exprCalls, exprsBracketed, List.forall_mem_append] at hs hb
    refine (e.replace_turns h hs.1 hb.1).bind fun _ h₁ => (replaceExprs_turns h es hs.2 hb.2).bind fun _ h₂ => ?_
    exact .pure (.cons h₁ h₂)

theorem replaceConditions_turns (h : Swaps f S R) :
    ∀ bs : List (Expr × Expr), (∀ c ∈ conditionCalls bs, S c) → (∀ t ∈ branchesBracketed bs, t.startsRows = false) →
      Keeps (fun _ => True) (List.Forall₂ (Expr.Turns R) (bs.map (·.1))) (replaceConditions f bs)
  | [], _, _ => .pure .nil
  | (e, _) :: bs, hs, hb => by
    simp only [conditionCalls, branchesBracketed, List.forall_mem_append] at hs hb
    refine (e.replace_turns h hs.1 hb.1.1).bind fun _ h₁ => (replaceConditions_turns h bs hs.2 hb.2).bind fun _ h₂ => ?_
    exact .pure (.cons h₁ h₂)

theorem replaceResults_turns (h : Swaps f S R) :
    ∀ bs : List (Expr × Expr), (∀ c ∈ resultCalls bs, S c) → (∀ t ∈ branchesBracketed bs, t.startsRows = false) →
      Keeps (fun _ => True) (List.Forall₂ (Expr.Turns R) (bs.map (·.2))) (replaceResults f bs)
  | [], _, _ => .pure .nil
  | (_, e) :: bs, hs, hb => by
    simp only [resultCalls, branchesBracketed, List.forall_mem_append] at hs hb
    refine (e.replace_turns h hs.1 hb.1.2).bind fun _ h₁ => (replaceResults_turns h bs hs.2 hb.2).bind fun _ h₂ => ?_
    exact .pure (.cons h₁ h₂)

theorem replaceOption_turns (h : Swaps f S R) :
    ∀ e : Option Expr, (∀ c ∈ optionCalls e, S c) → (∀ t ∈ optionBracketed e, t.startsRows = false) →
      Keeps (fun _ => True) (Option.Rel (Expr.Turns R) e) (replaceOption f e)
  | none, _, _ => .pure .none
  | some e, hs, hb => (e.replace_turns h hs hb).bind fun _ he => .pure (.some he)

theorem Arguments.replace_turns (h : Swaps f S R) :
    ∀ a : Arguments, (∀ c ∈ a.calls, S c) → (∀ t ∈ a.bracketed, t.startsRows = false) →
      Keeps (fun _ => True) (a.Turns R) (a.replace f)
  | .absent, _, _ => .pure .absent
  | .list _ items, hs, hb => (replaceArguments_turns h items hs hb).bind fun _ hi => .pure (.list hi)
  | .query q, hs, hb => (q.replace_turns h hs hb).bind fun _ hq => .pure (.query hq)

theorem replaceArguments_turns (h : Swaps f S R) :
    ∀ as : List Argument, (∀ c ∈ argumentCalls as, S c) → (∀ t ∈ argumentsBracketed as, t.startsRows = false) →
      Keeps (fun _ => True) (List.Forall₂ (Argument.Turns R) as) (replaceArguments f as)
  | [], _, _ => .pure .nil
  | a :: as, hs, hb => by
    simp only [argumentCalls, argumentsBracketed, List.forall_mem_append] at hs hb
    refine (a.replace_turns h hs.1 hb.1).bind fun _ h₁ => (replaceArguments_turns h as hs.2 hb.2).bind fun _ h₂ => ?_
    exact .pure (.cons h₁ h₂)

theorem Argument.replace_turns (h : Swaps f S R) :
    ∀ a : Argument, (∀ c ∈ a.calls, S c) → (∀ t ∈ a.bracketed, t.startsRows = false) →
      Keeps (fun _ => True) (a.Turns R) (a.replace f)
  | .positional e, hs, hb => (e.replace_turns h hs hb).bind fun _ he => .pure (.positional he)
  | .named _ _ e, hs, hb => (e.replace_turns h hs hb).bind fun _ he => .pure (.named he)

theorem Query.replace_turns (h : Swaps f S R) :
    ∀ q : Query, (∀ c ∈ q.calls, S c) → (∀ t ∈ q.bracketed, t.startsRows = false) →
      Keeps (fun _ => True) (q.Turns R) (q.replace f)
  | ⟨_, named, body, order, limit, offset, _, _⟩, hs, hb => by
    simp only [Query.calls, Query.bracketed, List.forall_mem_append] at hs hb
    exact (replaceNamed_turns h named hs.1.1.1.1 hb.1.1.1.1).bind fun _ hn =>
      (body.replace_turns h hs.1.1.1.2 hb.1.1.1.2).bind fun _ hbody =>
      (replaceOrder_turns h order hs.1.1.2 hb.1.1.2).bind fun _ ho =>
      (replaceOption_turns h limit hs.1.2 hb.1.2).bind fun _ hl =>
      (replaceOption_turns h offset hs.2 hb.2).bind fun _ hp => .pure (.mk hn hbody ho hl hp)

theorem replaceNamed_turns (h : Swaps f S R) :
    ∀ ns : List NamedQuery, (∀ c ∈ namedCalls ns, S c) → (∀ t ∈ namedBracketed ns, t.startsRows = false) →
      Keeps (fun _ => True) (List.Forall₂ (NamedQuery.Turns R) ns) (replaceNamed f ns)
  | [], _, _ => .pure .nil
  | n :: ns, hs, hb => by
    simp only [namedCalls, namedBracketed, List.forall_mem_append] at hs hb
    refine (n.replace_turns h hs.1 hb.1).bind fun _ h₁ => (replaceNamed_turns h ns hs.2 hb.2).bind fun _ h₂ => ?_
    exact .pure (.cons h₁ h₂)

theorem NamedQuery.replace_turns (h : Swaps f S R) :
    ∀ n : NamedQuery, (∀ c ∈ n.calls, S c) → (∀ t ∈ n.bracketed, t.startsRows = false) →
      Keeps (fun _ => True) (n.Turns R) (n.replace f)
  | ⟨_, query⟩, hs, hb => (query.replace_turns h hs hb).bind fun _ hq => .pure (.mk hq)

theorem Body.replace_turns (h : Swaps f S R) :
    ∀ b : Body, (∀ c ∈ b.calls, S c) → (∀ t ∈ b.bracketed, t.startsRows = false) →
      Keeps (fun _ => True) (b.Turns R) (b.replace f)
  | .select s, hs, hb => (s.replace_turns h hs hb).bind fun _ hs => .pure (.select hs)
  | .query q, hs, hb => (q.replace_turns h hs hb).bind fun _ hq => .pure (.query hq)
  | .combined left _ _ right, hs, hb => by
    simp only [Body.calls, Body.bracketed, List.forall_mem_append] at hs hb
    exact (left.replace_turns h hs.1 hb.1).bind fun _ hl => (right.replace_turns h hs.2 hb.2).bind fun _ hr =>
      .pure (.combined hl hr)
  | .values _ rows, hs, hb => (replaceRows_turns h rows hs hb).bind fun _ hr => .pure (.values hr)

theorem replaceRows_turns (h : Swaps f S R) :
    ∀ rows : List (List Expr), (∀ c ∈ rowCalls rows, S c) → (∀ t ∈ rowsBracketed rows, t.startsRows = false) →
      Keeps (fun _ => True) (List.Forall₂ (List.Forall₂ (Expr.Turns R)) rows) (replaceRows f rows)
  | [], _, _ => .pure .nil
  | row :: rows, hs, hb => by
    simp only [rowCalls, rowsBracketed, List.forall_mem_append] at hs hb
    refine (replaceExprs_turns h row hs.1 hb.1).bind fun _ h₁ =>
      (replaceRows_turns h rows hs.2 hb.2).bind fun _ h₂ => ?_
    exact .pure (.cons h₁ h₂)

theorem Select.replace_turns (h : Swaps f S R) :
    ∀ s : Select, (∀ c ∈ s.calls, S c) → (∀ t ∈ s.bracketed, t.startsRows = false) →
      Keeps (fun _ => True) (s.Turns R) (s.replace f)
  | ⟨_, items, tables, filter, groups, having⟩, hs, hb => by
    simp only [Select.calls, Select.bracketed, List.forall_mem_append] at hs hb
    exact (replaceItems_turns h items hs.1.1.1.1 hb.1.1.1.1).bind fun _ hi =>
      (replaceTables_turns h tables hs.1.1.1.2 hb.1.1.1.2).bind fun _ ht =>
      (replaceOption_turns h filter hs.1.1.2 hb.1.1.2).bind fun _ hf =>
      (groups.replace_turns h hs.1.2 hb.1.2).bind fun _ hg =>
      (replaceOption_turns h having hs.2 hb.2).bind fun _ hh => .pure (.mk hi ht hf hg hh)

theorem replaceItems_turns (h : Swaps f S R) :
    ∀ is : List SelectItem, (∀ c ∈ itemCalls is, S c) → (∀ t ∈ itemsBracketed is, t.startsRows = false) →
      Keeps (fun _ => True) (List.Forall₂ (SelectItem.Turns R) is) (replaceItems f is)
  | [], _, _ => .pure .nil
  | i :: is, hs, hb => by
    simp only [itemCalls, itemsBracketed, List.forall_mem_append] at hs hb
    refine (i.replace_turns h hs.1 hb.1).bind fun _ h₁ => (replaceItems_turns h is hs.2 hb.2).bind fun _ h₂ => ?_
    exact .pure (.cons h₁ h₂)

theorem SelectItem.replace_turns (h : Swaps f S R) :
    ∀ i : SelectItem, (∀ c ∈ i.calls, S c) → (∀ t ∈ i.bracketed, t.startsRows = false) →
      Keeps (fun _ => True) (i.Turns R) (i.replace f)
  | ⟨value, _⟩, hs, hb => (value.replace_turns h hs hb).bind fun _ hv => .pure (.mk hv)

theorem Grouping.replace_turns (h : Swaps f S R) :
    ∀ g : Grouping, (∀ c ∈ g.calls, S c) → (∀ t ∈ g.bracketed, t.startsRows = false) →
      Keeps (fun _ => True) (g.Turns R) (g.replace f)
  | .all, _, _ => .pure .all
  | .by items, hs, hb => (replaceExprs_turns h items hs hb).bind fun _ hi => .pure (.by hi)

theorem replaceTables_turns (h : Swaps f S R) :
    ∀ ts : List TableJoins, (∀ c ∈ tableCalls ts, S c) → (∀ b ∈ tablesBracketed ts, b.startsRows = false) →
      Keeps (fun _ => True) (List.Forall₂ (TableJoins.Turns R) ts) (replaceTables f ts)
  | [], _, _ => .pure .nil
  | t :: ts, hs, hb => by
    simp only [tableCalls, tablesBracketed, List.forall_mem_append] at hs hb
    refine (t.replace_turns h hs.1 hb.1).bind fun _ h₁ => (replaceTables_turns h ts hs.2 hb.2).bind fun _ h₂ => ?_
    exact .pure (.cons h₁ h₂)

theorem TableJoins.replace_turns (h : Swaps f S R) :
    ∀ t : TableJoins, (∀ c ∈ t.calls, S c) → (∀ b ∈ t.bracketed, b.startsRows = false) →
      Keeps (fun _ => True) (t.Turns R) (t.replace f)
  | ⟨table, joins⟩, hs, hb => by
    simp only [TableJoins.calls, TableJoins.bracketed, List.forall_mem_append] at hs hb
    exact (table.replace_turns h hs.1 hb.1).bind fun _ ht => (replaceJoins_turns h joins hs.2 hb.2).bind fun _ hj =>
      .pure (.mk ht hj)

theorem Table.replace_turns (h : Swaps f S R) :
    ∀ t : Table, (∀ c ∈ t.calls, S c) → (∀ b ∈ t.bracketed, b.startsRows = false) →
      Keeps (fun _ => True) (t.Turns R) (t.replace f)
  | .named _ _, _, _ => .pure .named
  | .derived q _, hs, hb => (q.replace_turns h hs hb).bind fun _ hq => .pure (.derived hq)
  | .joined t _, hs, hb => by
    simp only [Table.bracketed, List.forall_mem_cons] at hb
    exact (t.replace_turns h hs hb.2).bind fun _ ht => .pure (.joined hb.1 ht)

theorem replaceJoins_turns (h : Swaps f S R) :
    ∀ js : List Join, (∀ c ∈ joinCalls js, S c) → (∀ t ∈ joinsBracketed js, t.startsRows = false) →
      Keeps (fun _ => True) (List.Forall₂ (Join.Turns R) js) (replaceJoins f js)
  | [], _, _ => .pure .nil
  | j :: js, hs, hb => by
    simp only [joinCalls, joinsBracketed, List.forall_mem_append] at hs hb
    refine (j.replace_turns h hs.1 hb.1).bind fun _ h₁ => (replaceJoins_turns h js hs.2 hb.2).bind fun _ h₂ => ?_
    exact .pure (.cons h₁ h₂)

theorem Join.replace_turns (h : Swaps f S R) :
    ∀ j : Join, (∀ c ∈ j.calls, S c) → (∀ t ∈ j.bracketed, t.startsRows = false) →
      Keeps (fun _ => True) (j.Turns R) (j.replace f)
  | ⟨_, table, condition⟩, hs, hb => by
    simp only [Join.calls, Join.bracketed, List.forall_mem_append] at hs hb
    exact (table.replace_turns h hs.1 hb.1).bind fun _ ht => (condition.replace_turns h hs.2 hb.2).bind fun _ hc =>
      .pure (.mk ht hc)

theorem JoinCondition.replace_turns (h : Swaps f S R) :
    ∀ j : JoinCondition, (∀ c ∈ j.calls, S c) → (∀ t ∈ j.bracketed, t.startsRows = false) →
      Keeps (fun _ => True) (j.Turns R) (j.replace f)
  | .on e, hs, hb => (e.replace_turns h hs hb).bind fun _ he => .pure (.on he)
  | .using _, _, _ => .pure .using
  | .natural, _, _ => .pure .natural
  | .none, _, _ => .pure .none

theorem replaceOrder_turns (h : Swaps f S R) :
    ∀ os : List OrderItem, (∀ c ∈ orderCalls os, S c) → (∀ t ∈ orderBracketed os, t.startsRows = false) →
      Keeps (fun _ => True) (List.Forall₂ (OrderItem.Turns R) os) (replaceOrder f os)
  | [], _, _ => .pure .nil
  | o :: os, hs, hb => by
    simp only [orderCalls, orderBracketed, List.forall_mem_append] at hs hb
    refine (o.replace_turns h hs.1 hb.1).bind fun _ h₁ => (replaceOrder_turns h os hs.2 hb.2).bind fun _ h₂ => ?_
    exact .pure (.cons h₁ h₂)

theorem OrderItem.replace_turns (h : Swaps f S R) :
    ∀ o : OrderItem, (∀ c ∈ o.calls, S c) → (∀ t ∈ o.bracketed, t.startsRows = false) →
      Keeps (fun _ => True) (o.Turns R) (o.replace f)
  | ⟨value, _, _⟩, hs, hb => (value.replace_turns h hs hb).bind fun _ hv => .pure (.mk hv)

end

end Replacing

end DetectionPlan.Sql
