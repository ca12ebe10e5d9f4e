/-
The place of a filter in a text. A query that is read with a filter is read in
the same way, but for the filter, when the tokens of another one stand in its
place. What is read before the filter does not look into it, and what is read
after it does not know of it.
-/
import DetectionPlan.Proofs.Sql.Local.Query
import DetectionPlan.Sql.Shape

namespace DetectionPlan.Sql

namespace Parser

open Outcome (map_ok_iff)

/-! ## Tokens in the place of others -/

/-- Other tokens behind `w`, which differ only behind a token that hides it. -/
def Replaces (w : Token) (back back' : List Token) : Prop :=
  ∃ front m after after', w :: back = front ++ m :: after ∧ w :: back' = front ++ m :: after' ∧
    Hides m after'

variable {α β : Type} {i j o : Nat} {b : Bool} {inner inner' : Inner} {s : ParserSettings} {e : Expr}
variable {ts mid rest : List Token}

theorem Local.replace {p p' : Parser α} (h : Local i o b p p') {front left back back' : List Token}
    {w : Token} {a : α} (r : Replaces w back back')
    (hp : p (front ++ w :: back) = .ok (a, left ++ w :: back)) :
    p' (front ++ w :: back') = .ok (a, left ++ w :: back') := by
  obtain ⟨before, m, after, after', split, split', hides⟩ := r
  rw [split, ← List.append_assoc, ← List.append_assoc] at hp
  have framed := h.frame hides hp
  rw [List.append_assoc, List.append_assoc, ← split'] at framed
  rw [h.deeper (by simp [framed]), framed]

/-! ## Slots -/

/-- Behind a `WHERE` the tokens `ts` hold the filter `e`, which `inner` reads. When
`inner'` reads another filter there, `p'` answers what is made of that one, and
leaves the same tokens. -/
def Slot (inner inner' : Inner) (e : Expr) (ts rest : List Token) (p' : Parser α)
    (make : Expr → α) : Prop :=
  ∃ front name back left, ts = front ++ .word name (some .WHERE) :: back ∧
    inner.expr 0 back = .ok (e, left) ∧ ∀ back' e', Replaces (.word name (some .WHERE)) back back' →
      inner'.expr 0 back' = .ok (e', left) →
        p' (front ++ .word name (some .WHERE) :: back') = .ok (make e', rest)

namespace Slot

variable {p' : Parser α} {make : Expr → α} {make' : Expr → β}

/-- What is made of an answer that holds a filter holds it as well. -/
theorem bind {f' : α → Parser β} (h : Slot inner inner' e ts mid p' make)
    (hf : ∀ e', f' (make e') mid = .ok (make' e', rest)) :
    Slot inner inner' e ts rest (p' >>= f') make' := by
  obtain ⟨front, name, back, left, split, read, again⟩ := h
  refine ⟨front, name, back, left, split, read, fun back' e' r read' => ?_⟩
  rw [bind_of_ok (again back' e' r read')]
  exact hf e'

/-- What is read before a filter is read again before another one. -/
theorem behind {p q : Parser α} {f' : α → Parser β} {a : α} (lp : Local i o b p q)
    (hp : p ts = .ok (a, mid)) (h : Slot inner inner' e mid rest (f' a) make') :
    Slot inner inner' e ts rest (q >>= f') make' := by
  obtain ⟨front, name, back, left, rfl, read, again⟩ := h
  obtain ⟨taken, rfl, -⟩ := lp.takes hp
  refine ⟨taken ++ front, name, back, left, by simp, read, fun back' e' r read' => ?_⟩
  have before : q (taken ++ front ++ .word name (some .WHERE) :: back') =
      .ok (a, front ++ .word name (some .WHERE) :: back') := lp.replace r (by simpa using hp)
  rw [bind_of_ok before]
  exact again back' e' r read'

/-- A parser may be exchanged for one that answers the same where the first token
is the same. -/
theorem congr {q' : Parser α} (h : Slot inner inner' e ts rest p' make)
    (first : ∀ name, ts.head? ≠ some (.word name (some .WHERE)))
    (same : ∀ ts', ts'.head? = ts.head? → q' ts' = p' ts') : Slot inner inner' e ts rest q' make := by
  obtain ⟨front, name, back, left, rfl, read, again⟩ := h
  refine ⟨front, name, back, left, rfl, read, fun back' e' r read' => ?_⟩
  cases front with
  | nil => exact absurd rfl (first name)
  | cons t front =>
    refine (same _ ?_).trans (again back' e' r read')
    rfl

theorem parenthesised {p : Parser α} {a : α} (hp : parenthesised p ts = .ok (a, rest))
    (h : ∀ {ts rest}, p ts = .ok (a, rest) → Slot inner inner' e ts rest p' make) :
    Slot inner inner' e ts rest (Parser.parenthesised p') make := by
  obtain ⟨_, mid, opens, hp⟩ := bind_eq_ok_iff.mp hp
  obtain ⟨a, mid', ha, hp⟩ := bind_eq_ok_iff.mp hp
  obtain ⟨_, mid'', closes, hp⟩ := bind_eq_ok_iff.mp hp
  obtain ⟨rfl, rfl⟩ := Prod.mk.inj (Except.ok.inj hp)
  obtain rfl := expectMark_ok_iff.mp closes
  refine behind (Local.opens (i := 0) (b := true)) opens ((h ha).bind fun e' => ?_)
  rw [bind_of_ok (expectMark_self _)]
  rfl

end Slot

/-! ## Selections -/

theorem filter_slot (h : after .WHERE (inner.expr 0) ts = .ok (some e, rest)) :
    Slot inner inner' e ts rest (after .WHERE (inner'.expr 0)) some := by
  by_cases first : ∃ name, ts.head? = some (.word name (some .WHERE))
  · obtain ⟨name, first⟩ := first
    obtain ⟨back, rfl⟩ := List.head?_eq_some_iff.mp first
    rw [after, bind_of_ok (skipWord_self name _)] at h
    obtain ⟨e', left, read, h⟩ := bind_eq_ok_iff.mp h
    obtain ⟨found, rfl⟩ := Prod.mk.inj (Except.ok.inj h)
    obtain rfl := Option.some.inj found
    refine ⟨[], name, back, left, rfl, read, fun back' e' _ read' => ?_⟩
    rw [List.nil_append, after, bind_of_ok (skipWord_self name _)]
    exact bind_of_ok read'
  · rw [after, bind_of_ok (skipWord_other (not_exists.mp first))] at h
    cases h

theorem select_slot (h : inner.Local inner') {sel : Select}
    (hp : select s inner ts = .ok (sel, rest)) (hf : sel.filter = some e) :
    Slot inner inner' e ts rest (select s inner') fun e' => { sel with filter := some e' } := by
  rw [select_eq] at hp ⊢
  obtain ⟨head, mid₁, h₁, hp⟩ := bind_eq_ok_iff.mp hp
  obtain ⟨filter, mid₂, h₂, hp⟩ := bind_eq_ok_iff.mp hp
  obtain ⟨tail, mid₃, h₃, hp⟩ := bind_eq_ok_iff.mp hp
  obtain ⟨rfl, rfl⟩ := Prod.mk.inj (Except.ok.inj hp)
  obtain rfl : filter = some e := hf
  refine .behind (selectHead_local (b := false) h) h₁ ((filter_slot h₂).bind fun e' => ?_)
  have tail' : selectEnd s inner' mid₂ = .ok (tail, mid₃) :=
    ((selectEnd_local h).deeper (by simp [h₃])).trans h₃
  exact bind_of_ok tail'

/-! ## Bodies -/

/-- A body in parentheses is a query. -/
def bodyQuery (inner : Inner) : Parser Body := do return .query (← parenthesised inner.query)

theorem plainBody_apply (s : ParserSettings) (inner : Inner) (ts : List Token) :
    plainBody s inner ts = match wordOf? ts.head? with
      | some .SELECT => (do return Body.select (← select s inner) : Parser Body) ts
      | some .VALUES => (do discard take; valueRows s inner : Parser Body) ts
      | _ => bodyQuery inner ts := by
  rw [plainBody, bind_of_ok peekWord_apply]
  cases wordOf? ts.head? with
  | none => rfl
  | some k => cases k <;> rfl

theorem valueRows_answers :
    Answers (fun b => ∃ marked rows, b = .values marked rows) (valueRows s inner) :=
  .bind fun _ => .pure ⟨_, _, rfl⟩

theorem plainBody_select_slot (h : inner.Local inner') {sel : Select}
    (hp : plainBody s inner ts = .ok (.select sel, rest)) (hf : sel.filter = some e) :
    Slot inner inner' e ts rest (plainBody s inner')
      fun e' => .select { sel with filter := some e' } := by
  have applied := plainBody_apply s inner ts
  rw [hp] at applied
  split at applied
  next first =>
    obtain ⟨sel', mid, hs, made⟩ := bind_eq_ok_iff.mp applied.symm
    obtain ⟨same, rfl⟩ := Prod.mk.inj (Except.ok.inj made)
    obtain rfl := Body.select.inj same
    have selects : Slot inner inner' e ts mid (do return Body.select (← select s inner'))
        fun e' => .select { sel' with filter := some e' } := (select_slot h hs hf).bind fun e' => rfl
    refine selects.congr ?_ fun ts' same => ?_
    · intro name where_
      rw [where_] at first
      cases first
    · rw [plainBody_apply, same, first]
  · obtain ⟨_, _, _, hv⟩ := bind_eq_ok_iff.mp applied.symm
    obtain ⟨_, _, values⟩ := valueRows_answers hv
    cases values
  · obtain ⟨q, mid, -, made⟩ := bind_eq_ok_iff.mp applied.symm
    cases made

theorem plainBody_query_slot {deep deep' : Inner} {q : Query} {make : Expr → Query}
    (h : ∀ {ts rest}, inner.query ts = .ok (q, rest) → Slot deep deep' e ts rest inner'.query make)
    (hp : plainBody s inner ts = .ok (.query q, rest)) :
    Slot deep deep' e ts rest (plainBody s inner') fun e' => .query (make e') := by
  have applied := plainBody_apply s inner ts
  rw [hp] at applied
  split at applied
  · obtain ⟨sel, mid, -, made⟩ := bind_eq_ok_iff.mp applied.symm
    cases made
  · obtain ⟨_, _, _, hv⟩ := bind_eq_ok_iff.mp applied.symm
    obtain ⟨_, _, values⟩ := valueRows_answers hv
    cases values
  next noSelect noValues =>
    obtain ⟨q', mid, hq, made⟩ := bind_eq_ok_iff.mp applied.symm
    obtain ⟨same, rfl⟩ := Prod.mk.inj (Except.ok.inj made)
    obtain rfl := Body.query.inj same
    have queries : Slot deep deep' e ts mid (bodyQuery inner') fun e' => .query (make e') :=
      (Slot.parenthesised hq h).bind fun e' => rfl
    refine queries.congr ?_ fun ts' same => ?_
    · intro name where_
      obtain ⟨_, _, opens, -⟩ := bind_eq_ok_iff.mp hq
      rw [expectMark_ok_iff.mp opens] at where_
      cases where_
    · rw [plainBody_apply, same]
      split
      next first => exact absurd first noSelect
      next first => exact absurd first noValues
      · rfl

theorem combineIn_combined (ops : List (Keyword × SetOp)) {operand : Parser Body} (n : Nat)
    (left : Body) (op : SetOp) (quantifier : Option Quantifier) (right : Body) :
    Answers (fun b => ∃ left op quantifier right, b = .combined left op quantifier right)
      (combineIn ops operand n (.combined left op quantifier right)) := by
  induction n generalizing left op quantifier right with
  | zero => exact .pure ⟨_, _, _, _, rfl⟩
  | succ n ih =>
    refine .bind fun found => ?_
    split
    · exact .bind fun right => ih _ _ _ right
    · exact .pure ⟨_, _, _, _, rfl⟩

/-- What is no combination stands alone, and any other body would. -/
theorem combineIn_alone {ops : List (Keyword × SetOp)} {operand : Parser Body} {n : Nat} {left b : Body}
    (hp : combineIn ops operand n left ts = .ok (b, rest))
    (alone : ∀ left op quantifier right, b ≠ .combined left op quantifier right) :
    b = left ∧ ∀ operand' left', combineIn ops operand' n left' ts = .ok (left', rest) := by
  cases n with
  | zero =>
    obtain ⟨rfl, rfl⟩ := Prod.mk.inj (Except.ok.inj hp)
    exact ⟨rfl, fun _ _ => rfl⟩
  | succ n =>
    obtain ⟨found, mid, hf, hp⟩ := bind_eq_ok_iff.mp hp
    cases found with
    | none =>
      obtain ⟨rfl, rfl⟩ := Prod.mk.inj (Except.ok.inj hp)
      exact ⟨rfl, fun _ _ => bind_of_ok hf⟩
    | some r =>
      obtain ⟨right, mid', -, hp⟩ := bind_eq_ok_iff.mp hp
      obtain ⟨_, _, _, _, combined⟩ := combineIn_combined ops n _ _ _ _ hp
      exact absurd combined (alone _ _ _ _)

theorem combine_slot {ops : List (Keyword × SetOp)} {operand operand' : Parser Body}
    {b : Body} {make : Expr → Body} (hp : combine ops operand ts = .ok (b, rest))
    (h : ∀ {ts rest}, operand ts = .ok (b, rest) → Slot inner inner' e ts rest operand' make)
    (alone : ∀ left op quantifier right, b ≠ .combined left op quantifier right) :
    Slot inner inner' e ts rest (combine ops operand') make := by
  obtain ⟨first, mid, hf, hp⟩ := bind_eq_ok_iff.mp hp
  obtain ⟨rfl, again⟩ := combineIn_alone hp alone
  exact (h hf).bind fun e' => again operand' (make e')

/-! ## Queries -/

theorem queryEnd_answers (head : Bool × List NamedQuery) :
    Answers (fun make => ∀ b b', make b' = { make b with body := b' }) (queryEnd s inner head) :=
  .bind fun _ => .bind fun _ => .bind fun _ => .bind fun _ => .pure fun _ _ => rfl

theorem queryText_slot {deep deep' : Inner} (h : inner.Local inner') {q : Query} {make : Expr → Body}
    (hp : queryText s inner ts = .ok (q, rest))
    (hb : ∀ {ts rest}, plainBody s inner ts = .ok (q.body, rest) →
      Slot deep deep' e ts rest (plainBody s inner') make)
    (alone : ∀ left op quantifier right, q.body ≠ .combined left op quantifier right) :
    Slot deep deep' e ts rest (queryText s inner') fun e' => { q with body := make e' } := by
  rw [queryText_eq] at hp ⊢
  obtain ⟨head, mid₁, h₁, hp⟩ := bind_eq_ok_iff.mp hp
  obtain ⟨b, mid₂, h₂, hp⟩ := bind_eq_ok_iff.mp hp
  obtain ⟨ends, mid₃, h₃, hp⟩ := bind_eq_ok_iff.mp hp
  obtain ⟨rfl, rfl⟩ := Prod.mk.inj (Except.ok.inj hp)
  have made : ∀ b', ends b' = { ends b with body := b' } := queryEnd_answers head h₃ b
  have body_eq : (ends b).body = b := by rw [made b]
  rw [body_eq] at hb alone
  have body_slot : Slot deep deep' e mid₁ mid₂ (body s inner') make :=
    combine_slot h₂ (fun hc => combine_slot hc hb alone) alone
  refine .behind (queryHead_local h) h₁ (body_slot.bind fun e' => ?_)
  have end' : queryEnd s inner' head mid₂ = .ok (ends, mid₃) :=
    ((queryEnd_local h head).deeper (by simp [h₃])).trans h₃
  rw [bind_of_ok end', made]
  rfl

/-! ## Filters of queries -/

end Parser

namespace Query

/-- The levels of queries down to the selection that a query comes down to. -/
def filterLevels (q : Query) : Nat :=
  match q.body with
  | .query _ => 2
  | _ => 1

/-- The query with another filter of the selection that it comes down to. -/
def withFilter (e : Expr) (q : Query) : Query :=
  match q.body with
  | .select sel => { q with body := .select { sel with filter := some e } }
  | .query inner =>
    match inner.body with
    | .select sel => { q with body := .query { inner with body := .select { sel with filter := some e } } }
    | _ => q
  | _ => q

/-- The filter of the selection that a query comes down to. -/
def filter? (q : Query) : Option Expr := q.select?.bind (·.filter)

/-- A filter is that of the body, or of a query between parentheses. -/
theorem filter?_cases {q : Query} {e : Expr} (h : q.filter? = some e) :
    (∃ sel, q.body = .select sel ∧ sel.filter = some e) ∨
      ∃ inner sel, q.body = .query inner ∧ (q.hasNamed && inner.hasNamed) = false ∧
        inner.body = .select sel ∧ sel.filter = some e := by
  obtain ⟨sel, hs, filter⟩ := Option.bind_eq_some_iff.mp h
  unfold select? at hs
  split at hs
  next sel' body =>
    obtain rfl := Option.some.inj hs
    exact .inl ⟨sel', body, filter⟩
  next inner body =>
    split at hs
    · cases hs
    next named =>
      split at hs
      next sel' body' =>
        obtain rfl := Option.some.inj hs
        exact .inr ⟨inner, sel', body, by simpa using named, body', filter⟩
      · cases hs
  · cases hs

end Query

namespace Parser

/-- A query whose body is the selection. -/
theorem query_select_slot {q : Query} {sel : Select} (body : q.body = .select sel)
    (hf : sel.filter = some e) {d d' : Nat} (hd : d ≤ d')
    (hp : (innerIn s (d + 1)).query ts = .ok (q, rest)) :
    Slot (innerIn s d) (innerIn s d') e ts rest (innerIn s (d' + 1)).query
      fun e' => { q with body := .select { sel with filter := some e' } } := by
  rw [innerIn_query_succ] at hp ⊢
  refine queryText_slot (innerIn_local s hd) hp (fun hb => ?_) (by simp [body])
  rw [body] at hb
  exact plainBody_select_slot (innerIn_local s hd) hb hf

/-- A query whose body is another one, between parentheses. -/
theorem query_nested_slot {q q₁ : Query} {sel : Select} (body : q.body = .query q₁)
    (body₁ : q₁.body = .select sel) (hf : sel.filter = some e) {d d' : Nat} (hd : d ≤ d')
    (hp : (innerIn s (d + 1 + 1)).query ts = .ok (q, rest)) :
    Slot (innerIn s d) (innerIn s d') e ts rest (innerIn s (d' + 1 + 1)).query fun e' =>
      { q with body := .query { q₁ with body := .select { sel with filter := some e' } } } := by
  rw [innerIn_query_succ] at hp ⊢
  have bodies {ts rest : List Token} (hb : plainBody s (innerIn s (d + 1)) ts = .ok (q.body, rest)) :
      Slot (innerIn s d) (innerIn s d') e ts rest (plainBody s (innerIn s (d' + 1)))
        fun e' => .query { q₁ with body := .select { sel with filter := some e' } } := by
    rw [body] at hb
    exact plainBody_query_slot (fun hq => query_select_slot body₁ hf hd hq) hb
  exact queryText_slot (innerIn_local s (by omega)) hp bodies (by simp [body])

theorem query_slot {q : Query} (hf : q.filter? = some e) {d d' : Nat} (hd : d ≤ d')
    (hp : (innerIn s (d + q.filterLevels)).query ts = .ok (q, rest)) :
    Slot (innerIn s d) (innerIn s d') e ts rest (innerIn s (d' + q.filterLevels)).query
      fun e' => q.withFilter e' := by
  unfold Query.withFilter Query.filterLevels at *
  obtain ⟨sel, body, filter⟩ | ⟨inner, sel, body, -, body', filter⟩ := Query.filter?_cases hf
  · simp only [body] at hp ⊢
    exact query_select_slot body filter hd hp
  · simp only [body, body'] at hp ⊢
    exact query_nested_slot body body' filter hd hp

end Parser

end DetectionPlan.Sql
