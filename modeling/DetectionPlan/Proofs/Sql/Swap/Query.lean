/-
Selections, combinations of rows and whole queries that turn into others.
-/
import DetectionPlan.Proofs.Sql.Swap.Operator
import DetectionPlan.Proofs.Sql.Swap.Table

namespace DetectionPlan.Sql

/-- Whether an expression stays one where a result and its name are read. -/
def Expr.isResult : Expr → Bool
  | .star _ => false
  | .name [i] => !(i.quote == none && toLowerCase i.text == "from")
  | _ => true

namespace Parser

open Lexer (KeywordSpelled)

variable {α β γ : Type} {s : ParserSettings} {P : Token → Prop} {R : Call → Option Expr → Prop} {inner inner' : Inner}

/-! ## Selections -/

theorem isResult_of_turns {e e' : Expr} (h : e.Turns R e') (results : ∀ c e, R c (some e) → e.isResult)
    (is : e.isResult) : e'.isResult := by
  cases h with
  | name => exact is
  | star => cases is
  | swapped h => exact results _ _ h
  | _ => rfl

/-- A result with the name that may stand behind it. -/
def labelled (e : Expr) : Parser SelectItem := do return ⟨e, ← label Keyword.endsResult⟩

/-- What is made of a star or an expression that stands as a result. -/
def resultOf (e : Expr) : Parser SelectItem :=
  match e with
  | .star t => return ⟨.star t, none⟩
  | e => if e.isResult then labelled e else fail

theorem selectItem_eq : selectItem inner = starOrExpr inner >>= resultOf := by
  refine bind_congr fun e => ?_
  cases e with
  | name parts =>
    match parts with
    | [i] =>
      simp only [resultOf, Expr.isResult, Bool.not_eq_true']
      split
      next from_ => rw [if_neg (by simpa using from_)]
      next other => rw [if_pos (by simpa using other), labelled]
    | [] | _ :: _ :: _ => rfl
  | _ => rfl

theorem resultOf_follows (results : ∀ c e, R c (some e) → e.isResult) (e : Expr) :
    Tracks P (e.Turns R) (SelectItem.Turns R) (Stops P) (Stops P) (resultOf e) resultOf := by
  by_cases star : ∃ t, e = .star t
  · obtain ⟨t, rfl⟩ := star
    have stays : Tracks P (Expr.Turns R (.star t)) (SelectItem.Turns R) (Stops P) (Stops P)
        (Pure.pure ⟨.star t, none⟩) fun e => Pure.pure ⟨e, none⟩ := by
      refine .pure ?_
      rintro _ ⟨turns⟩
      exact ⟨_, turns, rfl⟩
    refine stays.among ?_
    rintro _ ⟨⟩
    exact ⟨.star t, .star, rfl⟩
  · have other {e : Expr} (star : ∀ t, e ≠ .star t) : resultOf e = if e.isResult then labelled e else fail := by
      cases e with
      | star t => exact absurd rfl (star t)
      | _ => rfl
    rw [other (not_exists.mp star)]
    split
    next is =>
      have whole : Tracks P (e.Turns R) (SelectItem.Turns R) (Stops P) (Stops P) (labelled e) labelled := by
        refine label_bind Stops.labels (Stops.skips rfl) (fun name => ?_) ?_
        · refine (Tracks.pure ?_).mono_out fun _ _ h => h.toAlike
          rintro _ ⟨turns⟩
          exact ⟨_, turns, rfl⟩
        · refine .pure ?_
          rintro _ ⟨turns⟩
          exact ⟨_, turns, rfl⟩
      refine whole.among fun e' turns => ⟨e', turns, ?_⟩
      have is' := isResult_of_turns turns results is
      rw [other (by rintro t rfl; cases is'), if_pos is']
    · exact .fail

theorem distinctRows_bind {A : γ → Prop} {T : α → α → Prop} {out into : List Token → List Token → Prop}
    {f : Bool → Parser α} {f' : γ → Bool → Parser α} (all : Skips P .ALL into) (distinct : Skips P .DISTINCT into)
    (h : ∀ q, Tracks P A T out into (f q) fun c => f' c q) :
    Tracks P A T out into (distinctRows >>= f) fun c => distinctRows >>= f' c := by
  simp only [distinctRows, bind_assoc]
  refine quantifier_bind all distinct fun q => ?_
  match q with
  | some .distinct => exact h true
  | some .all | none => exact h false

variable (h : inner.Follows s P R inner') (results : ∀ c e, R c (some e) → e.isResult)

include h

include results in
theorem selectItem_follows :
    Follows P (SelectItem.Turns R) (Stops P) (Opening s P) (selectItem inner) (selectItem inner') := by
  rw [selectItem_eq, selectItem_eq]
  refine Tracks.bind ((starOrExpr_follows h).mono fun _ _ h => h.toOpening) fun e => ?_
  exact (resultOf_follows results e).among fun e' turns => ⟨((), e'), ⟨trivial, turns⟩, rfl⟩

theorem grouping_follows :
    Follows P (Grouping.Turns R) (Stops P) (Stops P) (grouping s inner) (grouping s inner') := by
  refine Tracks.skipWords_bind (Stops.skipsPair rfl rfl) ?_ ?_
  · refine Tracks.mono ?_ fun ts ts' (h : Opening s P ts ts') => h.known
    refine Tracks.skipWord_bind (Opening.skips rfl) ?_ ?_
    · refine (Tracks.pure ?_).mono fun _ _ h => h.known
      rintro _ ⟨⟩
      exact ⟨(), trivial, rfl⟩
    · refine Tracks.bind (exprs_follow h) fun es => .pure ?_
      rintro _ (_ | ⟨turns⟩)
      exact ⟨((), _), ⟨trivial, turns⟩, rfl⟩
  · refine .pure ?_
    rintro _ (_ | ⟨⟨⟩⟩)
    exact ⟨(), trivial, rfl⟩

theorem selectEnd_follows : Follows P (fun t t' => t.1.Turns R t'.1 ∧ Option.Rel (Expr.Turns R) t.2 t'.2)
    (Stops P) (Stops P) (selectEnd s inner) (selectEnd s inner') := by
  refine Tracks.bind (grouping_follows h) fun g => ?_
  refine Tracks.bind (after_follows (Stops.skips rfl) ((h.expr 0).mono fun _ _ h => h.known)) fun e => .pure ?_
  rintro ⟨g', e'⟩ ⟨hg, he⟩
  exact ⟨(((), _), _), ⟨⟨trivial, hg⟩, he⟩, rfl⟩

/-- What a selection says before its filter turns part by part. -/
structure HeadTurns (R : Call → Option Expr → Prop) (t t' : Bool × List SelectItem × List TableJoins) : Prop where
  isDistinct : t'.1 = t.1
  items : List.Forall₂ (SelectItem.Turns R) t.2.1 t'.2.1
  tables : List.Forall₂ (TableJoins.Turns R) t.2.2 t'.2.2

variable (tables : Follows P (List.Forall₂ (TableJoins.Turns R)) (Stops P) (Alike P) (tableList s inner)
  (tableList s inner'))

include results tables

theorem selectHead_follows :
    Follows P (HeadTurns R) (Stops P) (Alike P) (selectHead s inner) (selectHead s inner') := by
  refine Tracks.bind_eq (expectWord_stays (Alike.skips rfl)) fun _ => ?_
  refine Tracks.mono ?_ fun ts ts' (h : Opening s P ts ts') => h.known
  refine distinctRows_bind (Opening.skips rfl) (Opening.skips rfl) fun distinct => ?_
  refine Tracks.bind (commaSeparated_follows Stops.behind Opening.known (fun h on => h.goes on)
    (selectItem_local h.locally) (selectItem_follows h results)) fun items => ?_
  refine Tracks.bind (after_follows (Stops.skips rfl) (tables.mono fun _ _ h => h.known)) fun ts => .pure ?_
  rintro ⟨_, items', ts'⟩ ⟨rfl, hi, ht⟩
  cases ts with
  | none =>
    obtain ⟨⟩ := ht
    exact ⟨(((), items'), none), ⟨⟨trivial, hi⟩, .none⟩, rfl⟩
  | some ts => exact ⟨(((), items'), some ts'), ⟨⟨trivial, hi⟩, .some ht⟩, rfl⟩

theorem select_follows :
    Follows P (Select.Turns R) (Stops P) (Alike P) (select s inner) (select s inner') := by
  rw [select_eq, select_eq]
  refine Tracks.bind (selectHead_follows h results tables) fun head => ?_
  refine Tracks.bind (after_follows (Stops.skips rfl) ((h.expr 0).mono fun _ _ h => h.known)) fun filter => ?_
  refine Tracks.bind (selectEnd_follows h) fun tail => .pure ?_
  rintro ⟨_, items', ts', filter', g', having'⟩ ⟨hi, ht, hf, hg, hh⟩
  exact ⟨((((), (_, items', ts')), filter'), (g', having')), ⟨⟨⟨trivial, ⟨rfl, hi, ht⟩⟩, hf⟩, hg, hh⟩, rfl⟩

/-! ## Bodies -/

omit tables results in
theorem row_follows :
    Follows P (List.Forall₂ (Expr.Turns R)) (Known P) (Alike P) (row s inner) (row s inner') := by
  refine Tracks.bind_eq (expectMark_stays Alike.skipsMark) fun _ => ?_
  refine Tracks.mono ?_ fun ts ts' (h : Opening s P ts ts') => h.known
  refine closes_bind ?_ ?_
  · refine Tracks.bind_eq (expectMark_stays Alike.skipsMark) fun _ => .pure ?_
    rintro _ ⟨⟩
    exact ⟨(), trivial, rfl⟩
  · refine Tracks.bind (exprs_follow h) fun es => ?_
    refine Tracks.bind_eq (expectMark_stays (Stops.skipsMark rfl)) fun _ => .pure fun es' turns => ?_
    exact ⟨((), es'), ⟨trivial, turns⟩, rfl⟩

omit h tables results in
/-- Rows that turn do so with their marks. -/
theorem exists_rows {rows : List (Bool × List Expr)} {values : List (List Expr)}
    (turns : List.Forall₂ (List.Forall₂ (Expr.Turns R)) (rows.map (·.2)) values) : ∃ rows' : List (Bool × List Expr),
    List.Forall₂ (fun r r' => r'.1 = r.1 ∧ List.Forall₂ (Expr.Turns R) r.2 r'.2) rows rows' ∧
      rows'.any (·.1) = rows.any (·.1) ∧ rows'.map (·.2) = values := by
  induction rows generalizing values with
  | nil =>
    cases turns
    exact ⟨[], .nil, rfl, rfl⟩
  | cons r rows ih =>
    match values, turns with
    | row :: values, .cons turn turns =>
      obtain ⟨rows', both, marks, rfl⟩ := ih turns
      exact ⟨(r.1, row) :: rows', .cons ⟨rfl, turn⟩ both, by rw [List.any_cons, List.any_cons, marks], rfl⟩

omit tables results in
theorem valueRows_follows : Follows P (Body.Turns R) (Stops P) (Alike P) (valueRows s inner) (valueRows s inner') := by
  have marked : Follows P (fun r r' => r'.1 = r.1 ∧ List.Forall₂ (Expr.Turns R) r.2 r'.2) (Stops P) (Alike P)
      (do let marked ← skipWord .ROW; return (marked, ← row s inner))
      (do let marked ← skipWord .ROW; return (marked, ← row s inner')) := by
    have one (marked : Bool) : Follows P (fun r r' => r'.1 = r.1 ∧ List.Forall₂ (Expr.Turns R) r.2 r'.2) (Stops P)
        (Alike P) (do return (marked, ← row s inner)) (do return (marked, ← row s inner')) := by
      refine Tracks.bind ((row_follows h).mono_out fun _ _ h => h.known) fun es => .pure ?_
      rintro ⟨_, es'⟩ ⟨rfl, turns⟩
      exact ⟨((), es'), ⟨trivial, turns⟩, rfl⟩
    exact Tracks.skipWord_bind (Alike.skips rfl) ((one true).mono fun _ _ h => h.known) (one false)
  have local' : Parser.Local 0 0 true (do let marked ← skipWord .ROW; return (marked, ← row s inner'))
      (do let marked ← skipWord .ROW; return (marked, ← row s inner')) :=
    Local.skipWord_local.bind_strict fun _ => Local.bind (row_local h.locally) fun _ => .pure _
  refine Tracks.bind (commaSeparated_follows Stops.behind Alike.known (fun h _ ends => h.first ▸ ends) local' marked)
    fun rows => .pure ?_
  rintro _ (_ | _ | _ | ⟨turns⟩)
  obtain ⟨rows', both, marks, rfl⟩ := exists_rows turns
  exact ⟨((), rows'), ⟨trivial, both⟩, by rw [marks]⟩

theorem plainBody_follows : Follows P (Body.Turns R) (Stops P) (Alike P) (plainBody s inner) (plainBody s inner') := by
  have selects : Follows P (Body.Turns R) (Stops P) (Alike P) (do return .select (← select s inner))
      (do return .select (← select s inner')) := by
    refine Tracks.bind (select_follows h results tables) fun sel => .pure ?_
    rintro _ ⟨turns⟩
    exact ⟨((), _), ⟨trivial, turns⟩, rfl⟩
  have rows : Follows P (Body.Turns R) (Stops P) (Alike P) (do discard take; valueRows s inner)
      (do discard take; valueRows s inner') := by
    simp only [discard_bind]
    exact Tracks.take_bind fun t ht => (valueRows_follows h).mono fun _ _ h => h.cons ht
  have lone : Follows P (Body.Turns R) (Stops P) (Alike P) (bodyQuery inner) (bodyQuery inner') := by
    refine Tracks.bind (parenthesised_tracks Alike.skipsMark (h.query.mono fun _ _ h => h.known)) fun q => ?_
    refine (Tracks.pure ?_).mono_out fun _ _ h => h.known
    rintro _ (_ | ⟨turns⟩)
    exact ⟨((), _), ⟨trivial, turns⟩, rfl⟩
  refine Tracks.of_first Alike.first fun first => ?_
  have by_word (inner : Inner) {ts : List Token} (hts : ts.head? = first) := hts ▸ plainBody_apply s inner ts
  split at by_word
  · exact .keeps _ _ selects fun ts hts => ⟨by_word inner hts, fun _ => by_word inner' hts⟩
  · exact .keeps _ _ rows fun ts hts => ⟨by_word inner hts, fun _ => by_word inner' hts⟩
  · exact .keeps _ _ lone fun ts hts => ⟨by_word inner hts, fun _ => by_word inner' hts⟩

/-! ## Combinations -/

omit h tables results in
theorem setOp_bind {ops : List (Keyword × SetOp)} {A : γ → Prop} {T : α → α → Prop}
    {out : List Token → List Token → Prop} {f : Option (SetOp × Option Quantifier) → Parser α}
    {f' : γ → Option (SetOp × Option Quantifier) → Parser α} (single : ∀ o ∈ ops, o.1.isPaired = false)
    (yes : ∀ op, Tracks P A T out (Alike P) (f (some op)) fun c => f' c (some op))
    (no : Tracks P A T out (Stops P) (f none) fun c => f' c none) :
    Tracks P A T out (Stops P) (setOp ops >>= f) fun c => setOp ops >>= f' c := by
  simp only [setOp, bind_assoc]
  refine oneOf_bind (fun h => h.first) (fun o ho => Stops.skips (single o ho)) (fun op => ?_) no
  simp only [bind_assoc, pure_bind]
  refine Tracks.mono ?_ fun ts ts' (h : Alike P ts ts') => h.known
  exact oneOf_bind Alike.first (fun o ho => Alike.skips (by simp at ho; rcases ho with rfl | rfl <;> rfl))
    (fun q => (yes (op, some q)).mono fun _ _ h => h.known) (yes (op, none))

/-- A body with another, if one comes after it. -/
def combineOne (ops : List (Keyword × SetOp)) (operand : Parser Body) (left : Body) : Parser (Bool × Body) := do
  match ← setOp ops with
  | some (op, quantifier) => return (true, .combined left op quantifier (← operand))
  | none => return (false, left)

section Combinations

variable {ops : List (Keyword × SetOp)} {operand operand' : Parser Body}

omit h results tables

theorem combineIn_succ (n : Nat) (left : Body) :
    combineIn ops operand (n + 1) left = (do
      let r ← combineOne ops operand left
      if r.1 then combineIn ops operand n r.2 else return r.2) := by
  rw [combineOne, bind_assoc]
  refine bind_congr fun found => ?_
  cases found with
  | none => rfl
  | some o =>
    rw [bind_assoc]
    rfl

theorem combineOne_lt (local_ : Parser.Local 0 0 true operand operand) {left b : Body} {ts rest : List Token}
    (h : combineOne ops operand left ts = .ok ((true, b), rest)) : rest.length < ts.length := by
  obtain ⟨found, mid, hf, h⟩ := bind_eq_ok_iff.mp h
  have := (setOp_local ops).takes_length hf
  cases found with
  | none => cases h
  | some o =>
    obtain ⟨right, left, hr, h⟩ := bind_eq_ok_iff.mp h
    obtain ⟨-, rfl⟩ := Prod.mk.inj (Except.ok.inj h)
    have := local_.takes_lt hr
    omega

theorem combineIn_rounds (local_ : Parser.Local 0 0 true operand operand) :
    Rounds (combineOne ops operand) (combineIn ops operand) where
  zero _ := rfl
  succ := combineIn_succ
  takes := combineOne_lt local_
  enough := combineIn_enough ops local_

theorem combineOne_follows (single : ∀ o ∈ ops, o.1.isPaired = false)
    (ho : Follows P (Body.Turns R) (Stops P) (Alike P) operand operand') (left : Body) :
    Tracks P (left.Turns R) (fun r r' => r'.1 = r.1 ∧ r.2.Turns R r'.2) (Stops P) (Stops P)
      (combineOne ops operand left) (combineOne ops operand') := by
  refine setOp_bind single (fun o => ?_) ?_
  · refine Tracks.bind ho fun right => .pure ?_
    rintro ⟨_, _⟩ ⟨rfl, turns⟩
    cases turns with
    | combined hl hr => exact ⟨(_, _), ⟨hl, hr⟩, rfl⟩
  · refine .pure ?_
    rintro ⟨_, left'⟩ ⟨rfl, turns⟩
    exact ⟨left', turns, rfl⟩

theorem combine_follows (single : ∀ o ∈ ops, o.1.isPaired = false)
    (ho : Follows P (Body.Turns R) (Stops P) (Alike P) operand operand') (here : Parser.Local 0 0 true operand operand)
    (there : Parser.Local 0 0 true operand' operand') :
    Follows P (Body.Turns R) (Stops P) (Alike P) (combine ops operand) (combine ops operand') := by
  refine Tracks.bind ho fun first => ?_
  refine ((combineIn_rounds here).tracks (combineIn_rounds there) (combineOne_follows single ho) first).among
    fun first' turns => ?_
  exact ⟨((), first'), ⟨trivial, turns⟩, rfl⟩

end Combinations

theorem body_follows (here : inner.Local inner) :
    Follows P (Body.Turns R) (Stops P) (Alike P) (body s inner) (body s inner') := by
  have plain := plainBody_follows h results tables
  have intersections : Follows P (Body.Turns R) (Stops P) (Alike P)
      (combine [(.INTERSECT, .intersect)] (plainBody s inner))
      (combine [(.INTERSECT, .intersect)] (plainBody s inner')) :=
    combine_follows (by simp [Keyword.isPaired]) plain (plainBody_local here) (plainBody_local h.locally)
  exact combine_follows (by simp [Keyword.isPaired]) intersections (combine_local _ (plainBody_local here))
    (combine_local _ (plainBody_local h.locally))

/-! ## Whole queries -/

omit results tables

theorem namedQuery_follows :
    Follows P (NamedQuery.Turns R) (Known P) (Alike P) (namedQuery s inner) (namedQuery s inner') := by
  refine Tracks.bind_eq ident_stays fun name => Tracks.bind_eq (columnNames_stays _) fun columns => ?_
  refine Tracks.bind_eq (expectWord_stays (Alike.skips rfl)) fun _ => ?_
  refine Tracks.bind (parenthesised_tracks Alike.skipsMark (h.query.mono fun _ _ h => h.known)
    |>.mono fun _ _ h => h.known) fun q => .pure ?_
  rintro _ ⟨turns⟩
  exact ⟨((), _), ⟨trivial, turns⟩, rfl⟩

theorem queryHead_follows :
    Follows P (fun t t' => t'.1 = t.1 ∧ List.Forall₂ (NamedQuery.Turns R) t.2 t'.2) (Alike P) (Alike P)
      (queryHead s inner) (queryHead s inner') := by
  have named (isRecursive : Bool) : Follows P (fun t t' => t'.1 = t.1 ∧ List.Forall₂ (NamedQuery.Turns R) t.2 t'.2)
      (Alike P) (Alike P) (do return (isRecursive, ← commaSeparated s.trailingCommas (namedQuery s inner)))
      (do return (isRecursive, ← commaSeparated s.trailingCommas (namedQuery s inner'))) := by
    refine Tracks.bind (commaSeparated_follows Alike.behind Alike.known (fun h _ ends => h.first ▸ ends)
      (namedQuery_local h.locally) ((namedQuery_follows h).mono_out fun _ _ h => h.known)) fun ns => .pure ?_
    rintro ⟨_, ns'⟩ ⟨rfl, turns⟩
    exact ⟨((), ns'), ⟨trivial, turns⟩, rfl⟩
  refine Tracks.skipWord_bind (Alike.skips rfl) (Tracks.mono ?_ fun ts ts' (h : Alike P ts ts') => h.known) ?_
  · exact Tracks.skipWord_bind (Alike.skips rfl) ((named true).mono fun _ _ h => h.known) (named false)
  · refine .pure ?_
    rintro ⟨_, _⟩ ⟨rfl, ⟨⟩⟩
    exact ⟨(), trivial, rfl⟩

omit h in
theorem nullPlace_stays : Stays P (Stops P) (Stops P) nullPlace := by
  have place (p : NullPlace) : Stays P (Stops P) (Known P) (Pure.pure (some p)) :=
    (Stays.pure _).mono fun _ _ h => h.known
  exact Tracks.skipWords_bind (Stops.skipsPair rfl rfl) (place .first)
    (Tracks.skipWords_bind (Stops.skipsPair rfl rfl) (place .last) (Stays.pure _))

theorem orderItem_follows :
    Follows P (OrderItem.Turns R) (Stops P) (Opening s P) (orderItem inner) (orderItem inner') := by
  refine Tracks.bind ((h.expr 0).mono fun _ _ h => h.toOpening) fun e => ?_
  refine Tracks.bind_eq (oneOf_stays (by simp [Keyword.isPaired])) fun descending => ?_
  refine Tracks.bind_eq nullPlace_stays fun nulls => .pure ?_
  rintro _ ⟨turns⟩
  exact ⟨((), _), ⟨trivial, turns⟩, rfl⟩

theorem orders_follow :
    Follows P (List.Forall₂ (OrderItem.Turns R)) (Stops P) (Stops P) (orders s inner) (orders s inner') := by
  refine Tracks.skipWords_bind (Stops.skipsPair rfl rfl) ?_ ?_
  · refine (commaSeparated_follows Stops.behind Opening.known (fun h on => h.goes (mayTrail_of_trailing on))
      (orderItem_local h.locally) (orderItem_follows h)).mono fun _ _ h => h.known
  · refine .pure ?_
    rintro _ ⟨⟩
    exact ⟨(), trivial, rfl⟩

/-- Both bounds of a query. -/
def bounds (s : ParserSettings) (inner : Inner) : Parser Bounds := do bound s inner (← bound s inner {})

theorem bounds_follow : Follows P (Bounds.Turns R) (Stops P) (Stops P) (bounds s inner) (bounds s inner') := by
  refine (Tracks.bind_left (bound_follows h {}) fun b => bound_follows h b).among ?_
  rintro ⟨limit, offset, unit⟩ ⟨⟨⟩, ⟨⟩, rfl⟩
  exact ⟨(), trivial, rfl⟩

omit h in
theorem literal_stays : Stays P (Alike P) (Alike P) literal := by
  refine .take_bind fun t => ?_
  split
  iterate 5 exact .pure _
  exact .fail

omit h in
theorem settings_stays : Stays P (Stops P) (Stops P) (settings s) := by
  have one : Stays P (Alike P) (Alike P) setting :=
    ident_stays.bind fun _ => Stays.bind ((expectMark_stays Alike.skipsMark).mono_out fun _ _ h => h.known) fun _ =>
      literal_stays.bind fun _ => Stays.pure _
  have list : Stays P (Stops P) (Known P) (commaSeparated s.trailingCommas setting) :=
    ((commaSeparated_stays setting_local one).mono fun _ _ h => h.known).mono_out fun _ _ h => h.toAlike
  exact .ite (after_stays (Stops.skips rfl) list) (Stays.pure _)

omit h in
theorem queryText_parts (s : ParserSettings) (inner : Inner) :
    queryText s inner = (do
      let head ← queryHead s inner
      let b ← body s inner
      let order ← orders s inner
      let bounds ← bounds s inner
      let settings ← settings s
      return ⟨head.1, head.2, b, order, bounds.limit, bounds.offset, bounds.offsetUnit, settings.getD []⟩) := by
  rw [queryText_eq]
  simp only [queryEnd, bounds, bind_assoc, pure_bind]

include results tables

theorem queryText_follows (here : inner.Local inner) :
    Follows P (Query.Turns R) (Stops P) (Alike P) (queryText s inner) (queryText s inner') := by
  rw [queryText_parts, queryText_parts]
  refine Tracks.bind (queryHead_follows h) fun head => Tracks.bind (body_follows h results tables here) fun b => ?_
  refine Tracks.bind (orders_follow h) fun os => Tracks.bind (bounds_follow h) fun bs => ?_
  refine Tracks.bind_eq settings_stays fun st => .pure ?_
  rintro ⟨_, ns', b', os', limit', offset', _, _⟩ ⟨hn, hb, ho, hl, hf⟩
  exact ⟨(((((), (_, ns')), b'), os'), ⟨limit', offset', _⟩), ⟨⟨⟨⟨trivial, rfl, hn⟩, hb⟩, ho⟩, hl, hf, rfl⟩, rfl⟩

omit h tables

/-! ## Depth -/

/-- Whatever nests in an expression or a query turns with it. -/
theorem innerIn_follows {m : Nat} (spelled : ∀ t, P t → KeywordSpelled t)
    (fits : ∀ c e, R c (some e) → ∀ d, m ≤ d → Fits s P (innerIn s d) e) (d : Nat) :
    (innerIn s d).Follows s P R (innerIn s (d + m)) := by
  induction d using Nat.strongRecOn with
  | _ d ih =>
    cases d with
    | zero =>
      refine ⟨fun power ts rest e hp => ?_, fun ts rest q hp => ?_, innerIn_local s (Nat.le_refl _)⟩
      · rw [innerIn_expr_zero] at hp
        cases hp
      · rw [innerIn_query_zero] at hp
        cases hp
    | succ d =>
      have all : ∀ e ≤ d, (innerIn s e).Follows s P R (innerIn s (e + m)) := fun e he => ih e (Nat.lt_succ_of_le he)
      have here := innerIn_local s (Nat.le_refl d)
      rw [Nat.add_right_comm]
      refine ⟨fun power => ?_, ?_, innerIn_local s (Nat.le_refl _)⟩
      · rw [innerIn_expr_succ, innerIn_expr_succ]
        exact expression_follows (all d (Nat.le_refl d)) here (fun c e hc => fits c e hc _ (Nat.le_add_left m d)) power
      · rw [innerIn_query_succ, innerIn_query_succ]
        exact queryText_follows (all d (Nat.le_refl d)) results (tableList_follows all spelled) here

end Parser

end DetectionPlan.Sql
