/-
Joins that turn into others, when the tables do that they join.
-/
import DetectionPlan.Proofs.Sql.Swap.Operator

namespace DetectionPlan.Sql.Parser

variable {α γ : Type} {s : ParserSettings} {P : Token → Prop} {R : Call → Option Expr → Prop} {inner inner' : Inner}
  {table table' : Parser Table}

/-! ## Kinds -/

/-- The kind of a join, from behind its first word. -/
def joinBehind? : Keyword → Option (Parser JoinKind)
  | .JOIN => some (Pure.pure .inner)
  | .INNER => some (do expectWord .JOIN; return .inner)
  | .CROSS => some (do expectWord .JOIN; return .cross)
  | .LEFT => some (joinKind.sided .left .leftSemi .leftAnti)
  | .RIGHT => some (joinKind.sided .right .rightSemi .rightAnti)
  | .FULL => some (do discard <| skipWord .OUTER; expectWord .JOIN; return .full)
  | .OUTER => some fail
  | _ => none

theorem joinKind_other {ts : List Token} (h : (wordOf? ts.head?).bind joinBehind? = none) :
    joinKind ts = .ok (none, ts) := by
  rw [joinKind, bind_of_ok peekWord_apply]
  cases word : wordOf? ts.head? with
  | none => rfl
  | some k =>
    rw [word] at h
    cases k <;> first | rfl | cases h

theorem joinKind_word {name : Ident} {k : Keyword} {p : Parser JoinKind} (h : joinBehind? k = some p)
    (ts : List Token) : joinKind (.word name (some k) :: ts) = (some <$> p) ts := by
  rw [joinKind, bind_of_ok peekWord_apply]
  cases k <;> cases h
  case INNER | CROSS | FULL =>
    simp only [map_bind, map_pure]
    rfl
  all_goals rfl

theorem discard_bind {β : Type} (p : Parser α) (f : PUnit → Parser β) :
    (discard p >>= f) = p >>= fun _ => f ⟨⟩ := by
  show ((fun _ => PUnit.unit) <$> p) >>= f = _
  rw [map_eq_pure_bind, bind_assoc]
  rfl

theorem joinBehind?_stays {k : Keyword} {p : Parser JoinKind} (h : joinBehind? k = some p) :
    Stays P (Known P) (Known P) p := by
  have join (kind : JoinKind) : Stays P (Known P) (Headed P) (do expectWord .JOIN; return kind) :=
    Stays.bind (expectWord_stays Headed.skips) fun _ => Stays.pure _
  have known {p : Parser JoinKind} (h : Stays P (Known P) (Headed P) p) : Stays P (Known P) (Known P) p :=
    h.mono fun _ _ h => h.known
  have sided (outer semi anti : JoinKind) : Stays P (Known P) (Headed P) (joinKind.sided outer semi anti) :=
    oneOf_bind (fun h => h.first) (fun _ _ => Headed.skips) (fun _ => known (join _)) (join _)
  cases k <;> cases h
  case JOIN => exact Stays.pure _
  case INNER | CROSS => exact known (join _)
  case LEFT | RIGHT => exact known (sided _ _ _)
  case FULL =>
    refine known ?_
    rw [discard_bind]
    exact Stays.skipWord_bind (f := fun _ => do expectWord .JOIN; return .full) Headed.skips (known (join _)) (join _)
  case OUTER => exact Stays.fail

theorem joinBehind?_single {k : Keyword} {p : Parser JoinKind} (h : joinBehind? k = some p) :
    k.isPaired = false := by
  cases k <;> first | rfl | cases h

/-- A join comes first or it does not. -/
theorem joinKind_bind {A : γ → Prop} {T : α → α → Prop} {out into : List Token → List Token → Prop}
    {f : Option JoinKind → Parser α} {f' : γ → Option JoinKind → Parser α}
    (same : ∀ {ts ts'}, into ts ts' → ts'.head? = ts.head?)
    (word : ∀ {name k ts ts'}, P (.word name (some k)) → k.isPaired = false → Known P ts ts' →
      into (.word name (some k) :: ts) (.word name (some k) :: ts'))
    (yes : ∀ kind, Tracks P A T out (Known P) (f (some kind)) fun c => f' c (some kind))
    (no : Tracks P A T out into (f none) fun c => f' c none) :
    Tracks P A T out into (joinKind >>= f) fun c => joinKind >>= f' c := by
  refine Tracks.of_first same fun first => ?_
  cases found : (wordOf? first).bind joinBehind? with
  | none =>
    have idle {g : Option JoinKind → Parser α} {ts : List Token} (hts : ts.head? = first) :
        (joinKind >>= g) ts = g none ts := bind_of_ok (joinKind_other (hts ▸ found))
    exact .keeps _ _ no fun ts hts => ⟨idle hts, fun c => idle hts⟩
  | some p =>
    obtain ⟨k, hk, behind⟩ := Option.bind_eq_some_iff.mp found
    match first, hk with
    | some (.word name _), rfl =>
      have goes {g : Option JoinKind → Parser α} {ts : List Token} :
          (joinKind >>= g) (.word name (some k) :: ts) = (p >>= fun kind => g (some kind)) ts := by
        have read : (joinKind >>= g) (.word name (some k) :: ts) = ((some <$> p) >>= g) ts := by
          simp only [bind, StateT.bind, joinKind_word behind ts]
        rw [read, map_eq_pure_bind, bind_assoc]
        rfl
      refine .eats _ _ _ rfl (fun ht => ?_) fun ts => ⟨goes, fun c => goes⟩
      refine (Tracks.bind_eq (joinBehind?_stays behind) yes).mono fun _ _ h => ?_
      exact word ht (joinBehind?_single behind) h

/-! ## Joins -/

theorem joinCondition_follows (h : inner.Follows s P R inner') :
    Follows P (JoinCondition.Turns R) (Stops P) (Stops P) (joinCondition s inner) (joinCondition s inner') := by
  refine Tracks.skipWord_bind (Stops.skips rfl) ?_ (Tracks.skipWord_bind (Stops.skips rfl) ?_ (.pure ?_))
  · refine Tracks.bind ((h.expr 0).mono fun _ _ h => h.known) fun e => .pure fun c' turns => ?_
    cases turns with
    | on turns => exact ⟨((), _), ⟨trivial, turns⟩, rfl⟩
  · have columns : Stays P (Stops P) (Known P) (commaSeparated s.trailingCommas ident) :=
      ((commaSeparated_stays ident_local ident_stays).mono fun _ _ h => h.known).mono_out fun _ _ h => h.toAlike
    have listed := parenthesised_tracks (Alike.skipsMark (P := P)) columns
    refine (Tracks.bind_eq listed fun names => ?_).mono fun _ _ h => h.known
    refine (Tracks.pure fun c' turns => ?_).mono_out fun _ _ h => h.known
    cases turns
    exact ⟨(), trivial, rfl⟩
  · rintro _ ⟨⟩
    exact ⟨(), trivial, rfl⟩

theorem join_follows (h : inner.Follows s P R inner')
    (ht : Follows P (Table.Turns R) (Stops P) (Alike P) table table') :
    Follows P (Option.Rel (Join.Turns R)) (Stops P) (Stops P) (join s inner table) (join s inner' table') := by
  have table_ := ht.mono fun _ _ h => h.known
  -- what follows the kind of a join, with or without `NATURAL` before it
  have natural (kind : JoinKind) : Follows P (Option.Rel (Join.Turns R)) (Stops P) (Known P)
      (do return some ⟨kind, ← table, .natural⟩) (do return some ⟨kind, ← table', .natural⟩) := by
    refine Tracks.bind table_ fun t => .pure ?_
    rintro _ ⟨⟨turns, ⟨⟩⟩⟩
    exact ⟨((), _), ⟨trivial, turns⟩, rfl⟩
  have cross : Follows P (Option.Rel (Join.Turns R)) (Stops P) (Known P)
      (do return some ⟨.cross, ← table, .none⟩) (do return some ⟨.cross, ← table', .none⟩) := by
    refine Tracks.bind table_ fun t => .pure ?_
    rintro _ ⟨⟨turns, ⟨⟩⟩⟩
    exact ⟨((), _), ⟨trivial, turns⟩, rfl⟩
  have conditional (kind : JoinKind) : Follows P (Option.Rel (Join.Turns R)) (Stops P) (Known P)
      (do let t ← table; return some ⟨kind, t, ← joinCondition s inner⟩)
      (do let t ← table'; return some ⟨kind, t, ← joinCondition s inner'⟩) := by
    refine Tracks.bind table_ fun t => Tracks.bind (joinCondition_follows h) fun c => .pure ?_
    rintro _ ⟨⟨ht, hc⟩⟩
    exact ⟨(((), _), _), ⟨⟨trivial, ht⟩, hc⟩, rfl⟩
  refine Tracks.skipWord_bind (Stops.skips rfl) ?_ ?_
  · refine Tracks.mono ?_ fun ts ts' (h : Headed P ts ts') => h.known
    refine joinKind_bind (fun h => h.first) (fun ht _ h => ⟨List.forall_mem_cons.mpr ⟨ht, h⟩, rfl⟩)
      (fun kind => ?_) .fail
    cases kind
    case cross => exact .fail
    all_goals exact natural _
  · refine joinKind_bind (fun h => h.first) (fun ht single h => .word ht h single) (fun kind => ?_) (.pure ?_)
    · cases kind
      case cross => exact cross
      all_goals exact conditional _
    · rintro _ ⟨⟩
      exact ⟨(), trivial, rfl⟩

/-- The joins to a table. -/
def joins (s : ParserSettings) (inner : Inner) (table : Parser Table) : Parser (List Join) := do
  joinsIn s inner table (← get).length

/-- The joins read so far, from the last to the first, with another, if one comes after them. -/
def joinOne (s : ParserSettings) (inner : Inner) (table : Parser Table) (js : List Join) :
    Parser (Bool × List Join) := do
  match ← join s inner table with
  | some j => return (true, j :: js)
  | none => return (false, js)

/-- The joins read so far with at most `n` more, from the last to the first. -/
def joinsBack (s : ParserSettings) (inner : Inner) (table : Parser Table) (n : Nat) (js : List Join) :
    Parser (List Join) := do
  return (← joinsIn s inner table n).reverse ++ js

theorem joinsBack_rounds (here : inner.Local inner) (local_ : Parser.Local 0 0 true table table) :
    Rounds (joinOne s inner table) (joinsBack s inner table) where
  zero _ := rfl
  succ n js := by
    rw [joinsBack, joinOne, joinsIn, bind_assoc, bind_assoc]
    refine bind_congr fun found => ?_
    cases found with
    | none => rfl
    | some j => simp [joinsBack]
  takes h := by
    obtain ⟨found, mid, hf, h⟩ := bind_eq_ok_iff.mp h
    cases found with
    | none => cases h
    | some j =>
      obtain ⟨-, rfl⟩ := Prod.mk.inj (Except.ok.inj h)
      exact join_some_lt here local_ hf
  enough hn hm := bind_congr_left (joinsIn_enough here local_ hn hm)

theorem joinOne_follows (h : inner.Follows s P R inner')
    (ht : Follows P (Table.Turns R) (Stops P) (Alike P) table table') (js : List Join) :
    Tracks P (List.Forall₂ (Join.Turns R) js) (fun r r' => r'.1 = r.1 ∧ List.Forall₂ (Join.Turns R) r.2 r'.2)
      (Stops P) (Stops P) (joinOne s inner table js) (joinOne s inner' table') := by
  refine Tracks.bind (join_follows h ht) fun found => ?_
  cases found with
  | none =>
    refine (Tracks.pure ?_).among fun js' turns => ⟨(js', none), ⟨turns, .none⟩, rfl⟩
    rintro ⟨_, js'⟩ ⟨rfl, turns⟩
    exact ⟨js', turns, rfl⟩
  | some j =>
    let A (r : List Join × Join) : Prop := List.Forall₂ (Join.Turns R) js r.1 ∧ j.Turns R r.2
    refine (Tracks.pure (A := A) ?_).among fun r turns => ⟨(r.1, some r.2), ⟨turns.1, .some turns.2⟩, rfl⟩
    rintro ⟨_, _⟩ ⟨rfl, _ | ⟨turns, more⟩⟩
    exact ⟨(_, _), ⟨more, turns⟩, rfl⟩

theorem joins_eq (s : ParserSettings) (inner : Inner) (table : Parser Table) :
    joins s inner table = (do joinsBack s inner table (← get).length []) >>= fun js => return js.reverse := by
  simp [joins, joinsBack]

theorem joins_follow (h : inner.Follows s P R inner') (here : inner.Local inner)
    (ht : Follows P (Table.Turns R) (Stops P) (Alike P) table table') (local_ : Parser.Local 0 0 true table table)
    (local' : Parser.Local 0 0 true table' table') :
    Follows P (List.Forall₂ (Join.Turns R)) (Stops P) (Stops P) (joins s inner table) (joins s inner' table') := by
  have back : Follows P (List.Forall₂ (Join.Turns R)) (Stops P) (Stops P)
      (do joinsBack s inner table (← get).length []) (do joinsBack s inner' table' (← get).length []) := by
    refine ((joinsBack_rounds here local_).tracks (joinsBack_rounds h.locally local') (joinOne_follows h ht)
      []).among ?_
    rintro _ ⟨⟩
    exact ⟨(), trivial, rfl⟩
  rw [joins_eq, joins_eq]
  refine Tracks.bind back fun js => .pure fun js' turns => ?_
  exact ⟨((), js'.reverse), ⟨trivial, List.forall₂_reverse_iff.mp (by simpa using turns)⟩, js'.reverse_reverse⟩

theorem tableJoins_eq (s : ParserSettings) (inner : Inner) (table : Parser Table) :
    tableJoins s inner table = (do let t ← table; return ⟨t, ← joins s inner table⟩) := by
  refine bind_congr fun t => ?_
  rw [joins, bind_assoc]

theorem tableJoins_follows (h : inner.Follows s P R inner') (here : inner.Local inner)
    (ht : Follows P (Table.Turns R) (Stops P) (Alike P) table table') (local_ : Parser.Local 0 0 true table table)
    (local' : Parser.Local 0 0 true table' table') :
    Follows P (TableJoins.Turns R) (Stops P) (Alike P) (tableJoins s inner table) (tableJoins s inner' table') := by
  rw [tableJoins_eq, tableJoins_eq]
  refine Tracks.bind ht fun t => Tracks.bind (joins_follow h here ht local_ local') fun js => .pure ?_
  rintro _ ⟨ht, hj⟩
  exact ⟨(((), _), _), ⟨⟨trivial, ht⟩, hj⟩, rfl⟩

end DetectionPlan.Sql.Parser
