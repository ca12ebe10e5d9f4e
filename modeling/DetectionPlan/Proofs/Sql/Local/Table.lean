/-
Tables and joins are read locally. Between parentheses a query is tried before
joined tables; it fails for what stands between them, whatever follows.
-/
import DetectionPlan.Proofs.Sql.Local.Expression

namespace DetectionPlan.Sql.Parser

open Local

variable {b : Bool} {s : ParserSettings} {inner inner' : Inner}

/-! ## Joins -/

theorem sided_local (outer semi anti : JoinKind) :
    Parser.Local 0 0 b (joinKind.sided outer semi anti) (joinKind.sided outer semi anti) :=
  (Local.oneOf _).bind_strict fun _ => bind .expectWord fun _ => .pure _

theorem joinKind_local : Parser.Local 0 0 false joinKind joinKind := by
  refine peekWord_begins fun first => ?_
  match first with
  | some (.word name (some k)) =>
    simp only [wordOf?]
    have joined {b : Bool} (kind : JoinKind) : Parser.Local 0 0 b (do expectWord .JOIN; return some kind)
        (do expectWord .JOIN; return some kind) := bind .expectWord fun _ => .pure _
    have inner (kind : JoinKind) : Parser.Local 0 0 false
        (do discard <| skipWord .INNER; expectWord .JOIN; return some kind)
        (do discard <| skipWord .INNER; expectWord .JOIN; return some kind) :=
      (skipWord_local.map fun _ => ()).bind fun _ => joined kind
    split
    · exact .of_local (inner _)
    · exact .of_local (inner _)
    · exact .discard_take (joined _)
    · exact .discard_take ((sided_local _ _ _).map _)
    · exact .discard_take ((sided_local _ _ _).map _)
    · exact .discard_take ((skipWord_local.map fun _ => ()).bind fun _ => joined _)
    · exact .of_local .fail
    · exact .of_local (.pure _)
  | none | some (.word _ none) | some (.number ..) | some (.string ..) | some (.mark _)
  | some (.other _) => exact .of_local (.pure _)

theorem joinCondition_local (h : inner.Local inner') :
    Parser.Local 0 0 false (joinCondition s inner) (joinCondition s inner') := by
  refine skipWord_ite (bind (h.expr 0).weaken fun _ => .pure _) (skipWord_ite ?_ (.pure _))
  exact bind (.parenthesised (commaSeparated_local ident_local)) fun _ => .pure _

theorem join_local (h : inner.Local inner') {table table' : Parser Table}
    (ht : Parser.Local 0 0 true table table') :
    Parser.Local 0 0 false (join s inner table) (join s inner' table') := by
  refine skipWord_local.bind fun natural => joinKind_local.bind fun kind => ?_
  split
  · exact .ite .fail (.pure _)
  · exact .ite .fail (bind ht.weaken fun _ => .pure _)
  · refine bind ht.weaken fun table => .ite ?_ ?_
    · exact bind (.pure _) fun _ => .pure _
    · exact bind (joinCondition_local h) fun _ => .pure _

/-- A join takes its table at least. -/
theorem join_some_lt (h : inner.Local inner') {table table' : Parser Table}
    (ht : Parser.Local 0 0 true table table') {ts rest : List Token} {j : Join}
    (hj : join s inner table ts = .ok (some j, rest)) : rest.length < ts.length := by
  obtain ⟨natural, mid₁, h₁, hj⟩ := bind_eq_ok_iff.mp hj
  obtain ⟨kind, mid₂, h₂, hj⟩ := bind_eq_ok_iff.mp hj
  have l₁ := (skipWord_local (i := 0)).takes_length h₁
  have l₂ := joinKind_local.takes_length h₂
  have end_le {condition : JoinCondition} {kind : JoinKind} {t : Table} {mid : List Token}
      (e : (Pure.pure (some (Join.mk kind t condition)) : Parser (Option Join)) mid =
        .ok (some j, rest)) : mid = rest := (Prod.mk.inj (Except.ok.inj e)).2
  split at hj
  · split at hj <;> cases hj
  · split at hj
    · cases hj
    · obtain ⟨t, mid₃, h₃, hj⟩ := bind_eq_ok_iff.mp hj
      have l₃ := ht.takes_lt h₃
      obtain rfl := end_le hj
      omega
  · obtain ⟨t, mid₃, h₃, hj⟩ := bind_eq_ok_iff.mp hj
    have l₃ := ht.takes_lt h₃
    split at hj
    · obtain rfl := end_le hj
      omega
    · obtain ⟨condition, mid₄, h₄, hj⟩ := bind_eq_ok_iff.mp hj
      have l₄ := (joinCondition_local h).takes_length h₄
      obtain rfl := end_le hj
      omega

theorem joinsIn_local (h : inner.Local inner') {table table' : Parser Table}
    (ht : Parser.Local 0 0 true table table') (n : Nat) :
    Parser.Local 0 0 false (joinsIn s inner table n) (joinsIn s inner' table' n) := by
  induction n with
  | zero => exact .pure _
  | succ n ih =>
    refine (join_local h ht).bind fun found => ?_
    cases found with
    | none => exact .pure _
    | some j => exact ih.bind fun _ => .pure _

theorem joinsIn_nil (n : Nat) (table : Parser Table) :
    joinsIn s inner table n [] = .ok ([], []) := by
  cases n <;> rfl

theorem joinsIn_enough (h : inner.Local inner') {table table' : Parser Table}
    (ht : Parser.Local 0 0 true table table') {n m : Nat} {ts : List Token} (hn : ts.length ≤ n)
    (hm : ts.length ≤ m) : joinsIn s inner table n ts = joinsIn s inner table m ts := by
  induction n generalizing m ts with
  | zero =>
    obtain rfl := List.eq_nil_of_length_eq_zero (Nat.le_zero.mp hn)
    rw [joinsIn_nil, joinsIn_nil]
  | succ n ih =>
    cases m with
    | zero =>
      obtain rfl := List.eq_nil_of_length_eq_zero (Nat.le_zero.mp hm)
      rw [joinsIn_nil, joinsIn_nil]
    | succ m =>
      refine bind_congr_of_ok fun found mid hf => ?_
      cases found with
      | none => rfl
      | some j =>
        have := join_some_lt h ht hf
        exact bind_congr_left (ih (by omega) (by omega))

theorem tableJoins_local (h : inner.Local inner') {table table' : Parser Table}
    (ht : Parser.Local 0 0 true table table') :
    Parser.Local 0 0 b (tableJoins s inner table) (tableJoins s inner' table') := by
  refine bind ht.weaken fun t => ?_
  exact length_bind (fun n => joinsIn_local h ht n)
    (fun _ enough => joinsIn_enough h ht enough (Nat.le_refl _)) fun _ => .pure _

/-! ## Tables -/

theorem derivedTable_local (h : inner.Local inner') :
    Parser.Local 0 0 b (derivedTable s inner) (derivedTable s inner') :=
  bind (.parenthesised h.query.weaken) fun _ => (tableLabel_local _).bind fun _ => .pure _

theorem loneTable_local (t : Table) :
    Parser.Local 0 0 false (loneTable s t) (loneTable s t) := by
  refine (tableLabel_local _).bind fun outside => ?_
  split
  · exact .pure _
  · exact .pure _
  · exact .pure _
  · exact .fail

theorem joinedTable_local (h : inner.Local inner') {table table' : Parser Table}
    (ht : Parser.Local 0 0 true table table') :
    Parser.Local 0 0 b (joinedTable s inner table) (joinedTable s inner' table') := by
  refine bind (.parenthesised (tableJoins_local h ht)) fun t => ?_
  split
  · exact (tableLabel_local _).bind fun _ => .pure _
  · exact .ite (loneTable_local _) .fail
  · exact (tableLabel_local _).bind fun _ => .pure _

/-- Joined tables stand between parentheses that match, with a name that is read
as it would be behind a query. -/
theorem joinedTable_ok (h : inner.Local inner') {table table' : Parser Table}
    (ht : Parser.Local 0 0 true table table') {ts rest : List Token} {t : Table}
    (hj : joinedTable s inner table ts = .ok (t, rest)) :
    ∃ inside behind label, ts = .mark .leftParen :: inside ++ .mark .rightParen :: (behind ++ rest) ∧
      depthAfter 0 inside = some 0 ∧ tableLabel s.trailingCommas (behind ++ rest) = .ok label := by
  have read : Parser.Local 0 0 false (tableJoins s inner table) (tableJoins s inner' table') :=
    tableJoins_local h ht
  obtain ⟨joins, mid, hp, hj⟩ := bind_eq_ok_iff.mp hj
  obtain ⟨inside, e, depth, -⟩ := (parenthesised_ok_iff read).mp hp
  have named : ∃ label, tableLabel s.trailingCommas mid = .ok label ∧ ∃ behind, mid = behind ++ rest := by
    split at hj
    · obtain ⟨label, mid', hl, hj⟩ := bind_eq_ok_iff.mp hj
      obtain ⟨-, rfl⟩ := Prod.mk.inj (Except.ok.inj hj)
      obtain ⟨behind, e, -⟩ := (tableLabel_local _).takes hl
      exact ⟨_, hl, behind, e⟩
    · split at hj
      · obtain ⟨behind, e, -⟩ := (loneTable_local _).takes hj
        obtain ⟨label, mid', hl, -⟩ := bind_eq_ok_iff.mp hj
        exact ⟨_, hl, behind, e⟩
      · cases hj
    · obtain ⟨label, mid', hl, hj⟩ := bind_eq_ok_iff.mp hj
      obtain ⟨-, rfl⟩ := Prod.mk.inj (Except.ok.inj hj)
      obtain ⟨behind, e, -⟩ := (tableLabel_local _).takes hl
      exact ⟨_, hl, behind, e⟩
  obtain ⟨label, hl, behind, rfl⟩ := named
  exact ⟨inside, behind, label, e, depth, hl⟩

/-- A query as a table fails behind matching parentheses for its name alone. -/
theorem derivedTable_fault (h : inner.Local inner') {inside after : List Token}
    (after' : List Token) {e : SyntaxFault} {label : Option TableLabel × List Token}
    (depth : depthAfter 0 inside = some 0)
    (hl : tableLabel s.trailingCommas after = .ok label)
    (he : derivedTable s inner (.mark .leftParen :: inside ++ .mark .rightParen :: after) = .error e) :
    derivedTable s inner (.mark .leftParen :: inside ++ .mark .rightParen :: after') = .error e := by
  rcases parenthesised_uniform h.query depth with ⟨f, hf⟩ | ⟨q, hq⟩
  · rw [derivedTable, bind_of_error (hf after)] at he
    rw [derivedTable, bind_of_error (hf after'), he]
  · obtain ⟨l, rest⟩ := label
    rw [derivedTable, bind_of_ok (hq after), bind_of_ok hl] at he
    cases he

/-- Two readings of the same tokens, the second when the first has failed. -/
theorem attempt_bind_apply {α : Type} (p : Parser α) {q : Parser α} {f : Option α → Parser α}
    (found : ∀ a, f (some a) = Pure.pure a) (none : f none = q) (ts : List Token) :
    (attempt p >>= f) ts = match p ts with
      | .ok r => .ok r
      | .error .nesting => .error .nesting
      | .error _ => q ts := by
  cases hp : p ts with
  | ok r =>
    have tried : attempt p ts = .ok (some r.1, r.2) := by simp [attempt, hp]
    rw [bind_of_ok tried, found]
    rfl
  | error e =>
    cases e with
    | nesting =>
      have tried : attempt p ts = .error .nesting := by simp [attempt, hp]
      exact bind_of_error tried
    | _ =>
      have tried : attempt p ts = .ok (Option.none, ts) := by simp [attempt, hp]
      rw [bind_of_ok tried, none]

/-- Two readings are local when both are, and the first fails again before what
is changed wherever the second reads. -/
theorem attempt_bind {α : Type} {i o : Nat} {p p' q q' : Parser α} {f f' : Option α → Parser α}
    (found : ∀ a, f (some a) = Pure.pure a ∧ f' (some a) = Pure.pure a)
    (none : f none = q ∧ f' none = q') (hp : Parser.Local i o b p p') (hq : Parser.Local i o b q q')
    (again : ∀ {front left m after after' a e}, p (front ++ m :: after) = .error e →
      q (front ++ m :: after) = .ok (a, left ++ m :: after) →
      p (front ++ m :: after') = .error e) :
    Parser.Local i o b (attempt p >>= f) (attempt p' >>= f') := by
  have tried := attempt_bind_apply p (fun a => (found a).1) none.1
  have tried' := attempt_bind_apply p' (fun a => (found a).2) none.2
  refine ⟨?_, ?_, ?_, ?_⟩
  · intro ts _ _ h
    rw [tried] at h
    split at h
    next r hr =>
      obtain rfl := Except.ok.inj h
      exact hp.takes hr
    · cases h
    · exact hq.takes h
  · intro ts h
    rw [tried] at h ⊢
    cases hr : p ts with
    | ok r => rw [tried', hp.deeper (by simp [hr]), hr]
    | error e =>
      rw [hr] at h
      cases e with
      | nesting => exact absurd rfl h
      | _ => rw [tried', hp.deeper (by simp [hr]), hr]; exact hq.deeper h
  · intro front left m after after' a hides h
    rw [tried] at h ⊢
    cases hr : p (front ++ m :: after) with
    | ok r =>
      rw [hr] at h
      obtain rfl := Except.ok.inj h
      rw [hp.frame hides hr]
    | error e =>
      rw [hr] at h
      cases e with
      | nesting => cases h
      | _ => rw [again hr h]; exact hq.frame hides h
  · intro front after after' e depth h
    rw [tried] at h ⊢
    cases hr : p (front ++ .mark .rightParen :: after) with
    | ok r =>
      rw [hr] at h
      cases h
    | error e =>
      rw [hr] at h
      rw [hp.fault depth hr]
      cases e with
      | nesting => exact h
      | _ => exact hq.fault depth h

theorem tableIn_local (h : inner.Local inner') (n : Nat) :
    Parser.Local 0 0 true (tableIn s inner n) (tableIn s inner' n) := by
  induction n with
  | zero => exact .fail
  | succ n ih =>
    refine peek_bind fun first => .ite ?_ ?_
    · refine attempt_bind (fun _ => ⟨rfl, rfl⟩) ⟨rfl, rfl⟩ (derivedTable_local h) (joinedTable_local h ih) ?_
      intro front left m after after' t e failed read
      obtain ⟨inside, behind, label, split, depth, named⟩ := joinedTable_ok h ih read
      obtain rfl : front = .mark .leftParen :: inside ++ .mark .rightParen :: (behind ++ left) := by
        rw [← List.append_left_inj (m :: after), split]
        simp
      rw [split] at failed
      simpa using derivedTable_fault h (behind ++ left ++ m :: after') depth named failed
    · exact bind (tableName_local _) fun name => (tableLabel_local _).bind fun label => .pure _

/-! ## Depth of tables -/

/-- Joins are read alike with parsers of tables that agree on what is there. -/
theorem join_congr {table table' : Parser Table} {n : Nat}
    (agree : ∀ ts, ts.length ≤ n → table ts = table' ts) {ts : List Token} (hn : ts.length ≤ n) :
    join s inner table ts = join s inner table' ts := by
  refine bind_congr_of_ok fun natural mid₁ h₁ => bind_congr_of_ok fun kind mid₂ h₂ => ?_
  have l₁ := (skipWord_local (i := 0)).takes_length h₁
  have l₂ := joinKind_local.takes_length h₂
  have same : table mid₂ = table' mid₂ := agree mid₂ (by omega)
  split
  · rfl
  · split
    · rfl
    · exact bind_congr_left same
  · exact bind_congr_left same

theorem joinsIn_congr (h : inner.Local inner') {table table' table'' : Parser Table} {n : Nat}
    (ht : Parser.Local 0 0 true table table') (agree : ∀ ts, ts.length ≤ n → table ts = table'' ts)
    (k : Nat) {ts : List Token} (hn : ts.length ≤ n) :
    joinsIn s inner table k ts = joinsIn s inner table'' k ts := by
  induction k generalizing ts with
  | zero => rfl
  | succ k ih =>
    refine (bind_congr_of_ok fun found mid hf => ?_).trans (bind_congr_left (join_congr agree hn))
    have := (join_local h ht).takes_length hf
    cases found with
    | none => rfl
    | some j => exact bind_congr_left (ih (by omega))

theorem tableJoins_congr (h : inner.Local inner') {table table' table'' : Parser Table} {n : Nat}
    (ht : Parser.Local 0 0 true table table') (agree : ∀ ts, ts.length ≤ n → table ts = table'' ts)
    {ts : List Token} (hn : ts.length ≤ n) :
    tableJoins s inner table ts = tableJoins s inner table'' ts := by
  refine (bind_congr_of_ok fun t mid hm => ?_).trans (bind_congr_left (agree ts hn))
  have := ht.takes_lt hm
  rw [get_bind_apply, get_bind_apply]
  exact bind_congr_left (joinsIn_congr h ht agree _ (by omega))

theorem joinedTable_congr (h : inner.Local inner') {table table' table'' : Parser Table}
    (ht : Parser.Local 0 0 true table table') {ts : List Token}
    (agree : ∀ us, us.length < ts.length → table us = table'' us) :
    joinedTable s inner table ts = joinedTable s inner table'' ts := by
  refine bind_congr_left (bind_congr_of_ok fun _ mid opens => bind_congr_left ?_)
  obtain rfl := expectMark_ok_iff.mp opens
  exact tableJoins_congr h ht (fun us hus => agree us (Nat.lt_succ_of_le hus)) (Nat.le_refl _)

/-- A table, when the tables that are joined between parentheses are read as some parser does. -/
def tableWith (s : ParserSettings) (inner : Inner) (tables : Parser Table) : Parser Table := do
  if (← peek) == some (.mark .leftParen) then
    match ← attempt (derivedTable s inner) with
    | some t => return t
    | none => joinedTable s inner tables
  else
    let name ← tableName s.grammar
    return .named name (← tableLabel s.trailingCommas)

theorem tableIn_succ (n : Nat) : tableIn s inner (n + 1) = tableWith s inner (tableIn s inner n) := rfl

/-- Parsers of tables are asked for joined tables alone. -/
theorem tableWith_congr {table table' : Parser Table} {ts : List Token}
    (joined : joinedTable s inner table ts = joinedTable s inner table' ts) :
    tableWith s inner table ts = tableWith s inner table' ts := by
  refine bind_congr_of_ok fun first mid peeks => ?_
  obtain ⟨-, rfl⟩ := Prod.mk.inj (Except.ok.inj peeks)
  split
  · refine bind_congr_of_ok fun found mid tries => ?_
    cases found with
    | some t => rfl
    | none =>
      obtain rfl : mid = ts := by
        unfold attempt at tries
        split at tries <;> cases tries
        rfl
      exact joined
  · rfl

theorem tableIn_enough (h : inner.Local inner') {n m : Nat} {ts : List Token} (hn : ts.length < n)
    (hm : ts.length < m) : tableIn s inner n ts = tableIn s inner m ts := by
  induction n generalizing m ts with
  | zero => omega
  | succ n ih =>
    obtain ⟨m, rfl⟩ : ∃ m', m = m' + 1 := ⟨m - 1, by omega⟩
    rw [tableIn_succ, tableIn_succ]
    refine tableWith_congr (joinedTable_congr h (tableIn_local h n) fun us shorter => ?_)
    exact ih (by omega) (by omega)

theorem table_local (h : inner.Local inner') :
    Parser.Local 0 0 true (table s inner) (table s inner') := by
  refine of_length (fun n => tableIn_local h (n + 1)) (fun _ => rfl) (fun _ => rfl) fun _ enough => ?_
  exact tableIn_enough h (by omega) (by omega)

theorem tableList_local (h : inner.Local inner') :
    Parser.Local 0 0 b (tableList s inner) (tableList s inner') :=
  commaSeparated_local (tableJoins_local h (table_local h))

end DetectionPlan.Sql.Parser
