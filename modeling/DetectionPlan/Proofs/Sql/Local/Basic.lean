/-
Lists and names are read locally.
-/
import DetectionPlan.Proofs.Sql.Local.Core

namespace DetectionPlan.Sql.Parser

open Local

variable {α : Type} {i o : Nat} {b : Bool}

/-! ## Two tokens in a row -/

/-- A parser that takes two tokens when they are a pair, and none otherwise. -/
def ReadsPair (pair : Option Token → Option Token → Option α) (other : α) (p : Parser α) : Prop :=
  (∀ ts, p ts = match pair ts[0]? ts[1]? with
    | some a => .ok (a, ts.drop 2)
    | none => .ok (other, ts)) ∧
  ∀ first second a, pair first second = some a → ∃ t u, first = some t ∧ second = some u ∧
    t ≠ .mark .leftParen ∧ t ≠ .mark .rightParen ∧ u ≠ .mark .leftParen ∧ u ≠ .mark .rightParen ∧
    u ≠ .mark .period ∧ ∀ name, u ≠ .word name (some .AND)

theorem ReadsPair.local {pair : Option Token → Option Token → Option α} {other : α} {p : Parser α}
    (h : ReadsPair pair other p) : Local i i false p p where
  takes {ts a rest} hp := by
    rw [h.1] at hp
    split at hp
    next r hr =>
      obtain ⟨rfl, rfl⟩ := Prod.mk.inj (Except.ok.inj hp)
      obtain ⟨t, u, ht, hu, tl, tr, ul, ur, point, -⟩ := h.2 _ _ _ hr
      match ts, ht, hu with
      | t :: u :: rest, rfl, rfl =>
        refine ⟨[t, u], rfl, ?_, by simpa using point, by simp⟩
        simp [depthAfter_cons, nest_plain i tl tr, nest_plain i ul ur]
    · obtain ⟨rfl, rfl⟩ := Prod.mk.inj (Except.ok.inj hp)
      exact ⟨[], rfl, .nil i⟩
  deeper _ := rfl
  frame {front left m after after' a} hides hp := by
    rw [h.1] at hp ⊢
    split at hp
    next r hr =>
      obtain ⟨rfl, e⟩ := Prod.mk.inj (Except.ok.inj hp)
      match front with
      | [] | [_] =>
        have := congrArg List.length e
        simp at this
        omega
      | t :: u :: front =>
        simp only [List.cons_append, List.getElem?_cons_zero, List.getElem?_cons_succ] at hr ⊢
        rw [hr]
        simp only [List.cons_append, List.drop_succ_cons, List.drop_zero] at e ⊢
        rw [List.append_cancel_right e]
    next none =>
      obtain ⟨rfl, e⟩ := Prod.mk.inj (Except.ok.inj hp)
      obtain rfl := List.append_cancel_right e
      have none' : pair (front ++ m :: after')[0]? (front ++ m :: after')[1]? = Option.none := by
        match front with
        | [t] => simpa using none
        | t :: u :: front => simpa using none
        | [] =>
          -- A pair would start with `m`, and its second token is none that `m` hides.
          by_contra some
          obtain ⟨r, hr⟩ := Option.ne_none_iff_exists'.mp some
          obtain ⟨t, u, ht, hu, -, tr, ul, ur, -, and⟩ := h.2 _ _ _ hr
          rcases hides with rfl | ⟨-, v, rest, rfl, rfl | rfl | ⟨name, rfl⟩⟩
          · exact tr (Option.some.inj ht).symm
          · exact ul (Option.some.inj hu).symm
          · exact ur (Option.some.inj hu).symm
          · exact and name (Option.some.inj hu).symm
      rw [none']
  fault _ hp := by
    rw [h.1] at hp
    split at hp <;> cases hp

theorem skipWords_pair (i j : Ident) (k l : Keyword) (ts : List Token) :
    skipWords k l (.word i (some k) :: .word j (some l) :: ts) = .ok (true, ts) := by
  simp only [skipWords, get_bind_apply, beq_self_eq_true, Bool.and_self, if_true]
  rfl

theorem skipWords_other {k l : Keyword} {ts : List Token}
    (h : ¬ (wordOf? ts.head? = some k ∧ wordOf? ts[1]? = some l)) : skipWords k l ts = .ok (false, ts) := by
  unfold skipWords
  rw [get_bind_apply]
  split
  next i first j second rest =>
    have other : (first == some k && second == some l) = false := by
      simpa [wordOf?, Bool.and_eq_false_imp] using h
    simp [other]
  · rfl

theorem skipWords_readsPair {k l : Keyword} (hl : l ≠ .AND) :
    ReadsPair
      (fun first second =>
        if wordOf? first = some k ∧ wordOf? second = some l then some true else none)
      false (skipWords k l) := by
  constructor
  · intro ts
    simp only [← List.head?_eq_getElem?]
    by_cases both : wordOf? ts.head? = some k ∧ wordOf? ts[1]? = some l
    · obtain ⟨i, ts, rfl⟩ := exists_word both.1
      obtain ⟨j, ts, rfl⟩ : ∃ j more, ts = .word j (some l) :: more :=
        exists_word (by simpa [List.head?_eq_getElem?] using both.2)
      rw [skipWords_pair, if_pos both]
      rfl
    · rw [skipWords_other both, if_neg both]
  · intro first second a h
    simp only [Option.ite_none_right_eq_some] at h
    obtain ⟨⟨hf, hs⟩, -⟩ := h
    obtain ⟨f, rfl⟩ := exists_word_of_wordOf? hf
    obtain ⟨g, rfl⟩ := exists_word_of_wordOf? hs
    refine ⟨_, _, rfl, rfl, nofun, nofun, nofun, nofun, nofun, fun name e => hl ?_⟩
    cases e
    rfl

theorem skipWords_local {k l : Keyword} (hl : l ≠ .AND) :
    Local i i false (skipWords k l) (skipWords k l) := (skipWords_readsPair hl).local

theorem skipWords_ite {k l : Keyword} {p p' q q' : Parser α} (hl : l ≠ .AND)
    (yes : Local i o b p p') (no : Local i o b q q') :
    Local i o b (do if ← skipWords k l then p else q) (do if ← skipWords k l then p' else q') :=
  (skipWords_local hl).bind_strict fun _ => .ite yes no

/-! ## Lists -/

theorem atListEnd_local : Local i i false atListEnd atListEnd := by
  unfold atListEnd
  refine peek_bind fun t => ?_
  split <;> exact .pure _

theorem endsList_local (trailing : Bool) :
    Local i i false (endsList trailing) (endsList trailing) := by
  unfold endsList
  exact skipMark_ite (nest_plain i nofun nofun) nofun (.ite atListEnd_local (.pure _)) (.pure _)

/-- A list that goes on does so after a comma. -/
theorem endsList_false_lt {trailing : Bool} {ts rest : List Token}
    (h : endsList trailing ts = .ok (false, rest)) : rest.length < ts.length := by
  by_cases comma : ∃ more, ts = .mark .comma :: more
  · obtain ⟨more, rfl⟩ := comma
    rw [endsList, bind_of_ok (skipMark_self .comma)] at h
    have goes : Local 0 0 false (if trailing then atListEnd else Pure.pure false)
        (if trailing then atListEnd else Pure.pure false) := by
      refine .ite atListEnd_local (.pure _)
    have := goes.takes_length h
    simp
    omega
  · have other : skipMark .comma ts = .ok (false, ts) := by
      refine skipMark_other fun e => comma ?_
      obtain ⟨more, rfl⟩ := List.head?_eq_some_iff.mp e
      exact ⟨more, rfl⟩
    rw [endsList, bind_of_ok other] at h
    cases h

theorem commaSeparatedIn_local {trailing : Bool} {item item' : Parser α}
    (h : Local i i true item item') (n : Nat) :
    Local i i b (commaSeparatedIn trailing item n) (commaSeparatedIn trailing item' n) := by
  induction n generalizing b with
  | zero => exact .fail
  | succ n ih =>
    refine bind h.weaken fun first => (endsList_local trailing).bind fun ends => ?_
    exact .ite (.pure _) (bind ih fun rest => .pure _)

theorem commaSeparatedIn_enough {trailing : Bool} {item item' : Parser α}
    (h : Local i i true item item') {n m : Nat} {ts : List Token} (hn : 0 < n) (hm : 0 < m)
    (hn' : ts.length ≤ n) (hm' : ts.length ≤ m) :
    commaSeparatedIn trailing item n ts = commaSeparatedIn trailing item m ts := by
  induction n generalizing m ts with
  | zero => omega
  | succ n ih =>
    obtain ⟨m, rfl⟩ : ∃ m', m = m' + 1 := ⟨m - 1, by omega⟩
    refine bind_congr_of_ok fun first mid hf => bind_congr_of_ok fun last rest he => ?_
    cases last with
    | true => rfl
    | false =>
      have := h.takes_lt hf
      have := endsList_false_lt he
      exact bind_congr_left (ih (by omega) (by omega) (by omega) (by omega))

theorem commaSeparated_local {trailing : Bool} {item item' : Parser α}
    (h : Local i i true item item') :
    Local i i b (commaSeparated trailing item) (commaSeparated trailing item') := by
  refine of_length (fun n => commaSeparatedIn_local h n) (fun _ => rfl) (fun _ => rfl) ?_
  intro ts n some enough
  have := List.length_pos_of_ne_nil some
  exact commaSeparatedIn_enough h (by omega) this enough (Nat.le_refl _)

/-! ## Names -/

theorem ident_local : Local i i b ident ident := by
  refine take_bind fun t => ?_
  cases t with
  | word name k => exact .word (.pure _)
  | string kind text =>
    cases kind with
    | single | double => exact .string (.pure _)
    | national | hex | triple => exact .fail
  | number | mark | other => exact .fail

/-- The part of a name that a token after a point is. -/
def partOf? : Token → Option Ident
  | .word name _ => some name
  | .string .single text => some ⟨text, some '\x27'⟩
  | _ => none

/-- At most `n` parts of a name, each after a point, read one after the other. -/
def nameParts (star : Bool) : (n : Nat) → Parser (List Ident × Bool)
  | 0 => Pure.pure ([], false)
  | n + 1 => do
    if ← skipMark .period then
      let t ← take
      match partOf? t with
      | some name => return (fun r => (name :: r.1, r.2)) (← nameParts star n)
      | none => if star ∧ t = .mark .star then return ([], true) else Parser.fail
    else return ([], false)

theorem ne_period_of_hides {m : Token} {after : List Token} (h : Hides m after) :
    m ≠ .mark .period := by
  rcases h with rfl | ⟨h, -⟩
  · nofun
  · exact h

theorem nameTail_other (star : Bool) {ts : List Token} (h : ts.head? ≠ some (.mark .period)) :
    nameTail star ts = .ok (([], false), ts) := by
  unfold nameTail
  grind

theorem nameTail_point (star : Bool) (t : Token) (rest : List Token) :
    nameTail star (.mark .period :: t :: rest) = match partOf? t with
      | some name => (nameTail star rest).map fun r => ((name :: r.1.1, r.1.2), r.2)
      | none => if star ∧ t = .mark .star then .ok (([], true), rest) else .error .grammar := by
  cases t with
  | word name k =>
    rw [nameTail]
    cases nameTail star rest <;> rfl
  | string kind text =>
    cases kind with
    | single =>
      rw [nameTail]
      cases nameTail star rest <;> rfl
    | double | national | hex | triple => rw [nameTail] <;> simp [partOf?]
  | mark m =>
    by_cases h : m = .star
    · subst h
      rw [nameTail]
      simp [partOf?]
    · rw [nameTail] <;> simp [partOf?, h]
  | number | other => rw [nameTail] <;> simp [partOf?]

theorem nameParts_eq (star : Bool) {n : Nat} {ts : List Token} (h : ts.length ≤ n) :
    nameParts star n ts = nameTail star ts := by
  induction n generalizing ts with
  | zero =>
    obtain rfl := List.eq_nil_of_length_eq_zero (Nat.le_zero.mp h)
    rfl
  | succ n ih =>
    unfold nameParts
    by_cases point : ts.head? = some (.mark .period)
    · obtain ⟨rest, rfl⟩ := List.head?_eq_some_iff.mp point
      rw [bind_of_ok (skipMark_self .period), if_pos rfl]
      match rest with
      | [] => rw [bind_of_error take_nil, nameTail] <;> nofun
      | t :: rest =>
        have same : nameParts star n rest = nameTail star rest := ih (by simp at h; omega)
        rw [bind_of_ok (take_cons t), nameTail_point]
        cases partOf? t with
        | some name =>
          simp only
          cases more : nameTail star rest with
          | error e => rw [bind_of_error (same.trans more)]; rfl
          | ok r => rw [bind_of_ok (same.trans more : _ = .ok (r.1, r.2))]; rfl
        | none =>
          simp only
          split <;> rfl
    · rw [bind_of_ok (skipMark_other point), nameTail_other star point]
      rfl

theorem nameTail_local (star : Bool) : Local i i false (nameTail star) (nameTail star) := by
  have parts : ∀ n, Local i i false (nameParts star n) (nameParts star n) := by
    intro n
    induction n with
    | zero => exact .pure _
    | succ n ih =>
      refine skipMark_bind_strict (c := true) (nest_plain i nofun nofun) (fun _ => rfl) ?_ (.pure _)
      refine take_bind fun t => ?_
      cases t with
      | word name k => exact .word (ih.bind fun r => .pure _)
      | string kind text =>
        cases kind with
        | single => exact .string (ih.bind fun r => .pure _)
        | double | national | hex | triple => simp [partOf?, After.fail]
      | mark m =>
        by_cases all : star ∧ m = .star
        · rw [all.2]
          exact .mark (nest_plain i nofun nofun) nofun (.ite (.pure _) .fail)
        · simp [partOf?, all, After.fail]
      | number | other => simp [partOf?, After.fail]
  refine of_length parts (fun _ => (nameParts_eq star (Nat.le_refl _)).symm)
    (fun _ => (nameParts_eq star (Nat.le_refl _)).symm) ?_
  intro ts n _ h
  rw [nameParts_eq star h, nameParts_eq star (Nat.le_refl _)]

/-- Whether the parts of a name end in a star is settled by the tokens before
one that hides what follows. -/
theorem nameTail_plain {star : Bool} {m : Token} {after after' : List Token}
    (hides : Hides m after') : ∀ {front rest : List Token} {parts : List Ident},
    nameTail star (front ++ m :: after) = .ok ((parts, false), rest) →
    ∃ parts' rest', nameTail star (front ++ m :: after') = .ok ((parts', false), rest')
  | [], _, _, _ => ⟨_, _, nameTail_other star (by simpa using ne_period_of_hides hides)⟩
  | [t], rest, parts, h => by
    by_cases point : t = .mark .period
    · subst point
      simp only [List.cons_append, List.nil_append, nameTail_point] at h ⊢
      cases part : partOf? m with
      | none =>
        rw [part] at h
        grind
      | some name =>
        have stays : after'.head? ≠ some (.mark .period) := by
          rcases hides with rfl | ⟨-, t, rest, rfl, rfl | rfl | ⟨_, rfl⟩⟩
          · cases part
          all_goals simp
        simp only [nameTail_other star stays]
        exact ⟨_, _, rfl⟩
    · exact ⟨_, _, nameTail_other star (by simpa using point)⟩
  | t :: u :: front, rest, parts, h => by
    by_cases point : t = .mark .period
    · subst point
      simp only [List.cons_append, nameTail_point] at h ⊢
      cases part : partOf? u with
      | none =>
        rw [part] at h
        grind
      | some name =>
        rw [part] at h
        obtain ⟨⟨⟨parts', st⟩, rest'⟩, hr, e⟩ := Outcome.map_ok_iff.mp h
        simp only [Prod.mk.injEq] at e
        obtain ⟨⟨-, rfl⟩, -⟩ := e
        obtain ⟨parts', rest', h'⟩ := nameTail_plain hides hr
        simp only [h']
        exact ⟨_, _, rfl⟩
    · exact ⟨_, _, nameTail_other star (by simpa using point)⟩

theorem pointSeparatedIn_local (n : Nat) :
    Local i i true (pointSeparatedIn n) (pointSeparatedIn n) := by
  induction n with
  | zero => exact .fail
  | succ n ih =>
    refine bind ident_local fun first => ?_
    exact skipMark_bind_strict (nest_plain i nofun nofun) (fun _ => rfl)
      (ih.bind fun rest => .pure _) (.pure _)

theorem pointSeparatedIn_enough {n m : Nat} {ts : List Token} (hn : ts.length ≤ n)
    (hm : ts.length ≤ m) : pointSeparatedIn n ts = pointSeparatedIn m ts := by
  induction n generalizing m ts with
  | zero =>
    obtain rfl := List.eq_nil_of_length_eq_zero (Nat.le_zero.mp hn)
    cases m <;> rfl
  | succ n ih =>
    cases m with
    | zero =>
      obtain rfl := List.eq_nil_of_length_eq_zero (Nat.le_zero.mp hm)
      rfl
    | succ m =>
      refine bind_congr_of_ok fun first mid hf => bind_congr_of_ok fun more rest hr => ?_
      cases more with
      | false => rfl
      | true =>
        have first := (ident_local (i := 0)).takes_lt hf
        have second := skipMark_length hr
        exact bind_congr_left (ih (by omega) (by omega))

theorem tableName_local (g : Grammar) : Local i i b (tableName g) (tableName g) := by
  refine length_bind (fun n => (pointSeparatedIn_local n).weaken)
    (fun _ h => pointSeparatedIn_enough h (Nat.le_refl _)) fun parts => ?_
  exact .ite (.pure _) (.pure _)

theorem columnNames_local (trailing : Bool) :
    Local 0 0 false (columnNames trailing) (columnNames trailing) :=
  peek_bind fun _ => .ite (.parenthesised (commaSeparated_local ident_local)) (.pure _)

theorem label_local (ends : Keyword → Bool) : Local i i false (label ends) (label ends) := by
  refine skipWord_local.bind fun marked => of_begins fun first => ?_
  let unnamed : Parser (Option Ident) := if marked then Parser.fail else Pure.pure none
  have none : Local i i false unnamed unnamed := .ite .fail (.pure none)
  cases first with
  | none =>
    refine .keeps none fun ts hts => ?_
    rw [List.head?_eq_none_iff.mp hts]
    exact ⟨rfl, rfl⟩
  | some t =>
    cases t with
    | word name k =>
      by_cases names : (marked || !k.any ends) = true
      · refine .eats (nest_word i name k) nofun (.pure (some name)) fun rest => ?_
        simp only [get_bind_apply, names, if_true]
        exact ⟨rfl, rfl⟩
      · refine .keeps (.pure Option.none) fun ts hts => ?_
        obtain ⟨rest, rfl⟩ := List.head?_eq_some_iff.mp hts
        simp only [get_bind_apply, names]
        exact ⟨rfl, rfl⟩
    | string kind text =>
      have nests : nest i (.string kind text) = some i := nest_plain i nofun nofun
      cases kind with
      | single | double => exact .eats nests nofun (.pure _) fun rest => ⟨rfl, rfl⟩
      | national | hex | triple =>
        refine .keeps none fun ts hts => ?_
        obtain ⟨rest, rfl⟩ := List.head?_eq_some_iff.mp hts
        exact ⟨rfl, rfl⟩
    | number | mark | other =>
      refine .keeps none fun ts hts => ?_
      obtain ⟨rest, rfl⟩ := List.head?_eq_some_iff.mp hts
      exact ⟨rfl, rfl⟩

theorem tableLabel_local (trailing : Bool) :
    Local 0 0 false (tableLabel trailing) (tableLabel trailing) := by
  refine (label_local _).bind fun found => ?_
  cases found with
  | some name => exact (columnNames_local trailing).bind fun _ => .pure _
  | none => exact .pure _

end DetectionPlan.Sql.Parser
