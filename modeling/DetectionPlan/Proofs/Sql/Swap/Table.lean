/-
Tables that turn into others.
-/
import DetectionPlan.Proofs.Sql.Swap.Enclosed
import DetectionPlan.Proofs.Sql.Spelling
import DetectionPlan.Proofs.Text.Splitting

namespace DetectionPlan.Sql.Parser

open Lexer (KeywordSpelled)

variable {s : ParserSettings} {P : Token → Prop} {R : Call → Option Expr → Prop} {inner inner' : Inner}
  {tables tables' : Parser Table}

/-! ## Depth of tables -/

/-- What one parser reads another reads. -/
def Within {α : Type} (p p' : Parser α) : Prop := ∀ ts r, p ts = .ok r → p' ts = .ok r

namespace Within

variable {α β : Type} {p p' : Parser α} {f f' : α → Parser β}

theorem refl : Within p p := fun _ _ h => h

theorem fail : Within (Parser.fail : Parser α) p' := fun _ _ h => by cases h

theorem bind (h : Within p p') (hf : ∀ a, Within (f a) (f' a)) : Within (p >>= f) (p' >>= f') := by
  intro ts r hp
  obtain ⟨b, rest⟩ := r
  obtain ⟨a, mid, ha, hb⟩ := bind_eq_ok_iff.mp hp
  exact (bind_of_ok (h _ _ ha)).trans (hf a _ _ hb)

theorem ite {C : Prop} [Decidable C] {q q' : Parser α} (h : Within p p') (hq : Within q q') :
    Within (if C then p else q) (if C then p' else q') := by
  split
  · exact h
  · exact hq

theorem join (h : Within tables tables') : Within (join s inner tables) (join s inner tables') := by
  refine bind refl fun natural => bind refl fun kind => ?_
  split
  · exact refl
  · exact ite refl (bind h fun _ => refl)
  · exact bind h fun _ => refl

theorem joinsIn (h : Within tables tables') (n : Nat) :
    Within (joinsIn s inner tables n) (joinsIn s inner tables' n) := by
  induction n with
  | zero => exact refl
  | succ n ih =>
    refine bind (join h) fun found => ?_
    cases found with
    | none => exact refl
    | some j => exact bind ih fun _ => refl

theorem tableJoins (h : Within tables tables') : Within (tableJoins s inner tables) (tableJoins s inner tables') :=
  bind h fun _ => bind refl fun ts => bind (joinsIn h ts.length) fun _ => refl

theorem joinedTable (h : Within tables tables') : Within (joinedTable s inner tables) (joinedTable s inner tables') :=
  bind (bind refl fun _ => bind (tableJoins h) fun _ => refl) fun _ => refl

end Within

theorem Within.tableWith (h : Within tables tables') :
    Within (tableWith s inner tables) (tableWith s inner tables') := by
  refine bind refl fun first => ite (bind refl fun found => ?_) refl
  cases found with
  | some t => exact refl
  | none => exact joinedTable h

theorem table_eq (here : inner.Local inner) : table s inner = tableWith s inner (table s inner) := by
  funext ts
  rw [table, get_bind_apply, tableIn_succ]
  refine tableWith_congr (joinedTable_congr here (tableIn_local here _) fun us shorter => ?_)
  exact tableIn_enough here shorter (Nat.lt_succ_self _)

theorem tableIn_within (here : inner.Local inner) (n : Nat) : Within (tableIn s inner n) (table s inner) := by
  induction n with
  | zero => exact .fail
  | succ n ih =>
    rw [tableIn_succ, table_eq here]
    exact .tableWith ih

/-! ## Names of tables -/

/-- The word of a keyword has no point in it. -/
theorem splitOn_keyword {text : String} {k : Keyword} (h : Keyword.ofWord? text = some k) :
    text.splitOn "." = [text] := by
  refine splitOn_dot fun dot => ?_
  obtain ⟨before, after, e, -⟩ := List.lookup_eq_some_iff.mp h
  have upper : '.' ∈ (asciiUpper text).toList := by
    rw [asciiUpper, String.toList_map]
    exact List.mem_map.mpr ⟨'.', dot, rfl⟩
  have plain : ∀ w ∈ Keyword.spellings, '.' ∉ w.1.toList := by decide +kernel
  exact plain (asciiUpper text, k) (by rw [e]; simp) upper

/-- The first word of a table that is no word of a query. -/
theorem tableName_word {g : Grammar} {ts rest : List Token} {name : List Ident} (h : tableName g ts = .ok (name, rest))
    (spelled : ∀ t ∈ ts, KeywordSpelled t) (plain : name.head?.any Ident.startsRows = false) (k : Keyword)
    (word : wordOf? ts.head? = some k) : k.beginsQuery = false := by
  obtain ⟨i, more, rfl⟩ := exists_word word
  obtain ⟨quote, text⟩ := spelled _ List.mem_cons_self i k rfl
  by_contra begins
  rw [Bool.not_eq_false] at begins
  have starts : i.startsRows = true := by
    rw [Ident.startsRows, quote, text]
    cases k <;> first | rfl | cases begins
  obtain ⟨parts, rfl⟩ : ∃ parts, name = i :: parts := by
    rw [tableName_eq] at h
    obtain ⟨parts, mid, hp, h⟩ := bind_eq_ok_iff.mp h
    obtain ⟨others, rfl⟩ : ∃ others, parts = i :: others := by
      rw [pointSeparated, get_bind_apply, List.length_cons] at hp
      obtain ⟨first, mid₁, h₁, hp⟩ := bind_eq_ok_iff.mp hp
      obtain ⟨rfl, rfl⟩ := Prod.mk.inj (Except.ok.inj h₁)
      obtain ⟨goes, mid₂, -, hp⟩ := bind_eq_ok_iff.mp hp
      cases goes with
      | true =>
        obtain ⟨others, mid₃, -, hp⟩ := bind_eq_ok_iff.mp hp
        obtain ⟨rfl, -⟩ := Prod.mk.inj (Except.ok.inj hp)
        exact ⟨others, rfl⟩
      | false =>
        obtain ⟨rfl, -⟩ := Prod.mk.inj (Except.ok.inj hp)
        exact ⟨[], rfl⟩
    split at h
    · obtain ⟨rfl, -⟩ := Prod.mk.inj (Except.ok.inj h)
      rw [List.flatMap_cons, splitOn_keyword text]
      exact ⟨_, rfl⟩
    · obtain ⟨rfl, -⟩ := Prod.mk.inj (Except.ok.inj h)
      exact ⟨others, rfl⟩
  rw [List.head?_cons, Option.any_some, starts] at plain
  cases plain

/-- No word with which a query goes on stands behind a table that is joined between parentheses. -/
theorem quits_of_tableLabel {trailing : Bool} {after mid rest : List Token} {l : Option TableLabel} {js : List Join}
    (hl : tableLabel trailing after = .ok (l, mid)) (hj : joins s inner tables mid = .ok (js, rest))
    (closed : rest.head? = some (.mark .rightParen)) (k : Keyword) (word : wordOf? after.head? = some k) :
    k.goesOnQuery = false := by
  by_contra goesOn
  rw [Bool.not_eq_false] at goesOn
  obtain ⟨name, more, rfl⟩ := exists_word word
  have unnamed : tableLabel trailing (.word name (some k) :: more) = .ok (none, .word name (some k) :: more) := by
    cases k <;> first | rfl | cases goesOn
  have unjoined : join s inner tables (.word name (some k) :: more) = .ok (none, .word name (some k) :: more) := by
    cases k <;> first | rfl | cases goesOn
  obtain ⟨-, rfl⟩ := Prod.mk.inj (Except.ok.inj (unnamed.symm.trans hl))
  have alone : joins s inner tables (.word name (some k) :: more) = .ok ([], .word name (some k) :: more) :=
    (get_bind_apply _).trans ((bind_of_ok unjoined).trans rfl)
  obtain ⟨-, rfl⟩ := Prod.mk.inj (Except.ok.inj (alone.symm.trans hj))
  cases closed

/-! ## Tables -/

variable {d m n : Nat} {inside inside' after after' ts ts' rest : List Token}

/-- Tokens of a table that begins with a parenthesis, and of one that it turns into. -/
def Opened (s : ParserSettings) (m : Nat) (ts ts' rest : List Token) : Prop :=
  ∃ inside inside' behind behind' l, ts = .mark .leftParen :: inside ++ .mark .rightParen :: behind ∧
    ts' = .mark .leftParen :: inside' ++ .mark .rightParen :: behind' ∧ depthAfter 0 inside = some 0 ∧
    depthAfter 0 inside' = some 0 ∧ AlikeQuery s m inside inside' ∧ behind'.head? = behind.head? ∧
    tableLabel s.trailingCommas behind = .ok (l, rest)

/-- A parser of tables that is followed by the one that reads all of them. -/
def FollowsTable (s : ParserSettings) (P : Token → Prop) (R : Call → Option Expr → Prop) (m d : Nat)
    (tables : Parser Table) :
    Prop :=
  ∀ ⦃ts rest : List Token⦄ ⦃t : Table⦄, tables ts = .ok (t, rest) → (∀ t ∈ ts, P t) → (∀ t ∈ rest, P t) ∧
    ∀ ⦃t' : Table⦄, t.Turns R t' → ∀ ⦃rest' : List Token⦄, Stops P rest rest' →
      ∃ ts', Alike P ts ts' ∧ table s (innerIn s (d + m)) ts' = .ok (t', rest') ∧
        (ts.head? = some (.mark .leftParen) → Opened s m ts ts' rest)

theorem FollowsTable.follows (h : FollowsTable s P R m d tables) :
    Follows P (Table.Turns R) (Stops P) (Alike P) tables (table s (innerIn s (d + m))) := by
  refine Follows.of_read fun ts rest t ht known => ⟨(h ht known).1, fun t' turns rest' hr => ?_⟩
  obtain ⟨ts', alike, again, -⟩ := (h ht known).2 turns hr
  exact ⟨ts', alike, again⟩

/-- Tokens that close what they open begin alike when they do with what follows them. -/
theorem head?_of_closed (depth : depthAfter 0 inside = some 0) (depth' : depthAfter 0 inside' = some 0)
    (h : (inside' ++ .mark .rightParen :: after').head? = (inside ++ .mark .rightParen :: after).head?) :
    inside'.head? = inside.head? := by
  match inside, inside', h with
  | [], [], _ => rfl
  | t :: _, t' :: _, h => exact h
  | [], t' :: _, h =>
    obtain rfl : t' = .mark .rightParen := Option.some.inj h
    cases depth'
  | t :: _, [], h =>
    obtain rfl : .mark .rightParen = t := Option.some.inj h
    cases depth

theorem head?_ne_close (depth : depthAfter 0 inside = some 0) : inside.head? ≠ some (.mark .rightParen) := by
  intro h
  obtain ⟨inside, rfl⟩ := List.head?_eq_some_iff.mp h
  cases depth

theorem tableWith_name (opens : ts.head? ≠ some (.mark .leftParen)) :
    tableWith s inner tables ts =
      (do let name ← tableName s.grammar; return .named name (← tableLabel s.trailingCommas) : Parser Table) ts := by
  rw [tableWith, bind_of_ok peek_apply, if_neg (by simpa using opens)]

/-- A table that begins with no parenthesis begins with the word of its name. -/
theorem tableIn_word {t : Table} {js : List Join} (h : tableIn s inner n ts = .ok (t, rest))
    (opens : ts.head? ≠ some (.mark .leftParen)) (spelled : ∀ t ∈ ts, KeywordSpelled t)
    (plain : (TableJoins.mk t js).startsRows = false) (k : Keyword) (word : wordOf? ts.head? = some k) :
    k.beginsQuery = false := by
  cases n with
  | zero => cases h
  | succ n =>
    rw [tableIn_succ, tableWith_name opens] at h
    obtain ⟨name, mid, hn, h⟩ := bind_eq_ok_iff.mp h
    obtain ⟨l, left, -, h⟩ := bind_eq_ok_iff.mp h
    obtain ⟨rfl, rfl⟩ := Prod.mk.inj (Except.ok.inj h)
    exact tableName_word hn spelled plain k word

/-- Joined tables between parentheses are followed by others, and those are a query in no other way. -/
theorem tableJoins_enclosed (h : (innerIn s d).Follows s P R (innerIn s (d + m)))
    (spelled : ∀ t, P t → KeywordSpelled t) (ih : FollowsTable s P R m d (tableIn s (innerIn s d) n))
    {t t' : TableJoins}
    (hp : tableJoins s (innerIn s d) (tableIn s (innerIn s d) n) (inside ++ .mark .rightParen :: after) =
      .ok (t, .mark .rightParen :: after))
    (depth : depthAfter 0 inside = some 0) (known : ∀ t ∈ inside ++ .mark .rightParen :: after, P t)
    (plain : t.startsRows = false) (turns : t.Turns R t') :
    ∃ inside', (∀ t ∈ inside', P t) ∧ depthAfter 0 inside' = some 0 ∧ AlikeQuery s m inside inside' ∧
      ∀ after', tableJoins s (innerIn s (d + m)) (table s (innerIn s (d + m)))
          (inside' ++ .mark .rightParen :: after') =
        .ok (t', .mark .rightParen :: after') := by
  have here := innerIn_local s (Nat.le_refl d)
  have there := innerIn_local s (Nat.le_refl (d + m))
  rw [tableJoins_eq] at hp
  obtain ⟨first, mid, ht, hp⟩ := bind_eq_ok_iff.mp hp
  obtain ⟨js, left, hj, hp⟩ := bind_eq_ok_iff.mp hp
  obtain ⟨rfl, rfl⟩ := Prod.mk.inj (Except.ok.inj hp)
  obtain ⟨first', js'⟩ := t'
  obtain ⟨turnsFirst, turnsJoins⟩ := turns
  obtain ⟨knownMid, more⟩ := ih ht known
  have close : Stops P (.mark .rightParen :: after) [.mark .rightParen] :=
    .mark (known _ (by simp)) (by simp [Known]) rfl
  obtain ⟨mid', hm, hj'⟩ := (joins_follow h here ih.follows (tableIn_local here n) (table_local there)).read hj knownMid
    turnsJoins close
  obtain ⟨ts', alike, ht', opened⟩ := more turnsFirst hm
  have joined : tableJoins s (innerIn s (d + m)) (table s (innerIn s (d + m))) ts' =
      .ok (⟨first', js'⟩, [.mark .rightParen]) := by
    rw [tableJoins_eq]
    exact (bind_of_ok ht').trans ((bind_of_ok hj').trans rfl)
  have local' : Parser.Local 0 0 true (tableJoins s (innerIn s (d + m)) (table s (innerIn s (d + m))))
      (tableJoins s (innerIn s (d + m)) (table s (innerIn s (d + m)))) := tableJoins_local there (table_local there)
  obtain ⟨inside', rfl, chunk⟩ := local'.takes joined
  refine ⟨inside', fun t ht => alike.known t (by simp [ht]), chunk.depth, ?_, fun after' => ?_⟩
  · by_cases opens : (inside ++ .mark .rightParen :: after).head? = some (.mark .leftParen)
    · obtain ⟨in₀, in₀', behind, behind', l, e, e', depth₀, depth₀', alike₀, first₀, label⟩ := opened opens
      have taken {us : List Token} (balanced : depthAfter 0 us = some 0) :
          depthAfter 0 (.mark .leftParen :: us ++ [.mark .rightParen]) = some 0 := by
        rw [List.cons_append, depthAfter_cons, nest_leftParen, Option.bind_some, depthAfter_append,
          depthAfter_succ balanced]
        rfl
      obtain ⟨left, rfl, rfl, depthLeft⟩ := left_before_close depth (taken depth₀) (by simpa using e)
      obtain ⟨left', rfl, rfl, depthLeft'⟩ := left_before_close chunk.depth (taken depth₀') (by simpa using e')
      have quits := quits_of_tableLabel label hj rfl
      rw [wordOf?_closed] at quits
      simpa using alike₀.of_parenthesis (head?_of_closed depthLeft depthLeft' first₀) (head?_ne_close depthLeft) quits
    · have opens' : inside.head? ≠ some (.mark .leftParen) := by
        cases inside with
        | nil => rintro ⟨⟩
        | cons t inside => exact opens
      refine .of_word (head?_of_closed depth chunk.depth alike.first) opens' ?_
      have word := tableIn_word ht opens (fun t ht => spelled t (known t ht)) plain
      rwa [wordOf?_closed] at word
  · have closed : Hides (.mark .rightParen) after' := .inl rfl
    exact local'.frame_end closed joined

/-- What is made of joined tables behind the parenthesis that closes them. -/
def joinedEnd (s : ParserSettings) : TableJoins → Parser Table
  | t@⟨.joined _ _, []⟩ => do return .joined t (← tableLabel s.trailingCommas)
  | ⟨first, []⟩ => if s.grammar.allowsLoneTable then loneTable s first else fail
  | t => do return .joined t (← tableLabel s.trailingCommas)

theorem joinedTable_eq : joinedTable s inner tables = parenthesised (tableJoins s inner tables) >>= joinedEnd s := by
  refine bind_congr fun t => ?_
  obtain ⟨first, js⟩ := t
  cases js <;> cases first <;> rfl

theorem joinedEnd_lone {first : Table} (alone : ∀ t l, first ≠ .joined t l) :
    joinedEnd s ⟨first, []⟩ = if s.grammar.allowsLoneTable then loneTable s first else fail := by
  cases first with
  | joined t l => exact absurd rfl (alone t l)
  | named => rfl
  | derived => rfl

/-- A table between parentheses turns by itself, and its label stays. -/
theorem loneTable_follows {first t : Table} {mid : List Token} (alone : ∀ t l, first ≠ .joined t l)
    (h : loneTable s first mid = .ok (t, rest)) (known : ∀ t ∈ mid, P t) :
    (∃ l, tableLabel s.trailingCommas mid = .ok (l, rest)) ∧ (∀ t ∈ rest, P t) ∧ ∀ t', t.Turns R t' →
      ∀ rest', Stops P rest rest' → ∃ mid' first', Stops P mid mid' ∧
        loneTable s first' mid' = .ok (t', rest') ∧ (∀ t l, first' ≠ .joined t l) ∧
        (first' = first ∨ (TableJoins.mk first []).startsRows = false ∧ first.Turns R first') := by
  have named : Stays P (Stops P) (Stops P) (tableLabel s.trailingCommas) := tableLabel_stays _
  obtain ⟨l, left, hl, h⟩ := bind_eq_ok_iff.mp h
  cases first with
  | joined t₀ l₀ => exact absurd rfl (alone t₀ l₀)
  | named name l₀ =>
    match l, l₀, h with
    | none, l₀, h =>
      obtain ⟨rfl, rfl⟩ := Prod.mk.inj (Except.ok.inj h)
      refine ⟨⟨none, hl⟩, (named hl known).1, ?_⟩
      rintro _ ⟨⟩ rest' hr
      obtain ⟨mid', hm, again⟩ := named.read hl known rfl hr
      exact ⟨mid', .named name l₀, hm, (bind_of_ok again).trans rfl, nofun, .inl rfl⟩
    | some l, none, h =>
      obtain ⟨rfl, rfl⟩ := Prod.mk.inj (Except.ok.inj h)
      refine ⟨⟨l, hl⟩, (named hl known).1, ?_⟩
      rintro _ ⟨⟩ rest' hr
      obtain ⟨mid', hm, again⟩ := named.read hl known rfl hr
      exact ⟨mid', .named name none, hm, (bind_of_ok again).trans rfl, nofun, .inl rfl⟩
  | derived q l₀ =>
    match l, l₀, h with
    | none, l₀, h =>
      obtain ⟨rfl, rfl⟩ := Prod.mk.inj (Except.ok.inj h)
      refine ⟨⟨none, hl⟩, (named hl known).1, ?_⟩
      rintro _ (_ | turns) rest' hr
      obtain ⟨mid', hm, again⟩ := named.read hl known rfl hr
      exact ⟨mid', _, hm, (bind_of_ok again).trans rfl, nofun, .inr ⟨rfl, .derived turns⟩⟩
    | some l, none, h =>
      obtain ⟨rfl, rfl⟩ := Prod.mk.inj (Except.ok.inj h)
      refine ⟨⟨l, hl⟩, (named hl known).1, ?_⟩
      rintro _ (_ | turns) rest' hr
      obtain ⟨mid', hm, again⟩ := named.read hl known rfl hr
      exact ⟨mid', .derived _ none, hm, (bind_of_ok again).trans rfl, nofun, .inr ⟨rfl, .derived turns⟩⟩

/-- Joined tables that turn are named as they were; a lone table stays or turns by itself. -/
theorem joinedEnd_follows {t₀ : TableJoins} {t : Table} {mid : List Token}
    (h : joinedEnd s t₀ mid = .ok (t, rest)) (known : ∀ t ∈ mid, P t) :
    (∃ l, tableLabel s.trailingCommas mid = .ok (l, rest)) ∧ (∀ t ∈ rest, P t) ∧ ∀ t', t.Turns R t' →
      ∀ rest', Stops P rest rest' → ∃ mid' t₀', Stops P mid mid' ∧ joinedEnd s t₀' mid' = .ok (t', rest') ∧
        (t₀' = t₀ ∨ t₀.startsRows = false ∧ t₀.Turns R t₀') := by
  have named : Stays P (Stops P) (Stops P) (tableLabel s.trailingCommas) := tableLabel_stays _
  have joined {t₀ : TableJoins} (branch : ∀ t₀', t₀.Turns R t₀' →
      joinedEnd s t₀' = (do return .joined t₀' (← tableLabel s.trailingCommas)))
      (h : (do return .joined t₀ (← tableLabel s.trailingCommas) : Parser Table) mid = .ok (t, rest)) :
      (∃ l, tableLabel s.trailingCommas mid = .ok (l, rest)) ∧ (∀ t ∈ rest, P t) ∧ ∀ t', t.Turns R t' →
        ∀ rest', Stops P rest rest' → ∃ mid' t₀', Stops P mid mid' ∧ joinedEnd s t₀' mid' = .ok (t', rest') ∧
          (t₀' = t₀ ∨ t₀.startsRows = false ∧ t₀.Turns R t₀') := by
    obtain ⟨l, left, hl, h⟩ := bind_eq_ok_iff.mp h
    obtain ⟨rfl, rfl⟩ := Prod.mk.inj (Except.ok.inj h)
    refine ⟨⟨l, hl⟩, (named hl known).1, ?_⟩
    rintro _ (_ | _ | ⟨plain, turns⟩) rest' hr
    obtain ⟨mid', hm, again⟩ := named.read hl known rfl hr
    refine ⟨mid', _, hm, ?_, .inr ⟨plain, turns⟩⟩
    rw [branch _ turns]
    exact (bind_of_ok again).trans rfl
  have lone {first : Table} (alone : ∀ t l, first ≠ .joined t l)
      (h : joinedEnd s ⟨first, []⟩ mid = .ok (t, rest)) :
      (∃ l, tableLabel s.trailingCommas mid = .ok (l, rest)) ∧ (∀ t ∈ rest, P t) ∧ ∀ t', t.Turns R t' →
        ∀ rest', Stops P rest rest' → ∃ mid' t₀', Stops P mid mid' ∧ joinedEnd s t₀' mid' = .ok (t', rest') ∧
          (t₀' = ⟨first, []⟩ ∨ (TableJoins.mk first []).startsRows = false ∧ (TableJoins.mk first []).Turns R t₀') := by
    rw [joinedEnd_lone alone] at h
    split at h
    next allowed =>
      obtain ⟨label, left, more⟩ := loneTable_follows alone h known
      refine ⟨label, left, fun t' turns rest' hr => ?_⟩
      obtain ⟨mid', first', hm, again, alone', same⟩ := more t' turns rest' hr
      refine ⟨mid', ⟨first', []⟩, hm, ?_,
        same.imp (congrArg (TableJoins.mk · [])) fun both => ⟨both.1, .mk both.2 .nil⟩⟩
      rwa [joinedEnd_lone alone', if_pos allowed]
    · cases h
  obtain ⟨first, js⟩ := t₀
  match first, js with
  | .joined _ _, [] =>
    refine joined ?_ h
    rintro _ ⟨⟨_, _⟩, ⟨⟩⟩
    rfl
  | .named _ _, [] => exact lone nofun h
  | .derived _ _, [] => exact lone nofun h
  | first, j :: js =>
    refine joined ?_ (by cases first <;> exact h)
    rintro _ ⟨ht, ⟨hj, _⟩⟩
    cases ht <;> rfl

theorem known_closed (inside : ∀ t ∈ inside', P t) (close : P (.mark .rightParen)) (behind : Known P after after') :
    Known P after (inside' ++ .mark .rightParen :: after') := by
  intro t ht
  simp only [List.mem_append, List.mem_cons] at ht
  obtain ht | rfl | ht := ht
  · exact inside t ht
  · exact close
  · exact behind t ht

/-- Tables that are joined between parentheses, where no query could be read before. -/
theorem joinedTable_follows (h : (innerIn s d).Follows s P R (innerIn s (d + m)))
    (spelled : ∀ t, P t → KeywordSpelled t) (ih : FollowsTable s P R m d (tableIn s (innerIn s d) n)) {t : Table}
    {f : SyntaxFault} (tried : derivedTable s (innerIn s d) ts = .error f) (graver : f ≠ .nesting)
    (hp : joinedTable s (innerIn s d) (tableIn s (innerIn s d) n) ts = .ok (t, rest)) (known : ∀ t ∈ ts, P t) :
    (∀ t ∈ rest, P t) ∧ ∀ t', t.Turns R t' → ∀ rest', Stops P rest rest' → ∃ ts' f', Alike P ts ts' ∧ f' ≠ .nesting ∧
      derivedTable s (innerIn s (d + m)) ts' = .error f' ∧
      joinedTable s (innerIn s (d + m)) (table s (innerIn s (d + m))) ts' = .ok (t', rest') ∧
      Opened s m ts ts' rest := by
  have here := innerIn_local s (Nat.le_refl d)
  rw [joinedTable_eq] at hp
  obtain ⟨t₀, mid, hp, ends⟩ := bind_eq_ok_iff.mp hp
  obtain ⟨inside, rfl, depth, read⟩ :=
    (Local.parenthesised_ok_iff (tableJoins_local (b := false) here (tableIn_local here n))).mp hp
  have knownInside : ∀ t ∈ inside ++ .mark .rightParen :: mid, P t := fun t ht => known t (List.mem_cons_of_mem _ ht)
  have open_ : P (.mark .leftParen) := known _ List.mem_cons_self
  have close : P (.mark .rightParen) := knownInside _ (by simp)
  obtain ⟨⟨l, label⟩, left, more⟩ := joinedEnd_follows ends fun t ht => knownInside t (by simp [ht])
  -- no query stands between the parentheses, since a label could be read behind them
  have fails : FailsQuery s d inside f := by
    rcases reads_or_fails d depth with ⟨q, hq⟩ | ⟨g, hg⟩
    · rw [derivedTable, bind_of_ok (hq mid), bind_of_ok label] at tried
      cases tried
    · rw [derivedTable, bind_of_error (hg mid)] at tried
      exact Except.error.inj tried ▸ hg
  refine ⟨left, fun t' turns rest' hr => ?_⟩
  obtain ⟨mid', t₀', hm, ends', same⟩ := more t' turns rest' hr
  obtain ⟨inside', known', depth', alike, read'⟩ : ∃ inside', (∀ t ∈ inside', P t) ∧ depthAfter 0 inside' = some 0 ∧
      AlikeQuery s m inside inside' ∧ ∀ after', tableJoins s (innerIn s (d + m)) (table s (innerIn s (d + m)))
        (inside' ++ .mark .rightParen :: after') = .ok (t₀', .mark .rightParen :: after') := by
    rcases same with rfl | ⟨plain, turns⟩
    · have deeper := innerIn_local s (Nat.le_add_right d m)
      have joins : Parser.Local 0 0 true (tableJoins s (innerIn s d) (table s (innerIn s d)))
          (tableJoins s (innerIn s (d + m)) (table s (innerIn s (d + m)))) :=
        tableJoins_local deeper (table_local deeper)
      have whole := Within.tableJoins (tableIn_within here n) _ _ read
      refine ⟨inside, fun t ht => knownInside t (by simp [ht]), depth, .refl depth, fun after' => ?_⟩
      have framed := joins.frame_end (.inl rfl : Hides (.mark .rightParen) after') whole
      exact (joins.deeper (by rw [framed]; rintro ⟨⟩)).trans framed
    · exact tableJoins_enclosed h spelled ih read depth knownInside plain turns
  obtain grave | ⟨⟨q, hq⟩, -⟩ | ⟨g, f', -, graver', -, fails'⟩ := alike d
  · exact absurd (Except.error.inj ((fails []).symm.trans (grave []))) graver
  · cases (hq []).symm.trans (fails [])
  have knownAfter : Known P mid (inside' ++ .mark .rightParen :: mid') := known_closed known' close hm.known
  refine ⟨.mark .leftParen :: inside' ++ .mark .rightParen :: mid', f', .mark open_ knownAfter, graver', ?_, ?_, ?_⟩
  · exact bind_of_error (fails' mid')
  · rw [joinedTable_eq]
    exact (bind_of_ok (Local.parenthesised_of_ok (read' mid'))).trans ends'
  · exact ⟨inside, inside', mid, mid', l, rfl, rfl, depth, depth', alike, hm.first, label⟩

theorem tableWith_opens (opens : ts.head? = some (.mark .leftParen)) :
    tableWith s inner tables ts = match derivedTable s inner ts with
      | .ok r => .ok r
      | .error .nesting => .error .nesting
      | .error _ => joinedTable s inner tables ts := by
  rw [tableWith, bind_of_ok peek_apply, opens, if_pos (beq_self_eq_true _)]
  refine (attempt_bind_apply (q := joinedTable s inner tables) (derivedTable s inner) ?_ ?_ ts).trans ?_
  · exact fun _ => rfl
  · rfl
  · rcases derivedTable s inner ts with (_ | _ | _) | _ <;> rfl

theorem tableWith_joined {f : SyntaxFault} (opens : ts.head? = some (.mark .leftParen))
    (tried : derivedTable s inner ts = .error f) (graver : f ≠ .nesting) :
    tableWith s inner tables ts = joinedTable s inner tables ts := by
  rw [tableWith_opens opens, tried]
  cases f with
  | nesting => exact absurd rfl graver
  | _ => rfl

theorem derivedTable_follows
    (h : ∀ e ≤ d, Follows P (Query.Turns R) (Stops P) (Alike P) (innerIn s e).query (innerIn s (e + m)).query)
    {t : Table}
    (hp : derivedTable s (innerIn s d) ts = .ok (t, rest)) (known : ∀ t ∈ ts, P t) :
    (∀ t ∈ rest, P t) ∧ ∀ t', t.Turns R t' → ∀ rest', Stops P rest rest' → ∃ ts', Alike P ts ts' ∧
      derivedTable s (innerIn s (d + m)) ts' = .ok (t', rest') ∧ Opened s m ts ts' rest := by
  have here := innerIn_local s (Nat.le_refl d)
  have named : Stays P (Stops P) (Stops P) (tableLabel s.trailingCommas) := tableLabel_stays _
  obtain ⟨q, mid, hq, hp⟩ := bind_eq_ok_iff.mp hp
  obtain ⟨l, left, hl, hp⟩ := bind_eq_ok_iff.mp hp
  obtain ⟨rfl, rfl⟩ := Prod.mk.inj (Except.ok.inj hp)
  obtain ⟨inside, rfl, depth, read⟩ := (Local.parenthesised_ok_iff here.query).mp hq
  have knownInside : ∀ t ∈ inside ++ .mark .rightParen :: mid, P t := fun t ht => known t (List.mem_cons_of_mem _ ht)
  have knownMid : ∀ t ∈ mid, P t := fun t ht => knownInside t (by simp [ht])
  refine ⟨(named hl knownMid).1, ?_⟩
  rintro _ (_ | turns) rest' hr
  obtain ⟨mid', hm, hl'⟩ := named.read hl knownMid rfl hr
  obtain ⟨inside', known', depth', alike, read'⟩ := exists_alikeQuery h read depth knownInside turns
  have knownAfter : Known P mid (inside' ++ .mark .rightParen :: mid') :=
    known_closed known' (knownInside _ (by simp)) hm.known
  refine ⟨.mark .leftParen :: inside' ++ .mark .rightParen :: mid',
    .mark (known _ List.mem_cons_self) knownAfter, ?_, ?_⟩
  · exact (bind_of_ok (read' mid')).trans ((bind_of_ok hl').trans rfl)
  · exact ⟨inside, inside', mid, mid', l, rfl, rfl, depth, depth', alike, hm.first, hl⟩

theorem tableIn_follows (h : ∀ e ≤ d, (innerIn s e).Follows s P R (innerIn s (e + m)))
    (spelled : ∀ t, P t → KeywordSpelled t) (n : Nat) : FollowsTable s P R m d (tableIn s (innerIn s d) n) := by
  have there := innerIn_local s (Nat.le_refl (d + m))
  induction n with
  | zero =>
    intro ts rest t hp
    cases hp
  | succ n ih =>
    intro ts rest t hp known
    rw [tableIn_succ] at hp
    rw [table_eq there]
    -- Behind a parenthesis a query is tried first, and joined tables only where that fails.
    by_cases opens : ts.head? = some (.mark .leftParen)
    · have opens' {ts'} (alike : Alike P ts ts') : ts'.head? = some (.mark .leftParen) := alike.first.trans opens
      cases tried : derivedTable s (innerIn s d) ts with
      | ok r =>
        rw [tableWith_opens opens, tried] at hp
        obtain rfl := Except.ok.inj hp
        obtain ⟨left, more⟩ := derivedTable_follows (fun e he => (h e he).query) tried known
        refine ⟨left, fun t' turns rest' hr => ?_⟩
        obtain ⟨ts', alike, again, opened⟩ := more t' turns rest' hr
        refine ⟨ts', alike, ?_, fun _ => opened⟩
        rw [tableWith_opens (opens' alike), again]
      | error f =>
        have graver : f ≠ .nesting := by
          rintro rfl
          rw [tableWith_opens opens, tried] at hp
          cases hp
        rw [tableWith_joined opens tried graver] at hp
        obtain ⟨left, more⟩ := joinedTable_follows (h d (Nat.le_refl d)) spelled ih tried graver hp known
        refine ⟨left, fun t' turns rest' hr => ?_⟩
        obtain ⟨ts', f', alike, graver', tried', again, opened⟩ := more t' turns rest' hr
        refine ⟨ts', alike, ?_, fun _ => opened⟩
        rw [tableWith_joined (opens' alike) tried' graver', again]
    · rw [tableWith_name opens] at hp
      have named : Stays P (Stops P) (Alike P) (do
          let name ← tableName s.grammar
          return .named name (← tableLabel s.trailingCommas) : Parser Table) :=
        Stays.bind ((tableName_stays s.grammar).mono_out fun _ _ => Stops.toAlike) fun _ =>
          Stays.bind (tableLabel_stays s.trailingCommas) fun _ => Stays.pure _
      refine ⟨(named hp known).1, fun t' turns rest' hr => ?_⟩
      obtain rfl : t' = t := by
        obtain ⟨name, mid, -, hp⟩ := bind_eq_ok_iff.mp hp
        obtain ⟨l, left, -, hp⟩ := bind_eq_ok_iff.mp hp
        obtain ⟨rfl, -⟩ := Prod.mk.inj (Except.ok.inj hp)
        cases turns
        rfl
      obtain ⟨ts', alike, again⟩ := named.read hp known rfl hr
      refine ⟨ts', alike, ?_, fun e => absurd e opens⟩
      rw [tableWith_name (alike.first ▸ opens), again]

variable (h : ∀ e ≤ d, (innerIn s e).Follows s P R (innerIn s (e + m))) (spelled : ∀ t, P t → KeywordSpelled t)

include h spelled

theorem table_follows :
    Follows P (Table.Turns R) (Stops P) (Alike P) (table s (innerIn s d)) (table s (innerIn s (d + m))) :=
  Tracks.get_bind fun ts _ _ hp known => (tableIn_follows h spelled (ts.length + 1)).follows hp known

theorem tableList_follows : Follows P (List.Forall₂ (TableJoins.Turns R)) (Stops P) (Alike P)
    (tableList s (innerIn s d)) (tableList s (innerIn s (d + m))) := by
  have here := innerIn_local s (Nat.le_refl d)
  have there := innerIn_local s (Nat.le_refl (d + m))
  refine commaSeparated_follows Stops.behind Alike.known (fun h _ ends => h.first ▸ ends)
    (tableJoins_local there (table_local there)) ?_
  exact tableJoins_follows (h d (Nat.le_refl d)) here (table_follows h spelled) (table_local here) (table_local there)

end DetectionPlan.Sql.Parser
