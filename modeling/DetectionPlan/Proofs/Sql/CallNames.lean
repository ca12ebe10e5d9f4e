/-
Where the names of calls come from: a call that a text is read to has for its name words and
strings that stand in the text (`parseExpr_calls`).
-/
import DetectionPlan.Proofs.Sql.Calls
import DetectionPlan.Proofs.Sql.Local.Query

namespace DetectionPlan.Sql

/-- Calls whose names are made of parts of some kind. -/
def CallsBy (W : Ident → Prop) (cs : List Call) : Prop := ∀ c ∈ cs, ∀ i ∈ c.name, W i

namespace CallsBy

variable {W : Ident → Prop} {cs ds : List Call}

theorem nil : CallsBy W [] := nofun

theorem append (h : CallsBy W cs) (h' : CallsBy W ds) : CallsBy W (cs ++ ds) :=
  List.forall_mem_append.mpr ⟨h, h'⟩

theorem call {name : List Ident} {arguments : Arguments} (h : ∀ i ∈ name, W i)
    (h' : CallsBy W arguments.calls) : CallsBy W (Call.calls ⟨name, arguments⟩) :=
  append h' (List.forall_mem_singleton.mpr h)

end CallsBy

namespace Parser

variable {α β : Type} {W : Ident → Prop} {P : α → Prop} {Q : β → Prop}

/-- Tokens that as parts of names are of some kind. -/
def PartsBy (W : Ident → Prop) (ts : List Token) : Prop := ∀ t ∈ ts, ∀ i, partOf? t = some i → W i

theorem PartsBy.of_cons {t : Token} {ts : List Token} (h : PartsBy W (t :: ts)) : PartsBy W ts :=
  fun u hu => h u (by simp [hu])

/-- A parser that answers something of a kind when the parts of names it has to read are of theirs. -/
abbrev Reads (W : Ident → Prop) (P : α → Prop) (p : Parser α) : Prop := Keeps (PartsBy W) P p

namespace Reads

/-- A parser takes tokens off the front. -/
theorem of_takes {p : Parser α} (h : ∀ {ts rest a}, p ts = .ok (a, rest) → rest <:+ ts) :
    Reads W (fun _ => True) p :=
  fun _ _ _ hp parts => ⟨trivial, fun t ht => parts t ((h hp).subset ht)⟩

theorem of_local {p p' : Parser α} {i o : Nat} {b : Bool} (h : Local i o b p p') :
    Reads W (fun _ => True) p :=
  of_takes fun hp => by
    obtain ⟨front, rfl, -⟩ := h.takes hp
    exact List.suffix_append ..

theorem skipMark {m : Mark} : Reads W (fun _ => True) (skipMark m) := by
  refine of_takes fun {ts rest found} hp => ?_
  by_cases hm : ts.head? = some (.mark m)
  · obtain ⟨more, rfl⟩ := List.head?_eq_some_iff.mp hm
    rw [skipMark_self] at hp
    obtain ⟨-, rfl⟩ := Prod.mk.inj (Except.ok.inj hp)
    exact List.suffix_cons ..
  · rw [skipMark_other hm] at hp
    obtain ⟨-, rfl⟩ := Prod.mk.inj (Except.ok.inj hp)
    exact List.suffix_rfl

theorem expectMark {m : Mark} : Reads W (fun _ => True) (expectMark m) :=
  of_takes fun hp => by
    rw [expectMark_ok_iff.mp hp]
    exact List.suffix_cons ..

theorem skipWord {k : Keyword} : Reads W (fun _ => True) (skipWord k) := of_local (Local.skipWord_local (i := 0))

theorem expectWord {k : Keyword} : Reads W (fun _ => True) (expectWord k) :=
  of_local (Local.expectWord (i := 0) (b := true))

theorem skipWords {k l : Keyword} (hl : l ≠ .AND) : Reads W (fun _ => True) (skipWords k l) :=
  of_local (skipWords_local (i := 0) hl)

theorem peek : Reads W (fun _ => True) peek :=
  of_takes fun hp => (Prod.mk.inj (Except.ok.inj hp)).2 ▸ List.suffix_rfl

theorem peekWord : Reads W (fun _ => True) peekWord :=
  of_takes fun hp => (Prod.mk.inj (Except.ok.inj (peekWord_apply.symm.trans hp))).2 ▸ List.suffix_rfl

theorem atQuery : Reads W (fun _ => True) atQuery := peekWord.bind fun _ _ => .pure trivial

/-- A token that is taken may be part of a name. -/
theorem take : Reads W (fun t => ∀ i, partOf? t = some i → W i) take := by
  intro ts rest t hp parts
  cases ts with
  | nil => cases hp
  | cons u ts =>
    obtain ⟨rfl, rfl⟩ := Prod.mk.inj (Except.ok.inj hp)
    exact ⟨parts u (by simp), parts.of_cons⟩

theorem discard_take : Reads W (fun _ => True) (discard Parser.take) := take.map fun _ _ => trivial

theorem parenthesised {p : Parser α} (h : Reads W P p) : Reads W P (parenthesised p) :=
  expectMark.bind fun _ _ => h.bind fun _ ha => expectMark.bind fun _ _ => .pure ha

theorem after {k : Keyword} {p : Parser α} (h : Reads W P p) : Reads W (fun a => ∀ b ∈ a, P b) (after k p) :=
  skipWord.bind fun _ _ => .ite (h.bind fun _ ha => .pure (by simpa using ha)) (.pure nofun)

theorem attempt {p : Parser α} (h : Reads W P p) : Reads W (fun a => ∀ b ∈ a, P b) (attempt p) := by
  intro ts rest a hp parts
  unfold Parser.attempt at hp
  split at hp
  next b rest' read =>
    obtain ⟨rfl, rfl⟩ := Prod.mk.inj (Except.ok.inj hp)
    exact ⟨by simpa using (h read parts).1, (h read parts).2⟩
  · cases hp
  · obtain ⟨rfl, rfl⟩ := Prod.mk.inj (Except.ok.inj hp)
    exact ⟨nofun, parts⟩

theorem endsList {trailing : Bool} : Reads W (fun _ => True) (endsList trailing) :=
  of_local (endsList_local (i := 0) trailing)

theorem commaSeparated {trailing : Bool} {item : Parser α} (h : Reads W P item) :
    Reads W (fun as => ∀ a ∈ as, P a) (commaSeparated trailing item) := by
  have some (n : Nat) : Reads W (fun as => ∀ a ∈ as, P a) (commaSeparatedIn trailing item n) := by
    induction n with
    | zero => exact .throw _
    | succ n ih =>
      refine h.bind fun a ha => endsList.bind fun _ _ => .ite (.pure (by simpa using ha)) ?_
      exact ih.bind fun as has => .pure (List.forall_mem_cons.mpr ⟨ha, has⟩)
  exact .get_bind fun _ => some _

/-- The parts of a name are tokens, each after a point. -/
theorem nameTail (star : Bool) : Reads W (fun r => ∀ i ∈ r.1, W i) (nameTail star) := by
  have parts (n : Nat) : Reads W (fun r => ∀ i ∈ r.1, W i) (nameParts star n) := by
    induction n with
    | zero => exact .pure nofun
    | succ n ih =>
      refine skipMark.bind fun _ _ => .ite (take.bind fun t ht => ?_) (.pure nofun)
      split
      next i part => exact ih.bind fun r hr => .pure (List.forall_mem_cons.mpr ⟨ht i part, hr⟩)
      · exact .ite (.pure nofun) (.throw _)
  intro ts rest r hr
  rw [← nameParts_eq star (Nat.le_refl _)] at hr
  exact parts _ hr

end Reads

/-! ## Expressions -/

/-- Parsers for what nests that make no names of calls themselves. -/
structure Inner.Reads (W : Ident → Prop) (inner : Inner) : Prop where
  expr (power : Nat) : Parser.Reads W (CallsBy W ·.calls) (inner.expr power)
  query : Parser.Reads W (CallsBy W ·.calls) inner.query

variable {s : ParserSettings} {inner : Inner}

theorem exprCalls_by {es : List Expr} (h : ∀ e ∈ es, CallsBy W e.calls) : CallsBy W (exprCalls es) := by
  induction es with
  | nil => exact .nil
  | cons e es ih => exact (h e (by simp)).append (ih fun e he => h e (by simp [he]))

theorem optionCalls_by {o : Option Expr} (h : ∀ e ∈ o, CallsBy W e.calls) : CallsBy W (optionCalls o) := by
  cases o with
  | none => exact .nil
  | some e => exact h e rfl

theorem starOrExpr_reads (h : inner.Reads W) : Reads W (CallsBy W ·.calls) (starOrExpr inner) := by
  intro ts rest e hp parts
  by_cases star : ts.head? = some (.mark .star)
  · obtain ⟨more, rfl⟩ := List.head?_eq_some_iff.mp star
    obtain ⟨rfl, rfl⟩ := Prod.mk.inj (Except.ok.inj ((starOrExpr_star inner more).symm.trans hp))
    exact ⟨.nil, parts.of_cons⟩
  · cases name : starName? ts with
    | none => exact h.expr 0 (starOrExpr_plain inner star name ▸ hp) parts
    | some name' =>
      rw [starOrExpr_name inner name] at hp
      obtain ⟨t, more, rfl, -⟩ := starName?_of_some name
      split at hp
      next tail =>
        obtain ⟨rfl, rfl⟩ := Prod.mk.inj (Except.ok.inj hp)
        exact ⟨.nil, (Reads.nameTail true tail parts.of_cons).2⟩
      · exact h.expr 0 hp parts
      · cases hp

theorem argument_reads (h : inner.Reads W) : Reads W (CallsBy W ·.calls) (argument s inner) := by
  refine (Reads.of_local ((argumentName_readsPair s).local (i := 0))).bind fun found _ => ?_
  cases found with
  | none => exact (starOrExpr_reads h).bind fun _ he => .pure he
  | some r => exact (starOrExpr_reads h).bind fun _ he => .pure he

theorem argumentCalls_by {as : List Argument} (h : ∀ a ∈ as, CallsBy W a.calls) :
    CallsBy W (argumentCalls as) := by
  induction as with
  | nil => exact .nil
  | cons a as ih => exact (h a (by simp)).append (ih fun a ha => h a (by simp [ha]))

theorem argumentList_reads (h : inner.Reads W) : Reads W (CallsBy W ·.calls) (argumentList s inner) := by
  refine Reads.skipMark.bind fun _ _ => .ite (.pure .nil) ?_
  refine (Reads.of_local (quantifier_local (i := 0))).bind fun _ _ => ?_
  refine (Reads.commaSeparated (argument_reads h)).bind fun _ ha => Reads.expectMark.bind fun _ _ => ?_
  exact .pure (argumentCalls_by ha)

theorem arguments_reads (h : inner.Reads W) : Reads W (CallsBy W ·.calls) (arguments s inner) := by
  refine Reads.atQuery.bind fun _ _ => .ite ?_ (argumentList_reads h)
  exact h.query.bind fun _ hq => Reads.expectMark.bind fun _ _ => .pure hq

theorem nameOrCall_reads (h : inner.Reads W) {first : Ident} (hf : W first) :
    Reads W (CallsBy W ·.calls) (nameOrCall s inner first) := by
  rw [nameOrCall_eq]
  refine (Reads.nameTail _).bind fun r hr => .ite (.pure .nil) ?_
  refine Reads.skipMark.bind fun _ _ => .ite ?_ (.pure .nil)
  exact (arguments_reads h).bind fun _ ha => .pure (.call (List.forall_mem_cons.mpr ⟨hf, hr⟩) ha)

theorem wordCall_reads (h : inner.Reads W) {name : Ident} (hn : W name) :
    Reads W (CallsBy W ·.calls) (wordCall s inner name) := by
  have only : ∀ i ∈ [name], W i := by simpa using hn
  refine Reads.skipMark.bind fun _ _ => .ite ?_ (.pure (.call only .nil))
  exact (argumentList_reads h).bind fun _ ha => .pure (.call only ha)

theorem group_reads (h : inner.Reads W) : Reads W (CallsBy W ·.calls) (group s inner) := by
  rw [group_eq]
  have items : Reads W (CallsBy W ·.calls) (groupItems s inner) := by
    refine Reads.atQuery.bind fun _ _ => .ite (h.query.bind fun _ hq => .pure hq) ?_
    refine (Reads.commaSeparated (h.expr 0)).bind fun es hes => ?_
    split
    next e => exact .pure (show CallsBy W e.calls from hes e (by simp))
    · exact .pure (exprCalls_by hes)
  exact items.bind fun _ he => Reads.expectMark.bind fun _ _ => .pure he

theorem branchesIn_reads (h : inner.Reads W) (n : Nat) :
    Reads W (fun bs => CallsBy W (conditionCalls bs) ∧ CallsBy W (resultCalls bs)) (branchesIn inner n) := by
  induction n with
  | zero => exact .throw _
  | succ n ih =>
    refine (h.expr 0).bind fun _ hc => Reads.expectWord.bind fun _ _ => (h.expr 0).bind fun _ hr => ?_
    refine Reads.skipWord.bind fun _ _ => .ite (ih.bind fun _ hb => .pure ?_) (.pure ?_)
    · exact ⟨hc.append hb.1, hr.append hb.2⟩
    · exact ⟨hc.append .nil, hr.append .nil⟩

theorem caseExpr_reads (h : inner.Reads W) : Reads W (CallsBy W ·.calls) (caseExpr inner) := by
  have branches {operand : Option Expr} (ho : CallsBy W (optionCalls operand)) :
      Reads W (CallsBy W ·.calls) (caseBranches inner operand) := by
    refine Keeps.bind (Keeps.get_bind fun _ => branchesIn_reads h _) fun _ hb => ?_
    refine (Reads.after (h.expr 0)).bind fun _ he => Reads.expectWord.bind fun _ _ => .pure ?_
    exact ((ho.append hb.1).append hb.2).append (optionCalls_by he)
  refine Reads.skipWord.bind fun _ _ => .ite (branches .nil) ?_
  exact (h.expr 0).bind fun _ he => Reads.expectWord.bind fun _ _ => branches he

theorem castExpr_reads (h : inner.Reads W) (style : CastStyle) :
    Reads W (CallsBy W ·.calls) (castExpr inner style) :=
  .parenthesised ((h.expr 0).bind fun _ he => Reads.expectWord.bind fun _ _ =>
    (Reads.of_local (dataType_local (b := true))).bind fun _ _ => .pure he)

theorem roundingExpr_reads (h : inner.Reads W) (upward : Bool) :
    Reads W (CallsBy W ·.calls) (roundingExpr inner upward) := by
  refine .parenthesised ((h.expr 0).bind fun _ he => Reads.skipMark.bind fun _ _ => .ite ?_ (.pure he))
  refine Reads.take.bind fun t _ => ?_
  split
  · exact .pure he
  · exact .throw _

theorem existsExpr_reads (h : inner.Reads W) (negated : Bool) :
    Reads W (CallsBy W ·.calls) (existsExpr inner negated) :=
  (Reads.parenthesised h.query).bind fun _ hq => .pure hq

theorem keywordExpr_reads (h : inner.Reads W) {name : Ident} (hn : W name) (k : Keyword) :
    Reads W (CallsBy W ·.calls) (keywordExpr s inner name k) := by
  have only : ∀ i ∈ [name], W i := by simpa using hn
  unfold keywordExpr
  split
  iterate 3 exact .pure .nil
  iterate 5 exact wordCall_reads h hn
  iterate 4 exact .ite (.pure (.call only .nil)) (nameOrCall_reads h hn)
  · exact caseExpr_reads h
  iterate 3 exact castExpr_reads h _
  iterate 2 exact roundingExpr_reads h _
  · exact existsExpr_reads h false
  · exact Reads.skipWord.bind fun _ _ => .ite (existsExpr_reads h true)
      ((h.expr notPower).bind fun _ he => .pure he)
  · exact nameOrCall_reads h hn

theorem operand_reads (h : inner.Reads W) : Reads W (CallsBy W ·.calls) (operand s inner) := by
  refine Reads.take.bind fun t ht => ?_
  split
  · exact keywordExpr_reads h (ht _ rfl) _
  · exact nameOrCall_reads h (ht _ rfl)
  iterate 2 exact .pure .nil
  iterate 2 exact (h.expr timesPower).bind fun _ he => .pure he
  · exact group_reads h
  · exact .throw _

theorem testExpr_reads (h : inner.Reads W) {e : Expr} (he : CallsBy W e.calls) :
    Reads W (CallsBy W ·.calls) (testExpr inner e) := by
  refine Reads.skipWord.bind fun negated _ => ?_
  refine (Reads.skipWords (by decide)).bind fun _ _ => .ite ?_ ?_
  · exact (h.expr 0).bind fun _ hr => .pure (he.append hr)
  · have finish (what : TruthTest) : Reads W (CallsBy W ·.calls) (testExpr.finish e negated what) :=
      Reads.discard_take.bind fun _ _ => .pure he
    refine Reads.peekWord.bind fun k _ => ?_
    split
    iterate 4 exact finish _
    exact .throw _

theorem inExpr_reads (h : inner.Reads W) {e : Expr} (he : CallsBy W e.calls) (negated : Bool) :
    Reads W (CallsBy W ·.calls) (inExpr s inner e negated) := by
  refine .parenthesised (Reads.atQuery.bind fun _ _ => .ite ?_ (Reads.peek.bind fun _ _ => .ite ?_ ?_))
  · exact h.query.bind fun _ hq => .pure (he.append hq)
  · exact .pure (he.append .nil)
  · exact (Reads.commaSeparated (h.expr 0)).bind fun _ hes => .pure (he.append (exprCalls_by hes))

theorem betweenExpr_reads (h : inner.Reads W) {e : Expr} (he : CallsBy W e.calls) (negated : Bool) :
    Reads W (CallsBy W ·.calls) (betweenExpr inner e negated) :=
  (h.expr rangePower).bind fun _ hl => Reads.expectWord.bind fun _ _ =>
    (h.expr rangePower).bind fun _ hh => .pure ((he.append hl).append hh)

theorem likeExpr_reads (h : inner.Reads W) {e : Expr} (he : CallsBy W e.calls) (negated caseless : Bool) :
    Reads W (CallsBy W ·.calls) (likeExpr inner e negated caseless) :=
  (h.expr likePower).bind fun _ hp =>
    (Reads.after (Reads.of_local (escapeText_local (b := true)))).bind fun _ _ => .pure (he.append hp)

theorem infixExpr_reads (h : inner.Reads W) {left : Expr} (hl : CallsBy W left.calls) :
    Reads W (CallsBy W ·.calls) (infixExpr s inner left) := by
  have operation (op : BinaryOp) (power : Nat) :
      Reads W (CallsBy W ·.calls) (do return Expr.binary left op (← inner.expr power)) :=
    (h.expr power).bind fun _ hr => .pure (hl.append hr)
  have negatable (negated : Bool) (t : Token) :
      Reads W (CallsBy W ·.calls) (infixExpr.negatable s inner left negated t) := by
    unfold infixExpr.negatable
    split
    · exact inExpr_reads h hl negated
    · exact betweenExpr_reads h hl negated
    · exact likeExpr_reads h hl negated false
    · exact likeExpr_reads h hl negated true
    · exact .throw _
  refine Reads.take.bind fun t _ => ?_
  split
  · exact (Reads.of_local (dataType_local (b := true))).bind fun _ _ => .pure hl
  · split
    · exact operation _ _
    · exact .throw _
  · exact testExpr_reads h hl
  · exact Reads.take.bind fun t _ => negatable true t
  · split
    · exact operation _ _
    · exact negatable false _
  · exact .throw _

theorem expression_reads (h : inner.Reads W) (power : Nat) :
    Reads W (CallsBy W ·.calls) (expression s inner power) := by
  have operators (n : Nat) {left : Expr} (hl : CallsBy W left.calls) :
      Reads W (CallsBy W ·.calls) (operatorsIn s inner power n left) := by
    induction n generalizing left with
    | zero => exact .pure hl
    | succ n ih => exact .get_bind fun _ => .ite ((infixExpr_reads h hl).bind fun _ he => ih he) (.pure hl)
  exact (operand_reads h).bind fun _ hl => .get_bind fun _ => operators _ hl

/-! ## Tables -/

theorem tableLabel_reads (trailing : Bool) : Reads W (fun _ => True) (tableLabel trailing) :=
  .of_local (tableLabel_local trailing)

theorem joinCondition_reads (h : inner.Reads W) : Reads W (CallsBy W ·.calls) (joinCondition s inner) := by
  refine Reads.skipWord.bind fun _ _ => .ite ((h.expr 0).bind fun _ he => .pure he) ?_
  refine Reads.skipWord.bind fun _ _ => .ite ?_ (.pure .nil)
  exact (Reads.of_local (.parenthesised (b := false) (commaSeparated_local ident_local))).bind fun _ _ => .pure .nil

theorem join_reads (h : inner.Reads W) {table : Parser Table} (ht : Reads W (CallsBy W ·.calls) table) :
    Reads W (fun j => ∀ k ∈ j, CallsBy W k.calls) (join s inner table) := by
  refine Reads.skipWord.bind fun _ _ => (Reads.of_local joinKind_local).bind fun kind _ => ?_
  split
  · exact .ite (.throw _) (.pure nofun)
  · refine .ite (.throw _) (ht.bind fun _ ht => .pure ?_)
    rintro _ ⟨⟩
    exact ht.append .nil
  · refine ht.bind fun _ ht => .ite (.pure ?_) ((joinCondition_reads h).bind fun _ hc => .pure ?_)
    · rintro _ ⟨⟩
      exact ht.append .nil
    · rintro _ ⟨⟩
      exact ht.append hc

theorem tableJoins_reads (h : inner.Reads W) {table : Parser Table} (ht : Reads W (CallsBy W ·.calls) table) :
    Reads W (CallsBy W ·.calls) (tableJoins s inner table) := by
  have joins (n : Nat) : Reads W (fun js => CallsBy W (joinCalls js)) (joinsIn s inner table n) := by
    induction n with
    | zero => exact .pure .nil
    | succ n ih =>
      refine (join_reads h ht).bind fun found hf => ?_
      split
      next j => exact ih.bind fun _ hj => .pure ((hf j rfl).append hj)
      · exact .pure .nil
  exact ht.bind fun _ ht => .get_bind fun _ => (joins _).bind fun _ hj => .pure (ht.append hj)

theorem derivedTable_reads (h : inner.Reads W) : Reads W (CallsBy W ·.calls) (derivedTable s inner) :=
  (Reads.parenthesised h.query).bind fun _ hq => (tableLabel_reads _).bind fun _ _ => .pure hq

theorem loneTable_reads {t : Table} (ht : CallsBy W t.calls) : Reads W (CallsBy W ·.calls) (loneTable s t) := by
  refine (tableLabel_reads _).bind fun outside _ => ?_
  split
  iterate 3 exact .pure ht
  exact .throw _

theorem joinedTable_reads (h : inner.Reads W) {table : Parser Table} (ht : Reads W (CallsBy W ·.calls) table) :
    Reads W (CallsBy W ·.calls) (joinedTable s inner table) := by
  refine (Reads.parenthesised (tableJoins_reads h ht)).bind fun t ht => ?_
  split
  · exact (tableLabel_reads _).bind fun _ _ => .pure ht
  next first => exact .ite (loneTable_reads fun c hc => ht c (List.mem_append_left _ hc)) (.throw _)
  · exact (tableLabel_reads _).bind fun _ _ => .pure ht

theorem table_reads (h : inner.Reads W) : Reads W (CallsBy W ·.calls) (table s inner) := by
  have some (n : Nat) : Reads W (CallsBy W ·.calls) (tableIn s inner n) := by
    induction n with
    | zero => exact .throw _
    | succ n ih =>
      refine Reads.peek.bind fun _ _ => .ite ((Reads.attempt (derivedTable_reads h)).bind fun found hf => ?_) ?_
      · split
        next t => exact .pure (hf t rfl)
        · exact joinedTable_reads h ih
      · exact (Reads.of_local (tableName_local (i := 0) (b := false) _)).bind fun _ _ =>
          (tableLabel_reads _).bind fun _ _ => .pure .nil
  exact .get_bind fun _ => some _

theorem tableList_reads (h : inner.Reads W) : Reads W (fun ts => CallsBy W (tableCalls ts)) (tableList s inner) := by
  refine (Reads.commaSeparated (tableJoins_reads h (table_reads h))).mono fun ts hts => ?_
  induction ts with
  | nil => exact .nil
  | cons t ts ih => exact (hts t (by simp)).append (ih fun u hu => hts u (by simp [hu]))

/-! ## Queries -/

theorem selectItem_reads (h : inner.Reads W) : Reads W (CallsBy W ·.calls) (selectItem inner) := by
  have named (e : Expr) (he : CallsBy W e.calls) :
      Reads W (CallsBy W ·.calls) (do return SelectItem.mk e (← label Keyword.endsResult)) :=
    (Reads.of_local (label_local (i := 0) _)).bind fun _ _ => .pure he
  refine (starOrExpr_reads h).bind fun e he => ?_
  split
  · exact .pure .nil
  · exact .ite (.throw _) (named _ .nil)
  · exact named e he

theorem itemCalls_by {is : List SelectItem} (h : ∀ i ∈ is, CallsBy W i.calls) : CallsBy W (itemCalls is) := by
  induction is with
  | nil => exact .nil
  | cons i is ih => exact (h i (by simp)).append (ih fun j hj => h j (by simp [hj]))

theorem grouping_reads (h : inner.Reads W) : Reads W (CallsBy W ·.calls) (grouping s inner) := by
  refine (Reads.skipWords (by decide)).bind fun _ _ => .ite ?_ (.pure .nil)
  refine Reads.skipWord.bind fun _ _ => .ite (.pure .nil) ?_
  exact (Reads.commaSeparated (h.expr 0)).bind fun _ hes => .pure (exprCalls_by hes)

theorem select_reads (h : inner.Reads W) : Reads W (CallsBy W ·.calls) (select s inner) := by
  refine Reads.expectWord.bind fun _ _ => (Reads.of_local distinctRows_local).bind fun _ _ => ?_
  refine (Reads.commaSeparated (selectItem_reads h)).bind fun _ hi => ?_
  refine (Reads.after (tableList_reads h)).bind fun ts ht => (Reads.after (h.expr 0)).bind fun _ hf => ?_
  refine (grouping_reads h).bind fun _ hg => (Reads.after (h.expr 0)).bind fun _ hh => .pure ?_
  have tables : CallsBy W (tableCalls (ts.getD [])) := by
    cases ts with
    | none => exact .nil
    | some ts => exact ht ts rfl
  exact ((((itemCalls_by hi).append tables).append (optionCalls_by hf)).append hg).append (optionCalls_by hh)

theorem row_reads (h : inner.Reads W) : Reads W (fun es => CallsBy W (exprCalls es)) (row s inner) := by
  refine Reads.expectMark.bind fun _ _ => Reads.peek.bind fun _ _ => .ite ?_ ?_
  · exact Reads.expectMark.bind fun _ _ => .pure .nil
  · exact (Reads.commaSeparated (h.expr 0)).bind fun _ hes => Reads.expectMark.bind fun _ _ =>
      .pure (exprCalls_by hes)

theorem valueRows_reads (h : inner.Reads W) : Reads W (CallsBy W ·.calls) (valueRows s inner) := by
  have marked : Reads W (fun r => CallsBy W (exprCalls r.2)) (do
      let marked ← skipWord .ROW
      return (marked, ← row s inner)) :=
    Reads.skipWord.bind fun _ _ => (row_reads h).bind fun _ hr => .pure hr
  refine (Reads.commaSeparated marked).bind fun rows hr => .pure ?_
  show CallsBy W (rowCalls (rows.map (·.2)))
  induction rows with
  | nil => exact .nil
  | cons r rows ih => exact (hr r (by simp)).append (ih fun q hq => hr q (by simp [hq]))

theorem plainBody_reads (h : inner.Reads W) : Reads W (CallsBy W ·.calls) (plainBody s inner) := by
  refine Reads.peekWord.bind fun k _ => ?_
  split
  · exact (select_reads h).bind fun _ hs => .pure hs
  · exact Reads.discard_take.bind fun _ _ => valueRows_reads h
  · exact (Reads.parenthesised h.query).bind fun _ hq => .pure hq

theorem combine_reads (ops : List (Keyword × SetOp)) {operand : Parser Body}
    (h : Reads W (CallsBy W ·.calls) operand) : Reads W (CallsBy W ·.calls) (combine ops operand) := by
  have more (n : Nat) {left : Body} (hl : CallsBy W left.calls) :
      Reads W (CallsBy W ·.calls) (combineIn ops operand n left) := by
    induction n generalizing left with
    | zero => exact .pure hl
    | succ n ih =>
      refine (Reads.of_local (setOp_local ops)).bind fun found _ => ?_
      split
      · exact h.bind fun _ hr => ih (hl.append hr)
      · exact .pure hl
  exact h.bind fun _ hl => .get_bind fun _ => more _ hl

theorem body_reads (h : inner.Reads W) : Reads W (CallsBy W ·.calls) (body s inner) :=
  combine_reads _ (combine_reads _ (plainBody_reads h))

theorem namedQuery_reads (h : inner.Reads W) : Reads W (CallsBy W ·.calls) (namedQuery s inner) :=
  (Reads.of_local (ident_local (i := 0) (b := false))).bind fun _ _ =>
    (Reads.of_local (columnNames_local _)).bind fun _ _ => Reads.expectWord.bind fun _ _ =>
    (Reads.parenthesised h.query).bind fun _ hq => .pure hq

theorem namedCalls_by {ns : List NamedQuery} (h : ∀ n ∈ ns, CallsBy W n.calls) : CallsBy W (namedCalls ns) := by
  induction ns with
  | nil => exact .nil
  | cons n ns ih => exact (h n (by simp)).append (ih fun m hm => h m (by simp [hm]))

theorem orderItem_reads (h : inner.Reads W) : Reads W (CallsBy W ·.calls) (orderItem inner) :=
  (h.expr 0).bind fun _ he => (Reads.of_local (Local.oneOf (i := 0) _)).bind fun _ _ =>
    (Reads.of_local nullPlace_local).bind fun _ _ => .pure he

theorem orderCalls_by {os : List OrderItem} (h : ∀ o ∈ os, CallsBy W o.calls) : CallsBy W (orderCalls os) := by
  induction os with
  | nil => exact .nil
  | cons o os ih => exact (h o (by simp)).append (ih fun p hp => h p (by simp [hp]))

/-- Bounds whose calls have names of some kind. -/
def Bounds.CallsBy (W : Ident → Prop) (b : Bounds) : Prop :=
  Sql.CallsBy W (optionCalls b.limit) ∧ Sql.CallsBy W (optionCalls b.offset)

theorem bound_reads (h : inner.Reads W) {b : Bounds} (hb : b.CallsBy W) :
    Reads W (Bounds.CallsBy W) (bound s inner b) := by
  unfold bound
  extract_lets b ends comma offset
  have comma_reads {b : Bounds} (hb : b.CallsBy W) : Reads W (Bounds.CallsBy W) (comma () b) := by
    refine .ite (Reads.skipMark.bind fun _ _ => .ite ?_ (.pure hb)) (.pure hb)
    exact (h.expr 0).bind fun _ he => .pure ⟨he, hb.1⟩
  have offset_reads {b : Bounds} (hb : b.CallsBy W) : Reads W (Bounds.CallsBy W) (offset () b) := by
    refine .ite (Reads.skipWord.bind fun _ _ => .ite ?_ (comma_reads hb)) (comma_reads hb)
    exact (h.expr 0).bind fun _ he => (Reads.of_local (Local.oneOf (i := 0) _)).bind fun _ _ =>
      comma_reads ⟨hb.1, he⟩
  refine .ite (Reads.skipWord.bind fun _ _ => .ite ?_ (offset_reads hb)) (offset_reads hb)
  refine Reads.skipWord.bind fun _ _ => .ite (offset_reads hb) ?_
  exact (h.expr 0).bind fun _ he => offset_reads ⟨he, hb.2⟩

theorem queryText_reads (h : inner.Reads W) : Reads W (CallsBy W ·.calls) (queryText s inner) := by
  have head : Reads W (fun r => CallsBy W (namedCalls r.2)) (queryHead s inner) := by
    refine Reads.skipWord.bind fun _ _ => .ite (Reads.skipWord.bind fun _ _ => ?_) (.pure .nil)
    exact (Reads.commaSeparated (namedQuery_reads h)).bind fun _ hn => .pure (namedCalls_by hn)
  have order : Reads W (fun os => CallsBy W (orderCalls os)) (orders s inner) := by
    refine (Reads.skipWords (by decide)).bind fun _ _ => .ite ?_ (.pure .nil)
    exact (Reads.commaSeparated (orderItem_reads h)).mono fun _ ho => orderCalls_by ho
  have tail {r : Bool × List NamedQuery} (hn : CallsBy W (namedCalls r.2)) :
      Reads W (fun q => ∀ b : Body, CallsBy W b.calls → CallsBy W (q b).calls) (queryEnd s inner r) := by
    refine order.bind fun _ ho => (bound_reads h (b := {}) ⟨.nil, .nil⟩).bind fun _ hl => ?_
    refine (bound_reads h hl).bind fun _ hl => (Reads.of_local settings_local).bind fun _ _ => .pure ?_
    exact fun b hb => (((hn.append hb).append ho).append hl.1).append hl.2
  rw [queryText_eq]
  exact head.bind fun _ hn => (body_reads h).bind fun b hb => (tail hn).bind fun _ hq => .pure (hq b hb)

/-! ## Depth -/

theorem innerIn_reads (s : ParserSettings) (d : Nat) : (innerIn s d).Reads W := by
  induction d with
  | zero =>
    constructor
    · intro power ts rest e hp
      rw [innerIn_expr_zero] at hp
      cases hp
    · intro ts rest q hp
      rw [innerIn_query_zero] at hp
      cases hp
  | succ d ih =>
    constructor
    · intro power
      rw [innerIn_expr_succ]
      exact expression_reads ih power
    · rw [innerIn_query_succ]
      exact queryText_reads ih

end Parser

/-- **Where the names of calls come from.** The parts of the names of the calls in an expression
are tokens of the text it is read from. -/
theorem parseExpr_calls {s : ParserSettings} {text : String} {e : Expr} {ts : List Token} {W : Ident → Prop}
    (read : s.parseExpr text = .ok e) (scanned : Lexer.scan s text = .ok ts) (parts : Parser.PartsBy W ts) :
    CallsBy W e.calls := by
  obtain ⟨ts', scanned', read⟩ := Outcome.bind_ok_iff.mp read
  obtain rfl := Except.ok.inj (scanned.symm.trans scanned')
  obtain ⟨⟨e', rest⟩, expression, made⟩ := Outcome.bind_ok_iff.mp read
  cases rest with
  | nil =>
    obtain rfl := Except.ok.inj made
    exact ((Parser.innerIn_reads s _).expr 0 expression parts).1
  | cons t rest => cases made

end DetectionPlan.Sql
