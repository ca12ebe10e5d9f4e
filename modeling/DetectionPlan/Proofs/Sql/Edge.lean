/-
Where an expression ends. An expression that was read before some tokens is read
again before others, if these end it: they start with `AND` or close a
parenthesis, and bind no tighter than what is still open at its right edge.
-/
import DetectionPlan.Proofs.Sql.Local.Query

namespace DetectionPlan.Sql

/-! ## The right edge of an expression -/

/-- The power of an operator before its operand. -/
def UnaryOp.power : UnaryOp → Nat
  | not => Parser.notPower
  | plus | minus => Parser.timesPower

/-- The power of an operator between its operands. -/
def BinaryOp.power : BinaryOp → Nat
  | or => 5
  | and => 10
  | xor => 24
  | eq | notEq | lt | ltEq | gt | gtEq => 20
  | plus | minus => 30
  | times | divide | modulo | concat => Parser.timesPower

/-- The least power with which something at the right edge of an expression is
read. What binds tighter than that goes on with the expression. -/
def Expr.edgePower : Expr → Nat
  | .unary op e => min op.power e.edgePower
  | .binary _ op right => min op.power right.edgePower
  | .distinct .. => 0
  | .between _ _ _ high => min Parser.rangePower high.edgePower
  | .like _ _ _ pattern none => min Parser.likePower pattern.edgePower
  | _ => 50

namespace Parser

/-- Tokens that end an expression: `AND`, or a parenthesis that closes. -/
def Ends (next : List Token) : Prop :=
  ∃ t rest, next = t :: rest ∧ (t = .mark .rightParen ∨ ∃ name, t = .word name (some .AND))

namespace Ends

variable {next : List Token}

theorem hides (h : Ends next) {m : Token} (point : m ≠ .mark .period) : Hides m next := by
  obtain ⟨t, rest, rfl, ht⟩ := h
  exact .inr ⟨point, t, rest, rfl, .inr ht⟩

theorem head_ne_mark (h : Ends next) {m : Mark} (hm : m ≠ .rightParen) :
    next.head? ≠ some (.mark m) := by
  obtain ⟨t, rest, rfl, rfl | ⟨name, rfl⟩⟩ := h
  · simpa using hm.symm
  · simp

theorem head_ne_word (h : Ends next) {k : Keyword} (hk : k ≠ .AND) (name : Ident) :
    next.head? ≠ some (.word name (some k)) := by
  obtain ⟨t, rest, rfl, rfl | ⟨name', rfl⟩⟩ := h
  · simp
  · simpa using fun _ => hk.symm

theorem nextPower_le (h : Ends next) : nextPower next ≤ 10 := by
  obtain ⟨t, rest, rfl, rfl | ⟨name, rfl⟩⟩ := h
  · exact Nat.zero_le _
  · exact Nat.le_refl _

end Ends

/-! ## Parsers up to their edge -/

/-- A parser answers the same before any tokens that end what it reads, when
they bind no tighter than `w` of its answer. -/
def Edge {α : Type} (w : α → Nat) (p : Parser α) : Prop :=
  ∀ (front : List Token) ⦃rest next : List Token⦄ ⦃a : α⦄, Ends next → nextPower next ≤ w a →
    p (front ++ rest) = .ok (a, rest) → p (front ++ next) = .ok (a, next)

namespace Edge

variable {α β : Type} {i j o : Nat} {b : Bool} {w : α → Nat} {w' : β → Nat}

theorem pure (a : α) : Edge w (Pure.pure a) := by
  intro front rest next a' _ _ hp
  obtain ⟨rfl, e⟩ := Prod.mk.inj (Except.ok.inj hp)
  obtain rfl : front = [] := by simpa using e
  rfl

/-- Nothing that ends an expression binds tighter than `AND`. -/
theorem any {p : Parser α} (h : Edge (fun _ => 10) p) : Edge w p :=
  fun front _ _ _ ends _ hp => h front ends ends.nextPower_le hp

theorem fail : Edge w (Parser.fail : Parser α) := by
  intro _ _ _ _ _ _ hp
  cases hp

theorem ite {p q : Parser α} {P : Prop} [Decidable P] (hp : Edge w p) (hq : Edge w q) :
    Edge w (if P then p else q) := by
  split
  · exact hp
  · exact hq

/-- Of two parsers in a row the first answers the same before other tokens, if
the second takes some. -/
theorem bind_cases {p p' : Parser α} {f f' : α → Parser β} {front rest : List Token} {c : β}
    (lp : Local i j b p p') (lf : ∀ a, Local j o false (f a) (f' a))
    (h : (p >>= f) (front ++ rest) = .ok (c, rest)) :
    ∃ a first second, front = first ++ second ∧ f a (second ++ rest) = .ok (c, rest) ∧
      p (first ++ (second ++ rest)) = .ok (a, second ++ rest) ∧ ∀ next, Ends next → second ≠ [] →
        p (first ++ (second ++ next)) = .ok (a, second ++ next) := by
  obtain ⟨a, mid, ha, hc⟩ := bind_eq_ok_iff.mp h
  obtain ⟨first, split, -⟩ := lp.takes ha
  obtain ⟨second, rfl, chunk⟩ := (lf a).takes hc
  obtain rfl : front = first ++ second := by simpa [← List.append_assoc] using split
  rw [List.append_assoc] at ha
  refine ⟨a, first, second, rfl, hc, ha, fun next ends some => ?_⟩
  obtain ⟨left, m, rfl⟩ := (List.eq_nil_or_concat second).resolve_left some
  have point : m ≠ .mark .period := by simpa using chunk.last
  have again : p (first ++ left ++ m :: next) = .ok (a, left ++ m :: next) :=
    lp.frame (ends.hides point) (by simpa using ha)
  simpa using again

/-- The last parser may take nothing, if its answer then has the edge of the one before. -/
theorem bind {p p' : Parser α} {f f' : α → Parser β} (lp : Local i j b p p')
    (lf : ∀ a, Local j o false (f a) (f' a)) (hp : Edge w p) (hf : ∀ a, Edge w' (f a))
    (idle : ∀ {a c ts}, f a ts = .ok (c, ts) → w' c ≤ w a) : Edge w' (p >>= f) := by
  intro front rest next c ends binds h
  obtain ⟨a, first, second, rfl, hc, ha, again⟩ := bind_cases lp lf h
  rw [List.append_assoc]
  cases second with
  | nil =>
    rw [List.nil_append] at ha hc ⊢
    rw [bind_of_ok (hp first ends (Nat.le_trans binds (idle hc)) ha)]
    exact hf a [] ends binds hc
  | cons t second =>
    rw [bind_of_ok (again next ends nofun)]
    exact hf a (t :: second) ends binds hc

/-- The edge is that of the last parser when that takes a token. -/
theorem bind_last {p p' : Parser α} {f f' : α → Parser β} (lp : Local i j b p p')
    (lf : ∀ a, Local j o true (f a) (f' a)) (hf : ∀ a, Edge w' (f a)) : Edge w' (p >>= f) := by
  intro front rest next c ends binds h
  obtain ⟨a, first, second, rfl, hc, ha, again⟩ := bind_cases lp (fun a => (lf a).weaken) h
  have some : second ≠ [] := by
    rintro rfl
    exact absurd ((lf a).takes_lt hc) (Nat.lt_irrefl _)
  rw [List.append_assoc, bind_of_ok (again next ends some)]
  exact hf a second ends binds hc

theorem map {p : Parser α} (g : α → β) (hp : Edge w p) (h : ∀ a, w' (g a) ≤ w a) :
    Edge w' (p >>= fun a => Pure.pure (g a)) := by
  intro front rest next c ends binds hc
  obtain ⟨a, mid, ha, hc⟩ := bind_eq_ok_iff.mp hc
  obtain ⟨rfl, rfl⟩ := Prod.mk.inj (Except.ok.inj hc)
  rw [bind_of_ok (hp front ends (Nat.le_trans binds (h a)) ha)]
  rfl

/-! ### By the first token -/

theorem take_bind {f : Token → Parser β} {q : Parser β} (whole : Local i o true (take >>= f) q)
    (hf : ∀ t, Edge w' (f t)) : Edge w' (take >>= f) := by
  intro front rest next c ends binds h
  match front with
  | [] => exact absurd (whole.takes_lt h) (Nat.lt_irrefl _)
  | t :: front =>
    rw [List.cons_append, bind_of_ok (take_cons t)] at h ⊢
    exact hf t front ends binds h

theorem skipMark_cons {m : Mark} {f : Bool → Parser β} (hf : ∀ found, Edge w' (f found)) {t : Token}
    {front rest next : List Token} {c : β} (ends : Ends next) (binds : nextPower next ≤ w' c)
    (h : (skipMark m >>= f) (t :: front ++ rest) = .ok (c, rest)) :
    (skipMark m >>= f) (t :: front ++ next) = .ok (c, next) := by
  by_cases first : t = .mark m
  · subst first
    rw [List.cons_append, bind_of_ok (skipMark_self m)] at h ⊢
    exact hf true front ends binds h
  · have other (rest : List Token) : skipMark m (t :: front ++ rest) = .ok (false, t :: front ++ rest) :=
      skipMark_other (by simpa using first)
    rw [bind_of_ok (other _)] at h ⊢
    exact hf false (t :: front) ends binds h

theorem skipMark_strict {m : Mark} {f : Bool → Parser β} {q : Parser β}
    (whole : Local i o true (skipMark m >>= f) q) (hf : ∀ found, Edge w' (f found)) :
    Edge w' (skipMark m >>= f) := by
  intro front rest next c ends binds h
  match front with
  | [] => exact absurd (whole.takes_lt h) (Nat.lt_irrefl _)
  | t :: front => exact skipMark_cons hf ends binds h

theorem skipMark_bind {m : Mark} {f : Bool → Parser β} {q : Parser β} (hm : m ≠ .rightParen)
    (yes : Local i o b (f true) q) (hf : ∀ found, Edge w' (f found)) : Edge w' (skipMark m >>= f) := by
  intro front rest next c ends binds h
  match front with
  | [] =>
    by_cases first : rest.head? = some (.mark m)
    · obtain ⟨more, rfl⟩ := List.head?_eq_some_iff.mp first
      rw [List.nil_append, bind_of_ok (skipMark_self m)] at h
      exact absurd (yes.takes_length h) (by simp)
    · rw [List.nil_append, bind_of_ok (skipMark_other first)] at h
      rw [List.nil_append, bind_of_ok (skipMark_other (ends.head_ne_mark hm))]
      exact hf false [] ends binds h
  | t :: front => exact skipMark_cons hf ends binds h

theorem peek_ite {m : Mark} {p p' q : Parser β} (hm : m ≠ .rightParen) (lp : Local i o true p p')
    (hp : Edge w' p) (hq : Edge w' q) :
    Edge w' (do if (← peek) == some (.mark m) then p else q) := by
  intro front rest next c ends binds h
  rw [bind_of_ok peek_apply] at h ⊢
  match front with
  | [] =>
    rw [List.nil_append] at h ⊢
    have other : (next.head? == some (.mark m)) = false := by simpa using ends.head_ne_mark hm
    rw [other]
    split at h
    · exact absurd (lp.takes_lt h) (Nat.lt_irrefl _)
    · exact hq [] ends binds h
  | t :: front =>
    simp only [List.cons_append, List.head?_cons] at h ⊢
    rw [← List.cons_append] at h ⊢
    exact ite hp hq (t :: front) ends binds h

theorem peekWord_bind {f : Option Keyword → Parser β} {q : Parser β}
    (whole : Local i o true (peekWord >>= f) q) (hf : ∀ k, Edge w' (f k)) :
    Edge w' (peekWord >>= f) := by
  intro front rest next c ends binds h
  match front with
  | [] => exact absurd (whole.takes_lt h) (Nat.lt_irrefl _)
  | t :: front =>
    rw [bind_of_ok peekWord_apply] at h ⊢
    exact hf _ (t :: front) ends binds h

theorem skipWord_bind {k : Keyword} {f : Bool → Parser β} {q : Parser β} (hk : k ≠ .AND)
    (yes : Local i o b (f true) q) (hf : ∀ found, Edge w' (f found)) : Edge w' (skipWord k >>= f) := by
  intro front rest next c ends binds h
  match front with
  | [] =>
    by_cases first : ∃ name, rest.head? = some (.word name (some k))
    · obtain ⟨name, first⟩ := first
      obtain ⟨more, rfl⟩ := List.head?_eq_some_iff.mp first
      rw [List.nil_append, bind_of_ok (skipWord_self name k)] at h
      exact absurd (yes.takes_length h) (by simp)
    · rw [List.nil_append, bind_of_ok (skipWord_other (not_exists.mp first))] at h
      rw [List.nil_append, bind_of_ok (skipWord_other (ends.head_ne_word hk))]
      exact hf false [] ends binds h
  | t :: front =>
    by_cases first : ∃ name, t = .word name (some k)
    · obtain ⟨name, rfl⟩ := first
      rw [List.cons_append, bind_of_ok (skipWord_self name k)] at h ⊢
      exact hf true front ends binds h
    · have other (rest : List Token) : skipWord k (t :: front ++ rest) = .ok (false, t :: front ++ rest) :=
        skipWord_other fun name e => first ⟨name, Option.some.inj e⟩
      rw [bind_of_ok (other _)] at h ⊢
      exact hf false (t :: front) ends binds h

theorem expectMark {m : Mark} {w : Unit → Nat} : Edge w (Parser.expectMark m) := by
  intro front rest next u _ _ h
  obtain rfl : front = [.mark m] := by
    have := expectMark_ok_iff.mp h
    rw [← List.singleton_append, List.append_left_inj] at this
    exact this
  exact expectMark_self m

theorem parenthesised {p p' : Parser α} (h : Local 0 0 false p p') : Edge w (parenthesised p) := by
  have closes (a : α) : Edge w (do Parser.expectMark .rightParen; return a) :=
    map (fun _ => a) (expectMark (w := fun _ => w a)) fun _ => Nat.le_refl _
  have closing (a : α) : Local 1 0 true (do Parser.expectMark .rightParen; return a)
      (do Parser.expectMark .rightParen; return a) := Local.closes.bind fun _ => .pure a
  have inside : Edge w (do let a ← p; Parser.expectMark .rightParen; return a) :=
    bind_last h.lift closing closes
  have local_ : Local 1 0 true (do let a ← p; Parser.expectMark .rightParen; return a)
      (do let a ← p'; Parser.expectMark .rightParen; return a) := h.lift.bind_strict closing
  exact bind_last (Local.opens (b := true)) (fun _ => local_) fun _ => inside

end Edge

/-! ## Expressions up to their edge -/

/-- Behind a point a name goes on. -/
theorem nameTail_point_lt {star : Bool} {ts rest : List Token} {r : List Ident × Bool}
    (h : nameTail star (.mark .period :: ts) = .ok (r, rest)) : rest.length < ts.length := by
  cases ts with
  | nil =>
    rw [nameTail] at h
    · cases h
    all_goals simp
  | cons t ts =>
    rw [nameTail_point] at h
    split at h
    · obtain ⟨⟨r', rest'⟩, hr, e⟩ := Outcome.map_ok_iff.mp h
      obtain ⟨-, rfl⟩ := Prod.mk.inj e
      exact Nat.lt_succ_of_le ((nameTail_local (i := 0) star).takes_length hr)
    · split at h
      · obtain ⟨-, rfl⟩ := Prod.mk.inj (Except.ok.inj h)
        exact Nat.lt_succ_self _
      · cases h

theorem nameTail_edge (star : Bool) {w : List Ident × Bool → Nat} : Edge w (nameTail star)
  | [], rest, next, r, ends, binds, h => by
    have first : rest.head? ≠ some (.mark .period) := by
      intro point
      obtain ⟨more, rfl⟩ := List.head?_eq_some_iff.mp point
      exact absurd (nameTail_point_lt h) (by simp)
    rw [List.nil_append, nameTail_other star first] at h
    obtain ⟨rfl, -⟩ := Prod.mk.inj (Except.ok.inj h)
    exact nameTail_other star (ends.head_ne_mark nofun)
  | [t], rest, next, r, ends, binds, h => by
    by_cases point : t = .mark .period
    · subst point
      exact absurd (nameTail_point_lt h) (Nat.lt_irrefl _)
    · rw [nameTail_other star (by simpa using point)] at h
      have := congrArg (List.length ∘ Prod.snd) (Except.ok.inj h)
      simp at this
  | t :: u :: front, rest, next, r, ends, binds, h => by
    by_cases point : t = .mark .period
    · subst point
      simp only [List.cons_append, nameTail_point] at h ⊢
      cases part : partOf? u with
      | none =>
        rw [part] at h
        simp only at h ⊢
        split at h
        next all =>
          obtain ⟨rfl, e⟩ := Prod.mk.inj (Except.ok.inj h)
          obtain rfl : front = [] := by simpa using e
          rw [if_pos all]
          rfl
        · cases h
      | some name =>
        rw [part] at h
        obtain ⟨⟨r', rest'⟩, hr, e⟩ := Outcome.map_ok_iff.mp h
        obtain ⟨rfl, rfl⟩ := Prod.mk.inj e
        have again : nameTail star (front ++ next) = .ok (r', next) :=
          nameTail_edge star (w := fun _ => w (name :: r'.1, r'.2)) front ends binds hr
        simp only [again]
        rfl
    · rw [nameTail_other star (by simpa using point)] at h
      have := congrArg (List.length ∘ Prod.snd) (Except.ok.inj h)
      simp at this
      omega

variable {s : ParserSettings} {inner inner' : Inner}

/-- Expressions that nest one level deeper answer the same up to their edge. -/
def Inner.Edge (inner : Inner) : Prop :=
  ∀ power, Parser.Edge (fun e => min power e.edgePower) (inner.expr power)

theorem ident_edge {w : Ident → Nat} : Edge w ident := by
  refine .take_bind (ident_local (i := 0)) fun t => ?_
  split <;> first | exact .pure _ | exact .fail

theorem typeArguments_edge {w : List String → Nat} : Edge w typeArguments := by
  have typed : Local 0 0 true (parenthesised (commaSeparated false typeArgument))
      (parenthesised (commaSeparated false typeArgument)) :=
    .parenthesised (commaSeparated_local typeArgument_local)
  exact .peek_ite nofun typed (.parenthesised (commaSeparated_local typeArgument_local)) (.pure _)

theorem dataType_edge {w : DataType → Nat} : Edge w dataType := by
  rw [dataType_eq]
  have typed (name : Ident) : Edge (fun _ => 10) (do return typeNamed name (← typeArguments)) :=
    .map _ typeArguments_edge fun _ => Nat.le_refl 10
  exact .any (.bind (ident_local (b := false)) (fun name => typeArguments_local.bind fun _ => .pure _)
    ident_edge typed fun _ => Nat.le_refl 10)

theorem argumentList_edge (h : inner.Local inner') {w : Arguments → Nat} :
    Edge w (argumentList s inner) := by
  have closing (q : Option Quantifier) (items : List Argument) : Local 1 0 true
      (do expectMark .rightParen; return Arguments.list q items)
      (do expectMark .rightParen; return Arguments.list q items) := Local.closes.bind fun _ => .pure _
  have items : Local 1 1 true (commaSeparated s.trailingCommas (argument s inner))
      (commaSeparated s.trailingCommas (argument s inner')) := (commaSeparated_local (argument_local h)).lift
  refine .skipMark_strict (argumentList_local h) fun found => .ite (.pure _) ?_
  refine .bind_last quantifier_local (fun q => items.bind fun _ => (closing q _).weaken) fun q => ?_
  refine .bind_last items (closing q) fun items => ?_
  exact .map _ (.expectMark (w := fun _ => w (.list q items))) fun _ => Nat.le_refl _

theorem atQuery_local {i : Nat} : Local i i false atQuery atQuery := by
  have looked : Local i i false (atQuery >>= Pure.pure) (atQuery >>= Pure.pure) :=
    atQuery_bind fun found => .pure found
  rwa [bind_pure] at looked

theorem arguments_edge (h : inner.Local inner') {w : Arguments → Nat} :
    Edge w (arguments s inner) := by
  have closing (q : Query) : Local 1 0 true (do expectMark .rightParen; return Arguments.query q)
      (do expectMark .rightParen; return Arguments.query q) := Local.closes.bind fun _ => .pure _
  refine .bind_last atQuery_local (fun found => .ite (h.query.lift.bind fun q => (closing q).weaken)
    (argumentList_local h)) fun found => .ite ?_ (argumentList_edge h)
  refine .bind_last h.query.lift closing fun q => ?_
  exact .map _ (.expectMark (w := fun _ => w (.query q))) fun _ => Nat.le_refl _

theorem nameEnd_edge (h : inner.Local inner') (first : Ident) (r : List Ident × Bool)
    {w : Expr → Nat} : Edge w (nameEnd s inner first r) := by
  have called : Local 1 0 true (do return Expr.call ⟨first :: r.1, ← arguments s inner⟩)
      (do return Expr.call ⟨first :: r.1, ← arguments s inner'⟩) :=
    (arguments_local h).bind fun _ => .pure _
  have calls : Edge w (do return Expr.call ⟨first :: r.1, ← arguments s inner⟩) :=
    .map _ (arguments_edge h (w := fun a => w (.call ⟨first :: r.1, a⟩))) fun _ => Nat.le_refl _
  exact .ite (.pure _) (.skipMark_bind nofun called fun found => .ite calls (.pure _))

theorem nameOrCall_edge (h : inner.Local inner') (first : Ident) {w : Expr → Nat} :
    Edge w (nameOrCall s inner first) := by
  rw [nameOrCall_eq]
  exact .any (.bind (nameTail_local (i := 0) _) (nameEnd_local h first) (nameTail_edge _)
    (fun r => nameEnd_edge h first r) fun _ => Nat.le_refl 10)

theorem wordCall_edge (h : inner.Local inner') (name : Ident) {w : Expr → Nat} :
    Edge w (wordCall s inner name) := by
  have called : Local 1 0 true (do return Expr.call ⟨[name], ← argumentList s inner⟩)
      (do return Expr.call ⟨[name], ← argumentList s inner'⟩) :=
    (argumentList_local h).bind fun _ => .pure _
  have calls : Edge w (do return Expr.call ⟨[name], ← argumentList s inner⟩) :=
    .map _ (argumentList_edge h (w := fun a => w (.call ⟨[name], a⟩))) fun _ => Nat.le_refl _
  exact .skipMark_bind nofun called fun found => .ite calls (.pure _)

theorem group_edge (h : inner.Local inner') {w : Expr → Nat} : Edge w (group s inner) := by
  rw [group_eq]
  have closing (e : Expr) : Local 1 0 true (do expectMark .rightParen; return e)
      (do expectMark .rightParen; return e) := Local.closes.bind fun _ => .pure e
  refine .bind_last (groupItems_local h).lift closing fun e => ?_
  exact .map _ (.expectMark (w := fun _ => w e)) fun _ => Nat.le_refl _

theorem expectWord_edge {k : Keyword} {w : Unit → Nat} : Edge w (expectWord k) := by
  intro front rest next u _ _ h
  by_cases first : ∃ name more, front ++ rest = .word name (some k) :: more
  · obtain ⟨name, more, e⟩ := first
    rw [e, expectWord, bind_of_ok (skipWord_self name k)] at h
    obtain ⟨-, rfl⟩ := Prod.mk.inj (Except.ok.inj h)
    obtain rfl : front = [.word name (some k)] := by
      rwa [← List.singleton_append, List.append_left_inj] at e
    exact bind_of_ok (skipWord_self name k)
  · have other : skipWord k (front ++ rest) = .ok (false, front ++ rest) := by
      refine skipWord_other fun name e => first ?_
      obtain ⟨more, e⟩ := List.head?_eq_some_iff.mp e
      exact ⟨name, more, e⟩
    rw [expectWord, bind_of_ok other] at h
    cases h

theorem caseBranches_edge (h : inner.Local inner') (operand : Option Expr) {w : Expr → Nat} :
    Edge w (caseBranches inner operand) := by
  have otherwise : Local 0 0 false (after .ELSE (inner.expr 0)) (after .ELSE (inner'.expr 0)) :=
    .after (h.expr 0).weaken
  have last (branches : List (Expr × Expr)) (otherwise : Option Expr) : Local 0 0 true
      (do expectWord .END; return Expr.case operand branches otherwise)
      (do expectWord .END; return Expr.case operand branches otherwise) :=
    Local.expectWord.bind fun _ => .pure _
  refine .bind_last (branches_local (b := false) h) (fun _ => otherwise.bind_strict (last _)) fun branches => ?_
  refine .bind_last otherwise (last branches) fun otherwise => ?_
  exact .map _ (expectWord_edge (w := fun _ => w (.case operand branches otherwise))) fun _ => Nat.le_refl _

theorem caseExpr_edge (h : inner.Local inner') {w : Expr → Nat} : Edge w (caseExpr inner) := by
  have branches {b : Bool} (operand : Option Expr) : Local 0 0 b
      (do let operand ← Pure.pure operand; caseBranches inner operand)
      (do let operand ← Pure.pure operand; caseBranches inner' operand) :=
    (Local.pure operand).bind_strict fun _ => caseBranches_local h _
  have first (e : Expr) : Local 0 0 true
      (do expectWord .WHEN; let operand ← Pure.pure (some e); caseBranches inner operand)
      (do expectWord .WHEN; let operand ← Pure.pure (some e); caseBranches inner' operand) :=
    Local.expectWord.bind fun _ => branches _
  refine .bind_last Local.skipWord_local
    (fun found => .ite (branches none) ((h.expr 0).bind fun e => (first e).weaken)) ?_
  refine fun found => .ite (caseBranches_edge h none) ?_
  refine .bind_last (h.expr 0) first fun e => ?_
  exact .bind_last (Local.expectWord (b := true)) (fun _ => branches _) fun _ => caseBranches_edge h (some e)

theorem existsExpr_edge (h : inner.Local inner') (negated : Bool) {w : Expr → Nat} :
    Edge w (existsExpr inner negated) :=
  .map _ (.parenthesised (w := fun q => w (.exists negated q)) h.query.weaken) fun _ => Nat.le_refl _

theorem keywordExpr_edge (h : inner.Local inner') (he : inner.Edge) (name : Ident) (k : Keyword) :
    Edge Expr.edgePower (keywordExpr s inner name k) := by
  unfold keywordExpr
  split
  iterate 3 exact .pure _
  iterate 5 exact wordCall_edge h name
  iterate 4 exact .ite (.pure _) (nameOrCall_edge h name)
  · exact caseExpr_edge h
  iterate 3 exact .parenthesised (castItems_local h _)
  iterate 2 exact .parenthesised (roundingItems_local h _)
  · exact existsExpr_edge h false
  · have negated : Local 0 0 true (do return Expr.unary .not (← inner.expr notPower))
        (do return Expr.unary .not (← inner'.expr notPower)) := (h.expr notPower).bind fun _ => .pure _
    refine .bind_last Local.skipWord_local (fun found => .ite (existsExpr_local h true) negated) fun found => ?_
    exact .ite (existsExpr_edge h true) (.map _ (he notPower) fun e => Nat.le_refl _)
  · exact nameOrCall_edge h name

theorem operand_edge (h : inner.Local inner') (he : inner.Edge) :
    Edge Expr.edgePower (operand s inner) := by
  refine .take_bind (operand_local (b := true) h) fun t => ?_
  split
  · exact keywordExpr_edge h he _ _
  · exact nameOrCall_edge h _
  · exact .pure _
  · exact .pure _
  · exact .map _ (he timesPower) fun e => Nat.le_refl _
  · exact .map _ (he timesPower) fun e => Nat.le_refl _
  · exact group_edge h
  · exact .fail

theorem finish_edge (e : Expr) (negated : Bool) (what : TruthTest) {w : Expr → Nat} :
    Edge w (testExpr.finish e negated what) := by
  intro front rest next a _ _ h
  match front with
  | [] =>
    match rest with
    | [] => cases h
    | t :: rest =>
      have := congrArg (List.length ∘ Prod.snd) (Except.ok.inj h)
      simp at this
  | t :: front =>
    obtain ⟨rfl, e⟩ := Prod.mk.inj (Except.ok.inj h)
    obtain rfl : front = [] := by simpa using e
    rfl

theorem testExpr_edge (h : inner.Local inner') (he : inner.Edge) (e : Expr) :
    Edge Expr.edgePower (testExpr inner e) := by
  have distinct (negated : Bool) : Local 0 0 true (do return Expr.distinct e negated (← inner.expr 0))
      (do return Expr.distinct e negated (← inner'.expr 0)) := (h.expr 0).bind fun _ => .pure _
  have test (negated : Bool) := truthTest_local (b := true) e negated
  refine .bind_last Local.skipWord_local
    (fun negated => skipWords_ite nofun (distinct negated) (test negated)) fun negated => ?_
  refine .bind_last (skipWords_local nofun) (fun found => .ite (distinct negated) (test negated)) fun found => ?_
  refine .ite (.map _ (he 0) fun r => Nat.zero_le _) (.peekWord_bind (test negated) fun k => ?_)
  split <;> first | exact finish_edge _ _ _ | exact .fail

theorem betweenExpr_edge (h : inner.Local inner') (he : inner.Edge) (e : Expr) (negated : Bool) :
    Edge Expr.edgePower (betweenExpr inner e negated) := by
  have high (low : Expr) : Local 0 0 true (do return Expr.between e negated low (← inner.expr rangePower))
      (do return Expr.between e negated low (← inner'.expr rangePower)) :=
    (h.expr rangePower).bind fun _ => .pure _
  refine .bind_last (h.expr rangePower) (fun low => Local.expectWord.bind fun _ => (high low).weaken)
    fun low => ?_
  refine .bind_last (Local.expectWord (b := true)) (fun _ => high low) fun _ => ?_
  exact .map _ (he rangePower) fun _ => Nat.le_refl _

theorem escapeText_edge {w : String → Nat} : Edge w escapeText := by
  refine .take_bind (escapeText_local (b := true)) fun t => ?_
  split <;> first | exact .pure _ | exact .fail

/-- Where a keyword is found a token is taken. -/
theorem after_idle {α : Type} {i o : Nat} {b : Bool} {k : Keyword} {p p' : Parser α} (h : Local i o b p p')
    {ts : List Token} {found : Option α} (hp : after k p ts = .ok (found, ts)) : found = none := by
  by_cases first : ∃ name, ts.head? = some (.word name (some k))
  · obtain ⟨name, first⟩ := first
    obtain ⟨rest, rfl⟩ := List.head?_eq_some_iff.mp first
    rw [after, bind_of_ok (skipWord_self name k)] at hp
    obtain ⟨a, mid, ha, hp⟩ := bind_eq_ok_iff.mp hp
    obtain ⟨-, rfl⟩ := Prod.mk.inj (Except.ok.inj hp)
    exact absurd (h.takes_length ha) (Nat.not_succ_le_self _)
  · rw [after, bind_of_ok (skipWord_other (not_exists.mp first))] at hp
    exact (Prod.mk.inj (Except.ok.inj hp)).1.symm

theorem likeExpr_edge (h : inner.Local inner') (he : inner.Edge) (e : Expr) (negated caseless : Bool) :
    Edge Expr.edgePower (likeExpr inner e negated caseless) := by
  have escape (pattern : Expr) : Local 0 0 false
      (do return Expr.like e negated caseless pattern (← after .ESCAPE escapeText))
      (do return Expr.like e negated caseless pattern (← after .ESCAPE escapeText)) :=
    (Local.after escapeText_local).bind fun _ => .pure _
  refine .bind (h.expr likePower) escape (he likePower) (fun pattern => ?_) ?_
  · let w (text : Option String) := (Expr.like e negated caseless pattern text).edgePower
    have text : Local 0 0 true (do return some (← escapeText)) (do return some (← escapeText)) :=
      escapeText_local.bind fun _ => .pure _
    have texts : Edge w (after .ESCAPE escapeText) := .skipWord_bind nofun text fun found =>
      .ite (.map _ (escapeText_edge (w := fun text => w (some text))) fun _ => Nat.le_refl _) (.pure _)
    exact .map _ texts fun _ => Nat.le_refl _
  · intro pattern c ts hc
    obtain ⟨text, mid, ht, hc⟩ := bind_eq_ok_iff.mp hc
    obtain ⟨rfl, rfl⟩ := Prod.mk.inj (Except.ok.inj hc)
    obtain rfl := after_idle (escapeText_local (b := false)) ht
    exact Nat.le_refl _

theorem negatable_edge (h : inner.Local inner') (he : inner.Edge) (left : Expr) (negated : Bool)
    (t : Token) : Edge Expr.edgePower (infixExpr.negatable s inner left negated t) := by
  unfold infixExpr.negatable
  split
  · exact .parenthesised (inItems_local h left negated)
  · exact betweenExpr_edge h he left negated
  · exact likeExpr_edge h he left negated false
  · exact likeExpr_edge h he left negated true
  · exact .fail

theorem markOp?_power {m : Mark} {op : BinaryOp} {power : Nat} (h : markOp? m = some (op, power)) :
    op.power = power := by
  cases m <;> cases h <;> rfl

theorem wordOp?_power {k : Keyword} {op : BinaryOp} {power : Nat} (h : wordOp? k = some (op, power)) :
    op.power = power := by
  cases k <;> cases h <;> rfl

theorem infixExpr_edge (h : inner.Local inner') (he : inner.Edge) (left : Expr) :
    Edge Expr.edgePower (infixExpr s inner left) := by
  have operation (op : BinaryOp) : Edge Expr.edgePower
      (do return Expr.binary left op (← inner.expr op.power)) :=
    .map _ (he op.power) fun _ => Nat.le_refl _
  refine .take_bind (infixExpr_local (b := true) h left) fun t => ?_
  split
  · exact .map _ dataType_edge (w := fun _ => 50) fun _ => Nat.le_refl _
  next m _ =>
    split
    next op power found =>
      obtain rfl := markOp?_power found
      exact operation op
    · exact .fail
  · exact testExpr_edge h he left
  · exact .take_bind (negated_local h left) fun t => negatable_edge h he left true t
  next name k _ _ =>
    split
    next op power found =>
      obtain rfl := wordOp?_power found
      exact operation op
    · exact negatable_edge h he left false _
  · exact .fail

/-! ## Going on behind an expression -/

/-- Operators that are read take tokens, so none was read when none is taken. -/
theorem operatorsIn_idle (h : inner.Local inner') {power n : Nat} {left e : Expr} {ts : List Token}
    (hp : operatorsIn s inner power n left ts = .ok (e, ts)) :
    e = left ∧ (0 < n → nextPower ts ≤ power) := by
  cases n with
  | zero =>
    obtain ⟨rfl, -⟩ := Prod.mk.inj (Except.ok.inj hp)
    exact ⟨rfl, nofun⟩
  | succ n =>
    simp only [operatorsIn, get_bind_apply] at hp
    split at hp
    · obtain ⟨first, mid, hf, hr⟩ := bind_eq_ok_iff.mp hp
      have := (infixExpr_local h left).takes_lt hf
      have := (operatorsIn_local h power n first).takes_length hr
      omega
    next low =>
      obtain ⟨rfl, -⟩ := Prod.mk.inj (Except.ok.inj hp)
      exact ⟨rfl, fun _ => Nat.le_of_not_lt low⟩

/-- The first token of an operator is followed by more of it when that is needed
to tell how tight it binds. -/
theorem nextPower_infix (h : inner.Local inner') {left e : Expr} {t : Token} {front rest next : List Token}
    (taken : infixExpr s inner left (t :: front ++ rest) = .ok (e, rest)) :
    nextPower (t :: front ++ next) = nextPower (t :: front ++ rest) := by
  match front with
  | u :: front => exact nextPower_pair t u _ _
  | [] =>
    by_cases negated : wordOf? (some t) = some .NOT
    · match t, negated with
      | .word name (some .NOT), rfl =>
        have tail : (do infixExpr.negatable s inner left true (← take) : Parser Expr) rest = .ok (e, rest) :=
          taken
        exact absurd ((negated_local (b := true) h left).takes_lt tail) (Nat.lt_irrefl _)
    · exact (nextPower_first negated next).trans (nextPower_first negated rest).symm

/-- Operators that were read are read again before tokens that end what they
make, and reading goes on behind them. -/
theorem operatorsIn_resumes (h : inner.Local inner') (he : inner.Edge) {power : Nat}
    {rest next : List Token} {e : Expr} (ends : Ends next) (binds : nextPower next ≤ e.edgePower)
    {n : Nat} : ∀ {m : Nat} {left : Expr} {front : List Token},
    operatorsIn s inner power n left (front ++ rest) = .ok (e, rest) → (front ++ next).length ≤ m →
    operatorsIn s inner power m left (front ++ next) = operatorsIn s inner power next.length e next := by
  induction n with
  | zero =>
    intro m left front hp hm
    obtain ⟨rfl, e⟩ := Prod.mk.inj (Except.ok.inj hp)
    obtain rfl : front = [] := by simpa using e
    exact operatorsIn_enough h hm (Nat.le_refl _)
  | succ n ih =>
    intro m left front hp hm
    cases front with
    | nil =>
      obtain ⟨rfl, -⟩ := operatorsIn_idle h hp
      exact operatorsIn_enough h hm (Nat.le_refl _)
    | cons t front =>
      obtain ⟨m, rfl⟩ : ∃ m', m = m' + 1 := ⟨m - 1, by simp at hm; omega⟩
      simp only [operatorsIn, get_bind_apply] at hp ⊢
      split at hp
      next high =>
        obtain ⟨first, taken, second, split, hr, hf, again⟩ :=
          Edge.bind_cases (infixExpr_local (b := true) h left)
            (fun e => operatorsIn_local h power n e) hp
        have read : infixExpr s inner left (taken ++ (second ++ next)) = .ok (first, second ++ next) := by
          cases second with
          | nil =>
            obtain ⟨rfl, -⟩ := operatorsIn_idle h hr
            exact infixExpr_edge h he left taken ends binds hf
          | cons u second => exact again next ends (List.cons_ne_nil u second)
        cases taken with
        | nil => exact absurd ((infixExpr_local h left).takes_lt hf) (Nat.lt_irrefl _)
        | cons u taken =>
          obtain rfl := (List.cons.inj split).1
          obtain rfl : front = taken ++ second := (List.cons.inj split).2
          have same : nextPower (t :: taken ++ (second ++ next)) = nextPower (t :: taken ++ (second ++ rest)) :=
            nextPower_infix h hf
          rw [← List.cons_append, List.append_assoc] at high hm ⊢
          rw [if_pos (same ▸ high), bind_of_ok read]
          exact ih hr (by simp at hm ⊢; omega)
      next low =>
        have := congrArg (List.length ∘ Prod.snd) (Except.ok.inj hp)
        simp at this
        omega

/-- An expression that was read is read again before tokens that end it, and
reading goes on behind it. -/
theorem expression_resumes (h : inner.Local inner') (he : inner.Edge) {power : Nat}
    {front rest next : List Token} {e : Expr} (ends : Ends next) (binds : nextPower next ≤ e.edgePower)
    (hp : expression s inner power (front ++ rest) = .ok (e, rest)) :
    expression s inner power (front ++ next) = operatorsIn s inner power next.length e next := by
  have operators (left : Expr) : Local 0 0 false (do operatorsIn s inner power (← get).length left)
      (do operatorsIn s inner' power (← get).length left) :=
    .of_length (fun n => operatorsIn_local h power n left) (fun _ => rfl) (fun _ => rfl)
      fun _ enough => operatorsIn_enough h enough (Nat.le_refl _)
  obtain ⟨left, taken, second, rfl, hr, hf, again⟩ :=
    Edge.bind_cases (operand_local (b := true) h) operators hp
  have read : operand s inner (taken ++ (second ++ next)) = .ok (left, second ++ next) := by
    cases second with
    | nil =>
      obtain ⟨rfl, -⟩ := operatorsIn_idle h hr
      exact operand_edge h he taken ends binds hf
    | cons u second => exact again next ends nofun
  rw [List.append_assoc, expression, bind_of_ok read]
  exact operatorsIn_resumes h he ends binds hr (Nat.le_refl _)

theorem operatorsIn_stops {power n : Nat} {left : Expr} {ts : List Token} (h : nextPower ts ≤ power) :
    operatorsIn s inner power n left ts = .ok (left, ts) := by
  cases n with
  | zero => rfl
  | succ n =>
    rw [operatorsIn, get_bind_apply, if_neg (Nat.not_lt.mpr h)]
    rfl

theorem expression_edge (h : inner.Local inner') (he : inner.Edge) (power : Nat) :
    Edge (fun e => min power e.edgePower) (expression s inner power) := by
  intro front rest next e ends binds hp
  rw [expression_resumes h he ends (Nat.le_trans binds (Nat.min_le_right ..)) hp]
  exact operatorsIn_stops (Nat.le_trans binds (Nat.min_le_left ..))

theorem innerIn_edge (s : ParserSettings) (d : Nat) : (innerIn s d).Edge := by
  induction d with
  | zero =>
    intro power front rest next e ends binds hp
    rw [innerIn_expr_zero] at hp
    cases hp
  | succ d ih =>
    intro power
    rw [innerIn_expr_succ]
    exact expression_edge (innerIn_local s (Nat.le_refl d)) ih power

end Parser

end DetectionPlan.Sql
