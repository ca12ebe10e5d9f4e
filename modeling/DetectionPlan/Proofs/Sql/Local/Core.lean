/-
Parsers that read locally. What such a parser takes closes the parentheses it
opens; more depth does not change what it answers; and it looks no further than
the first token it leaves. Every parser below statements is of this kind, so a
query can be changed behind a token without a change to what is read before it.
-/
import DetectionPlan.Sql.Parser.Statement
import DetectionPlan.Proofs.Outcome

namespace DetectionPlan.Sql.Parser

open Outcome (bind_ok_iff)

/-! ## Parentheses -/

/-- How many parentheses are open after a token, when `d` were before it. None
that is not open is closed. -/
def nest (d : Nat) (t : Token) : Option Nat :=
  if t = .mark .leftParen then some (d + 1)
  else if t = .mark .rightParen then (if d = 0 then none else some (d - 1))
  else some d

/-- How many parentheses are open after some tokens. -/
def depthAfter : (d : Nat) → List Token → Option Nat
  | d, [] => some d
  | d, t :: rest => (nest d t).bind fun d => depthAfter d rest

@[simp]
theorem depthAfter_nil (d : Nat) : depthAfter d [] = some d := rfl

theorem depthAfter_cons (d : Nat) (t : Token) (rest : List Token) :
    depthAfter d (t :: rest) = (nest d t).bind fun d => depthAfter d rest := rfl

theorem depthAfter_append (d : Nat) (front back : List Token) :
    depthAfter d (front ++ back) = (depthAfter d front).bind fun d => depthAfter d back := by
  induction front generalizing d with
  | nil => rfl
  | cons t front ih =>
    rw [List.cons_append, depthAfter_cons, depthAfter_cons]
    cases nest d t with
    | none => rfl
    | some d => exact ih d

@[simp]
theorem nest_leftParen (d : Nat) : nest d (.mark .leftParen) = some (d + 1) := rfl

@[simp]
theorem nest_zero_rightParen : nest 0 (.mark .rightParen) = none := rfl

@[simp]
theorem nest_succ_rightParen (d : Nat) : nest (d + 1) (.mark .rightParen) = some d := rfl

theorem nest_plain (d : Nat) {t : Token} (left : t ≠ .mark .leftParen)
    (right : t ≠ .mark .rightParen) : nest d t = some d := by
  rw [nest, if_neg left, if_neg right]

theorem nest_succ {d e : Nat} {t : Token} (h : nest d t = some e) :
    nest (d + 1) t = some (e + 1) := by
  unfold nest at h ⊢
  grind

theorem depthAfter_succ {d e : Nat} {ts : List Token} (h : depthAfter d ts = some e) :
    depthAfter (d + 1) ts = some (e + 1) := by
  induction ts generalizing d with
  | nil =>
    obtain rfl := Option.some.inj h
    rfl
  | cons t ts ih =>
    rw [depthAfter_cons] at h ⊢
    obtain ⟨d', hd, h⟩ := Option.bind_eq_some_iff.mp h
    rw [nest_succ hd]
    exact ih h

/-- The place where a parenthesis is closed that was open before. -/
theorem exists_close {d : Nat} {ts : List Token} (h : depthAfter (d + 1) ts = some 0) :
    ∃ inside outside, ts = inside ++ .mark .rightParen :: outside ∧
      depthAfter d inside = some 0 ∧ depthAfter 0 outside = some 0 := by
  induction ts generalizing d with
  | nil => cases Option.some.inj h
  | cons t ts ih =>
    rw [depthAfter_cons] at h
    obtain ⟨d', hd, h⟩ := Option.bind_eq_some_iff.mp h
    by_cases closes : d = 0 ∧ t = .mark .rightParen
    · obtain ⟨rfl, rfl⟩ := closes
      obtain rfl := Option.some.inj hd
      exact ⟨[], ts, rfl, rfl, h⟩
    · have before : ∃ e, nest d t = some e ∧ d' = e + 1 := by
        unfold nest at hd ⊢
        grind
      obtain ⟨e, before, rfl⟩ := before
      obtain ⟨inside, outside, rfl, hi, ho⟩ := ih h
      refine ⟨t :: inside, outside, rfl, ?_, ho⟩
      rw [depthAfter_cons, before]
      exact hi

/-! ## Running parsers -/

section Running

variable {α β : Type} {p : Parser α} {f : α → Parser β} {ts mid : List Token}

@[simp]
theorem pure_apply (a : α) : (Pure.pure a : Parser α) ts = .ok (a, ts) := rfl

@[simp]
theorem fail_apply : (fail : Parser α) ts = .error .grammar := rfl

@[simp]
theorem get_bind_apply (g : List Token → Parser β) : (get >>= g) ts = g ts ts := rfl

@[simp]
theorem set_bind_apply (g : PUnit → Parser β) : (set mid >>= g) ts = g ⟨⟩ mid := rfl

theorem bind_of_ok {a : α} (h : p ts = .ok (a, mid)) : (p >>= f) ts = f a mid := by
  simp only [bind, StateT.bind, h]
  rfl

theorem bind_of_error {e : SyntaxFault} (h : p ts = .error e) : (p >>= f) ts = .error e := by
  simp only [bind, StateT.bind, h]
  rfl

theorem bind_congr_of_ok {g : α → Parser β}
    (h : ∀ a mid, p ts = .ok (a, mid) → f a mid = g a mid) : (p >>= f) ts = (p >>= g) ts := by
  cases hp : p ts with
  | error e => rw [bind_of_error hp, bind_of_error hp]
  | ok r => rw [bind_of_ok (a := r.1) hp, bind_of_ok (a := r.1) hp, h r.1 r.2 hp]

theorem bind_congr_left {q : Parser α} (h : p ts = q ts) : (p >>= f) ts = (q >>= f) ts := by
  simp only [bind, StateT.bind, h]

theorem bind_eq_ok_iff {b : β} {rest : List Token} :
    (p >>= f) ts = .ok (b, rest) ↔
      ∃ a mid, p ts = .ok (a, mid) ∧ f a mid = .ok (b, rest) := by
  cases h : p ts with
  | error e => simp [bind_of_error h]
  | ok r =>
    obtain ⟨a, mid⟩ := r
    simp [bind_of_ok h]

theorem bind_eq_error_iff {e : SyntaxFault} :
    (p >>= f) ts = .error e ↔
      p ts = .error e ∨ ∃ a mid, p ts = .ok (a, mid) ∧ f a mid = .error e := by
  cases h : p ts with
  | error e' => simp [bind_of_error h]
  | ok r =>
    obtain ⟨a, mid⟩ := r
    simp [bind_of_ok h]

end Running

/-! ## What parsers answer -/

/-- All that a parser answers has a property. -/
def Answers {α : Type} (P : α → Prop) (p : Parser α) : Prop :=
  ∀ ⦃ts rest : List Token⦄ ⦃a : α⦄, p ts = .ok (a, rest) → P a

namespace Answers

variable {α β : Type} {P : β → Prop}

theorem pure {b : β} (h : P b) : Answers P (Pure.pure b) := by
  intro ts rest a hp
  obtain ⟨rfl, -⟩ := Prod.mk.inj (Except.ok.inj hp)
  exact h

theorem fail : Answers P (Parser.fail : Parser β) := by
  intro ts rest a hp
  cases hp

theorem bind_of {Q : α → Prop} {p : Parser α} {f : α → Parser β} (hp : Answers Q p)
    (hf : ∀ a, Q a → Answers P (f a)) : Answers P (p >>= f) := by
  intro ts rest b h
  obtain ⟨a, mid, ha, hb⟩ := bind_eq_ok_iff.mp h
  exact hf a (hp ha) hb

theorem bind {p : Parser α} {f : α → Parser β} (hf : ∀ a, Answers P (f a)) : Answers P (p >>= f) :=
  bind_of (Q := fun _ => True) (fun _ _ _ _ => trivial) fun a _ => hf a

theorem ite {p q : Parser β} {C : Prop} [Decidable C] (hp : Answers P p) (hq : Answers P q) :
    Answers P (if C then p else q) := by
  split
  · exact hp
  · exact hq

theorem parenthesised {p : Parser β} (h : Answers P p) : Answers P (parenthesised p) :=
  bind fun _ => bind_of h fun _ ha => bind fun _ => pure ha

end Answers

/-! ## Local parsers -/

/-- Some tokens that a parser may take: the parentheses that are open go from
`i` to `o`, and no point stands last. -/
structure Chunk (i o : Nat) (strict : Bool) (ts : List Token) : Prop where
  depth : depthAfter i ts = some o
  last : ts.getLast? ≠ some (.mark .period)
  taken : strict = true → ts ≠ []

theorem Chunk.nil (d : Nat) : Chunk d d false [] := ⟨rfl, by simp, by simp⟩

theorem Chunk.append {i j o : Nat} {b c : Bool} {front back : List Token} (h : Chunk i j b front)
    (h' : Chunk j o c back) : Chunk i o (b || c) (front ++ back) := by
  refine ⟨?_, ?_, ?_⟩
  · rw [depthAfter_append, h.depth]
    exact h'.depth
  · cases hb : back.getLast? with
    | none =>
      rw [List.getLast?_eq_none_iff.mp hb, List.append_nil]
      exact h.last
    | some t =>
      rw [List.getLast?_append, hb, Option.some_or, ← hb]
      exact h'.last
  · intro strict none
    obtain ⟨rfl, rfl⟩ := List.append_eq_nil_iff.mp none
    rcases Bool.or_eq_true_iff.mp strict with hb | hc
    · exact h.taken hb rfl
    · exact h'.taken hc rfl

theorem Chunk.cons {i j o : Nat} {b c : Bool} {t : Token} {ts : List Token}
    (nests : nest i t = some j) (h : Chunk j o c ts) (point : t = .mark .period → ts ≠ []) :
    Chunk i o b (t :: ts) := by
  refine ⟨?_, ?_, fun _ => by simp⟩
  · rw [depthAfter_cons, nests]
    exact h.depth
  · cases ts with
    | nil => simpa using fun e => point e rfl
    | cons u ts =>
      rw [List.getLast?_cons_cons]
      exact h.last

/-- A token behind which the tokens may be replaced by others: a parenthesis
that is closed hides what follows it, and no parser looks past other tokens for
a parenthesis or for `AND`. -/
def Hides (m : Token) (after : List Token) : Prop :=
  m = .mark .rightParen ∨ m ≠ .mark .period ∧ ∃ t rest, after = t :: rest ∧
    (t = .mark .leftParen ∨ t = .mark .rightParen ∨ ∃ name, t = .word name (some .AND))

/-- A parser that reads locally, between `i` and `o` open parentheses, and the
same parser with more depth. A strict one takes a token at least. -/
structure Local {α : Type} (i o : Nat) (strict : Bool) (p p' : Parser α) : Prop where
  takes : ∀ {ts a rest}, p ts = .ok (a, rest) → ∃ front, ts = front ++ rest ∧ Chunk i o strict front
  deeper : ∀ {ts}, p ts ≠ .error .nesting → p' ts = p ts
  frame : ∀ {front left m after after' a}, Hides m after' →
    p (front ++ m :: after) = .ok (a, left ++ m :: after) →
    p (front ++ m :: after') = .ok (a, left ++ m :: after')
  fault : ∀ {front after after' e}, depthAfter i front = some 0 →
    p (front ++ .mark .rightParen :: after) = .error e →
    p (front ++ .mark .rightParen :: after') = .error e

/-- What is left when something is taken before a parenthesis that closes. -/
theorem left_before_close {i o : Nat} {front taken after rest : List Token}
    (hf : depthAfter i front = some 0) (ht : depthAfter i taken = some o)
    (h : front ++ .mark .rightParen :: after = taken ++ rest) :
    ∃ left, front = taken ++ left ∧ rest = left ++ .mark .rightParen :: after ∧
      depthAfter o left = some 0 := by
  rcases List.append_eq_append_iff.mp h with ⟨more, rfl, e⟩ | ⟨left, rfl, e⟩
  · cases more with
    | nil =>
      refine ⟨[], by simp, by simpa using e.symm, ?_⟩
      rw [List.append_nil, hf] at ht
      exact ht.symm
    | cons t more =>
      obtain ⟨rfl, -⟩ := List.cons.inj e
      rw [depthAfter_append, hf] at ht
      cases ht
  · refine ⟨left, rfl, e, ?_⟩
    rw [depthAfter_append, ht] at hf
    exact hf

namespace Local

variable {α β : Type} {i j o : Nat} {b c : Bool}

section Combining

variable {p p' : Parser α} {f f' : α → Parser β}

theorem weaken (h : Local i o true p p') : Local i o b p p' where
  takes hp := by
    obtain ⟨front, e, chunk⟩ := h.takes hp
    exact ⟨front, e, chunk.depth, chunk.last, fun _ => chunk.taken rfl⟩
  deeper := h.deeper
  frame := h.frame
  fault := h.fault

theorem takes_length (h : Local i o b p p') {ts rest : List Token} {a : α}
    (hp : p ts = .ok (a, rest)) : rest.length ≤ ts.length := by
  obtain ⟨front, rfl, -⟩ := h.takes hp
  simp

theorem takes_lt (h : Local i o true p p') {ts rest : List Token} {a : α}
    (hp : p ts = .ok (a, rest)) : rest.length < ts.length := by
  obtain ⟨front, rfl, chunk⟩ := h.takes hp
  have := List.length_pos_of_ne_nil (chunk.taken rfl)
  simp
  omega

theorem ok_before_close (h : Local i o b p p') {front after rest : List Token} {a : α}
    (hf : depthAfter i front = some 0) (hp : p (front ++ .mark .rightParen :: after) = .ok (a, rest)) :
    ∃ left, rest = left ++ .mark .rightParen :: after ∧ depthAfter o left = some 0 ∧
      ∀ after', p (front ++ .mark .rightParen :: after') =
        .ok (a, left ++ .mark .rightParen :: after') := by
  obtain ⟨taken, e, chunk⟩ := h.takes hp
  obtain ⟨left, rfl, rfl, hl⟩ := left_before_close hf chunk.depth e
  exact ⟨left, rfl, hl, fun after' => h.frame (.inl rfl) hp⟩

theorem bind_or (h : Local i j b p p') (hf : ∀ a, Local j o c (f a) (f' a)) :
    Local i o (b || c) (p >>= f) (p' >>= f') where
  takes hp := by
    obtain ⟨a, mid, hp, hq⟩ := bind_eq_ok_iff.mp hp
    obtain ⟨front, rfl, chunk⟩ := h.takes hp
    obtain ⟨back, rfl, chunk'⟩ := (hf a).takes hq
    exact ⟨front ++ back, by simp, chunk.append chunk'⟩
  deeper {ts} hp := by
    cases hts : p ts with
    | error e =>
      rw [bind_of_error hts] at hp ⊢
      have graver : p ts ≠ .error .nesting := fun n => hp (by rw [Except.error.inj (hts.symm.trans n)])
      exact bind_of_error ((h.deeper graver).trans hts)
    | ok r =>
      obtain ⟨a, mid⟩ := r
      rw [bind_of_ok hts] at hp ⊢
      rw [bind_of_ok ((h.deeper (by simp [hts])).trans hts)]
      exact (hf a).deeper hp
  frame hides hp := by
    obtain ⟨a, mid, hp, hq⟩ := bind_eq_ok_iff.mp hp
    obtain ⟨taken, rfl, -⟩ := (hf a).takes hq
    rw [← List.append_assoc] at hp hq
    rw [bind_of_ok (h.frame hides hp)]
    exact (hf a).frame hides hq
  fault depth hp := by
    rcases bind_eq_error_iff.mp hp with hp | ⟨a, mid, hp, hq⟩
    · exact bind_of_error (h.fault depth hp)
    · obtain ⟨left, rfl, depth', hp'⟩ := h.ok_before_close depth hp
      rw [bind_of_ok (hp' _)]
      exact (hf a).fault depth' hq

theorem bind (h : Local i j b p p') (hf : ∀ a, Local j o false (f a) (f' a)) :
    Local i o b (p >>= f) (p' >>= f') := by
  have := bind_or h hf
  rwa [Bool.or_false] at this

/-- Of two parsers in a row the second may be the one that takes a token. -/
theorem bind_strict (h : Local i j false p p') (hf : ∀ a, Local j o b (f a) (f' a)) :
    Local i o b (p >>= f) (p' >>= f') :=
  bind_or h hf

theorem pure (a : α) : Local i i false (Pure.pure a : Parser α) (Pure.pure a) where
  takes hp := by
    obtain ⟨rfl, rfl⟩ := Prod.mk.inj (Except.ok.inj hp)
    exact ⟨[], rfl, .nil i⟩
  deeper _ := rfl
  frame _ hp := by
    obtain ⟨rfl, e⟩ := Prod.mk.inj (Except.ok.inj hp)
    rw [List.append_left_inj] at e
    rw [e]
    rfl
  fault _ hp := by cases hp

theorem fail : Local i o b (fail : Parser α) fail where
  takes hp := by cases hp
  deeper _ := rfl
  frame _ hp := by cases hp
  fault _ hp := hp

theorem ite {q q' : Parser α} {P : Prop} [Decidable P] (h : Local i o b p p')
    (hq : Local i o b q q') : Local i o b (if P then p else q) (if P then p' else q') := by
  split
  · exact h
  · exact hq

theorem map (g : α → β) (h : Local i o b p p') : Local i o b (g <$> p) (g <$> p') := by
  rw [map_eq_pure_bind, map_eq_pure_bind]
  exact h.bind fun a => pure (g a)

/-- What is read inside parentheses is read in the same way inside further ones. -/
theorem lift (h : Local i o b p p') : Local (i + 1) (o + 1) b p p' where
  takes hp := by
    obtain ⟨front, rfl, chunk⟩ := h.takes hp
    exact ⟨front, rfl, depthAfter_succ chunk.depth, chunk.last, chunk.taken⟩
  deeper := h.deeper
  frame := h.frame
  fault depth hp := by
    obtain ⟨inside, outside, rfl, hi, -⟩ := exists_close depth
    rw [List.append_assoc, List.cons_append] at hp ⊢
    exact h.fault hi hp

end Combining

/-! ## Parsers by their first token -/

/-- What a parser does when some token, or none, comes first: it fails, it reads
as another parser does, or it takes the token and goes on as another parser. -/
inductive Begins (i o : Nat) (b : Bool) (p p' : Parser α) : Option Token → Prop
  | fails {first : Option Token}
      (h : ∀ ts, ts.head? = first → p ts = .error .grammar ∧ p' ts = .error .grammar) :
      Begins i o b p p' first
  | keeps {first : Option Token} {q q' : Parser α} (reads : Local i o b q q')
      (h : ∀ ts, ts.head? = first → p ts = q ts ∧ p' ts = q' ts) : Begins i o b p p' first
  | eats {t : Token} {j : Nat} {c : Bool} {q q' : Parser α} (nests : nest i t = some j)
      (point : t = .mark .period → c = true) (reads : Local j o c q q')
      (h : ∀ rest, p (t :: rest) = q rest ∧ p' (t :: rest) = q' rest) : Begins i o b p p' (some t)

/-- A parser that is given the length of the tokens is local when it is for any
number, and any number from the length on gives the same. -/
theorem of_length {p p' : Parser α} {q q' : Nat → Parser α} (h : ∀ n, Local i o b (q n) (q' n))
    (hp : ∀ ts, p ts = q ts.length ts) (hp' : ∀ ts, p' ts = q' ts.length ts)
    (enough : ∀ {ts n}, ts ≠ [] → ts.length ≤ n → q n ts = q ts.length ts) : Local i o b p p' where
  takes {ts _ _} e := (h ts.length).takes (hp ts ▸ e)
  deeper {ts} e := by
    rw [hp] at e ⊢
    rw [hp', (h ts.length).deeper e]
  frame {front left m after after' a} hides e := by
    let n := max (front ++ m :: after).length (front ++ m :: after').length
    rw [hp, ← enough (n := n) (by simp) (Nat.le_max_left ..)] at e
    rw [hp, ← enough (n := n) (by simp) (Nat.le_max_right ..)]
    exact (h n).frame hides e
  fault {front after after' f} depth e := by
    let n := max (front ++ .mark .rightParen :: after).length
      (front ++ .mark .rightParen :: after').length
    rw [hp, ← enough (n := n) (by simp) (Nat.le_max_left ..)] at e
    rw [hp, ← enough (n := n) (by simp) (Nat.le_max_right ..)]
    exact (h n).fault depth e

/-- The same for a parser that goes on after that. -/
theorem length_bind {q q' : Nat → Parser α} {f f' : α → Parser β}
    (h : ∀ n, Local i j b (q n) (q' n))
    (enough : ∀ {ts n}, ts ≠ [] → ts.length ≤ n → q n ts = q ts.length ts)
    (hf : ∀ a, Local j o false (f a) (f' a)) :
    Local i o b (get >>= fun ts => q ts.length >>= f) (get >>= fun ts => q' ts.length >>= f') := by
  have whole : Local i j b (fun ts => q ts.length ts) (fun ts => q' ts.length ts) :=
    of_length h (fun _ => rfl) (fun _ => rfl) enough
  exact whole.bind hf

/-- A parser that goes on when the tokens pass a test, which looks at two of
them, and not before a parenthesis that closes. -/
theorem of_test {test : List Token → Prop} [DecidablePred test] {p p' : Parser α} {a : α}
    (h : Local i i true p p') (pair : ∀ t u rest rest', test (t :: u :: rest) ↔ test (t :: u :: rest'))
    (close : ∀ rest, ¬ test (.mark .rightParen :: rest))
    (hidden : ∀ {m after after'}, Hides m after' → test (m :: after') → test (m :: after)) :
    Local i i false (do if test (← get) then p else return a)
      (do if test (← get) then p' else return a) := by
  have goes (q : Parser α) (ts : List Token) :
      (do if test (← get) then q else return a : Parser α) ts =
        if test ts then q ts else .ok (a, ts) := by
    rw [get_bind_apply]
    split <;> rfl
  have same (t m : Token) (front after after' : List Token) :
      test (t :: front ++ m :: after) ↔ test (t :: front ++ m :: after') := by
    cases front with
    | nil => exact pair t m after after'
    | cons u front => exact pair t u _ _
  refine ⟨?_, ?_, ?_, ?_⟩
  · intro ts b rest hp
    rw [goes] at hp
    split at hp
    · exact h.weaken.takes hp
    · exact (Local.pure a).takes hp
  · intro ts hp
    rw [goes] at hp ⊢
    rw [goes]
    by_cases yes : test ts
    · rw [if_pos yes] at hp ⊢
      rw [if_pos yes, h.deeper hp]
    · rw [if_neg yes, if_neg yes]
  · intro front left m after after' b hides hp
    rw [goes] at hp ⊢
    match front with
    | [] =>
      split at hp
      · have := h.takes_lt hp
        simp at this
        omega
      next no =>
        have no' : ¬ test ([] ++ m :: after') := fun yes => no (hidden hides yes)
        rw [if_neg no']
        exact (Local.pure (i := i) a).frame hides hp
    | t :: front =>
      by_cases yes : test (t :: front ++ m :: after)
      · rw [if_pos yes] at hp
        rw [if_pos ((same t m front after after').mp yes)]
        exact h.frame hides hp
      · rw [if_neg yes] at hp
        rw [if_neg fun yes' => yes ((same t m front after after').mpr yes')]
        exact (Local.pure (i := i) a).frame hides hp
  · intro front after after' e depth hp
    rw [goes] at hp ⊢
    split at hp
    next yes =>
      match front with
      | [] => exact absurd yes (close after)
      | t :: front =>
        rw [if_pos ((same t _ front after after').mp yes)]
        exact h.fault depth hp
    · cases hp

theorem of_begins {p p' : Parser α} (h : ∀ first, Begins i o b p p' first) : Local i o b p p' where
  takes {ts _ _} hp := by
    generalize first : ts.head? = t at *
    cases h t with
    | fails h => rw [(h ts first).1] at hp; cases hp
    | keeps reads h => exact reads.takes ((h ts first).1 ▸ hp)
    | eats nests point reads h =>
      obtain ⟨rest, rfl⟩ := List.head?_eq_some_iff.mp first
      rw [(h rest).1] at hp
      obtain ⟨taken, rfl, chunk⟩ := reads.takes hp
      exact ⟨_ :: taken, rfl, .cons nests chunk fun e => chunk.taken (point e)⟩
  deeper {ts} hp := by
    generalize first : ts.head? = t at *
    cases h t with
    | fails h => rw [(h ts first).1, (h ts first).2]
    | keeps reads h =>
      rw [(h ts first).1] at hp ⊢
      rw [(h ts first).2, reads.deeper hp]
    | eats nests point reads h =>
      obtain ⟨rest, rfl⟩ := List.head?_eq_some_iff.mp first
      rw [(h rest).1] at hp ⊢
      rw [(h rest).2, reads.deeper hp]
  frame {front left m after after' a} hides hp := by
    -- What follows `m` does not change the first token, nor so which case it is.
    have same : (front ++ m :: after').head? = (front ++ m :: after).head? := by cases front <;> rfl
    generalize first : (front ++ m :: after).head? = t at *
    cases h t with
    | fails h => rw [(h _ first).1] at hp; cases hp
    | keeps reads h =>
      rw [(h _ first).1] at hp
      rw [(h _ same).1, reads.frame hides hp]
    | eats nests point reads h =>
      cases front with
      | nil =>
        obtain rfl := Option.some.inj first
        rw [List.nil_append, (h _).1] at hp
        have := reads.takes_length hp
        simp at this
        omega
      | cons t front =>
        obtain rfl := Option.some.inj first
        rw [List.cons_append, (h _).1] at hp ⊢
        exact reads.frame hides hp
  fault {front after after' e} depth hp := by
    have same : (front ++ .mark .rightParen :: after').head? =
        (front ++ .mark .rightParen :: after).head? := by cases front <;> rfl
    generalize first : (front ++ .mark .rightParen :: after).head? = t at *
    cases h t with
    | fails h => rw [← hp, (h _ first).1, (h _ same).1]
    | keeps reads h =>
      rw [(h _ first).1] at hp
      rw [(h _ same).1, reads.fault depth hp]
    | eats nests point reads h =>
      cases front with
      | nil =>
        obtain rfl := Option.some.inj first
        obtain rfl := Option.some.inj depth
        cases nests
      | cons t front =>
        obtain rfl := Option.some.inj first
        rw [depthAfter_cons, nests] at depth
        rw [List.cons_append, (h _).1] at hp ⊢
        exact reads.fault depth hp

end Local

/-! ### Marks and keywords -/

section First

variable {α : Type} {ts rest : List Token}

theorem skipMark_self (m : Mark) : skipMark m (.mark m :: rest) = .ok (true, rest) := by
  simp only [skipMark, get_bind_apply, beq_self_eq_true, if_true]
  rfl

theorem skipMark_other {m : Mark} (h : ts.head? ≠ some (.mark m)) :
    skipMark m ts = .ok (false, ts) := by
  unfold skipMark
  rw [get_bind_apply]
  split
  next first rest =>
    have ne : (first == m) = false := by simpa using h
    simp [ne]
  · rfl

theorem skipMark_length {m : Mark} {found : Bool} (h : skipMark m ts = .ok (found, rest)) :
    rest.length ≤ ts.length := by
  by_cases hm : ts.head? = some (.mark m)
  · obtain ⟨more, rfl⟩ := List.head?_eq_some_iff.mp hm
    obtain ⟨-, rfl⟩ := Prod.mk.inj (Except.ok.inj ((skipMark_self m).symm.trans h))
    simp
  · obtain ⟨-, rfl⟩ := Prod.mk.inj (Except.ok.inj ((skipMark_other hm).symm.trans h))
    exact Nat.le_refl _

theorem expectMark_error {m : Mark} (h : ts.head? ≠ some (.mark m)) :
    expectMark m ts = .error .grammar := by
  rw [expectMark, bind_of_ok (skipMark_other h)]
  rfl

theorem expectMark_ok_iff {m : Mark} {u : Unit} :
    expectMark m ts = .ok (u, rest) ↔ ts = .mark m :: rest := by
  by_cases h : ts.head? = some (.mark m)
  · obtain ⟨more, rfl⟩ := List.head?_eq_some_iff.mp h
    rw [expectMark, bind_of_ok (skipMark_self m)]
    simp
  · rw [expectMark_error h]
    constructor
    · nofun
    · rintro rfl
      exact absurd rfl h

theorem expectMark_self (m : Mark) : expectMark m (.mark m :: rest) = .ok ((), rest) :=
  expectMark_ok_iff.mpr rfl

theorem skipWord_self (name : Ident) (k : Keyword) :
    skipWord k (.word name (some k) :: rest) = .ok (true, rest) := by
  simp only [skipWord, get_bind_apply, beq_self_eq_true, if_true]
  rfl

theorem skipWord_other {k : Keyword} (h : ∀ name, ts.head? ≠ some (.word name (some k))) :
    skipWord k ts = .ok (false, ts) := by
  unfold skipWord
  rw [get_bind_apply]
  split
  next name first rest =>
    have ne : (first == some k) = false := by simpa using h name
    simp [ne]
  · rfl

theorem take_cons (t : Token) : take (t :: rest) = .ok (t, rest) := rfl

theorem take_nil : take [] = .error .grammar := rfl

theorem peek_apply : peek ts = .ok (ts.head?, ts) := rfl

/-- The keyword that a token is. -/
def wordOf? : Option Token → Option Keyword
  | some (.word _ k) => k
  | _ => none

theorem exists_word_of_wordOf? {first : Option Token} {k : Keyword} (h : wordOf? first = some k) :
    ∃ name, first = some (.word name (some k)) := by
  match first with
  | some (.word name k') =>
    obtain rfl : k' = some k := h
    exact ⟨name, rfl⟩

theorem exists_word {k : Keyword} (h : wordOf? ts.head? = some k) :
    ∃ name rest, ts = .word name (some k) :: rest := by
  obtain ⟨name, first⟩ := exists_word_of_wordOf? h
  obtain ⟨rest, rfl⟩ := List.head?_eq_some_iff.mp first
  exact ⟨name, rest, rfl⟩

theorem peekWord_apply : peekWord ts = .ok (wordOf? ts.head?, ts) := by
  rw [peekWord, bind_of_ok peek_apply]
  cases ts.head? with
  | none => rfl
  | some t => cases t <;> rfl

end First

namespace Local

variable {α : Type} {i j o : Nat} {b : Bool}

theorem skipMark_bind_strict {m : Mark} {c : Bool} {f f' : Bool → Parser α}
    (nests : nest i (.mark m) = some j) (point : m = .period → c = true)
    (yes : Local j o c (f true) (f' true))
    (no : Local i o b (f false) (f' false)) : Local i o b (skipMark m >>= f) (skipMark m >>= f') := by
  refine of_begins fun first => ?_
  by_cases h : first = some (.mark m)
  · subst h
    refine .eats nests (fun e => point (Token.mark.inj e)) yes fun rest => ?_
    rw [bind_of_ok (skipMark_self m), bind_of_ok (skipMark_self m)]
    exact ⟨rfl, rfl⟩
  · refine .keeps no fun ts hts => ?_
    have other : Parser.skipMark m ts = .ok (false, ts) := skipMark_other (hts ▸ h)
    rw [bind_of_ok other, bind_of_ok other]
    exact ⟨rfl, rfl⟩

theorem skipMark_bind {m : Mark} {f f' : Bool → Parser α} (nests : nest i (.mark m) = some j)
    (point : m ≠ .period) (yes : Local j o false (f true) (f' true))
    (no : Local i o b (f false) (f' false)) : Local i o b (skipMark m >>= f) (skipMark m >>= f') :=
  skipMark_bind_strict nests (absurd · point) yes no

theorem nest_word (i : Nat) (name : Ident) (k : Option Keyword) :
    nest i (.word name k) = some i := nest_plain i nofun nofun

theorem skipWord_bind {k : Keyword} {f f' : Bool → Parser α}
    (yes : Local i o false (f true) (f' true)) (no : Local i o b (f false) (f' false)) :
    Local i o b (skipWord k >>= f) (skipWord k >>= f') := by
  refine of_begins fun first => ?_
  by_cases h : ∃ name, first = some (.word name (some k))
  · obtain ⟨name, rfl⟩ := h
    refine .eats (nest_word i name _) nofun yes fun rest => ?_
    rw [bind_of_ok (skipWord_self name k), bind_of_ok (skipWord_self name k)]
    exact ⟨rfl, rfl⟩
  · refine .keeps no fun ts hts => ?_
    have other : Parser.skipWord k ts = .ok (false, ts) :=
      skipWord_other fun name e => h ⟨name, hts ▸ e⟩
    rw [bind_of_ok other, bind_of_ok other]
    exact ⟨rfl, rfl⟩

theorem skipWord_local {k : Keyword} :
    Local i i false (Parser.skipWord k) (Parser.skipWord k) := by
  have taken : Local i i false (Parser.skipWord k >>= Pure.pure) (Parser.skipWord k >>= Pure.pure) :=
    skipWord_bind (pure true) (pure false)
  rwa [bind_pure] at taken

/-- The two ways on from a mark that may come first. -/
theorem skipMark_ite {m : Mark} {p p' q q' : Parser α} (nests : nest i (.mark m) = some j)
    (point : m ≠ .period) (yes : Local j o false p p') (no : Local i o b q q') :
    Local i o b (do if ← skipMark m then p else q) (do if ← skipMark m then p' else q') :=
  skipMark_bind nests point yes no

/-- The two ways on from a keyword that may come first. -/
theorem skipWord_ite {k : Keyword} {p p' q q' : Parser α} (yes : Local i o false p p')
    (no : Local i o b q q') :
    Local i o b (do if ← skipWord k then p else q) (do if ← skipWord k then p' else q') :=
  skipWord_bind yes no

theorem peek_bind {f f' : Option Token → Parser α} (h : ∀ t, Local i o b (f t) (f' t)) :
    Local i o b (peek >>= f) (peek >>= f') := by
  refine of_begins fun first => .keeps (h first) fun ts hts => ?_
  rw [bind_of_ok peek_apply, bind_of_ok peek_apply, hts]
  exact ⟨rfl, rfl⟩

theorem peekWord_bind {f f' : Option Keyword → Parser α} (h : ∀ k, Local i o b (f k) (f' k)) :
    Local i o b (peekWord >>= f) (peekWord >>= f') := by
  refine of_begins fun first => .keeps (h (wordOf? first)) fun ts hts => ?_
  rw [bind_of_ok peekWord_apply, bind_of_ok peekWord_apply, hts]
  exact ⟨rfl, rfl⟩

/-- The keyword that comes first may be taken after it was looked at. -/
theorem peekWord_begins {f f' : Option Keyword → Parser α}
    (h : ∀ first, Begins i o b (f (wordOf? first)) (f' (wordOf? first)) first) :
    Local i o b (peekWord >>= f) (peekWord >>= f') := by
  refine of_begins fun first => ?_
  have looks (g : Option Keyword → Parser α) {ts : List Token} (hts : ts.head? = first) :
      (peekWord >>= g) ts = g (wordOf? first) ts := by rw [bind_of_ok peekWord_apply, hts]
  cases h first with
  | fails h => exact .fails fun ts hts => by rw [looks f hts, looks f' hts]; exact h ts hts
  | keeps reads h => exact .keeps reads fun ts hts => by rw [looks f hts, looks f' hts]; exact h ts hts
  | eats nests point reads h =>
    exact .eats nests point reads fun rest => by rw [looks f rfl, looks f' rfl]; exact h rest

theorem Begins.of_local {p p' : Parser α} {first : Option Token} (h : Local i o b p p') :
    Begins i o b p p' first := .keeps h fun _ _ => ⟨rfl, rfl⟩

theorem Begins.discard_take {p p' : Parser α} {name : Ident} {k : Option Keyword}
    (h : Local i o false p p') :
    Begins i o b (discard take >>= fun _ => p) (discard take >>= fun _ => p')
      (some (.word name k)) := .eats (nest_word i name k) nofun h fun _ => ⟨rfl, rfl⟩

/-- What is read after a token that was taken. After a parenthesis that closes
none that is open, nothing is. -/
inductive After (i o : Nat) (t : Token) (p p' : Parser α) : Prop
  | fails (h : p = Parser.fail) (h' : p' = Parser.fail)
  | goes (j : Nat) (nests : nest i t = some j) (point : t ≠ .mark .period)
      (reads : Local j o false p p')

namespace After

variable {p p' : Parser α}

theorem fail {t : Token} : After i o t (Parser.fail : Parser α) Parser.fail := .fails rfl rfl

theorem word {name : Ident} {k : Option Keyword} (h : Local i o false p p') :
    After i o (.word name k) p p' := .goes i (nest_word i name k) nofun h

theorem number {digits : String} {long : Bool} (h : Local i o false p p') :
    After i o (.number digits long) p p' := .goes i (nest_plain i nofun nofun) nofun h

theorem string {kind : StringKind} {text : String} (h : Local i o false p p') :
    After i o (.string kind text) p p' := .goes i (nest_plain i nofun nofun) nofun h

theorem mark {m : Mark} (nests : nest i (.mark m) = some j) (point : m ≠ .period)
    (h : Local j o false p p') : After i o (.mark m) p p' := .goes j nests (by simpa using point) h

end After

theorem take_bind {f f' : Token → Parser α} (h : ∀ t, After i o t (f t) (f' t)) :
    Local i o b (take >>= f) (take >>= f') := by
  refine of_begins fun first => ?_
  cases first with
  | none =>
    refine .fails fun ts hts => ?_
    rw [List.head?_eq_none_iff.mp hts]
    exact ⟨bind_of_error take_nil, bind_of_error take_nil⟩
  | some t =>
    rcases h t with ⟨hf, hf'⟩ | ⟨j, nests, point, goes⟩
    · refine .fails fun ts hts => ?_
      obtain ⟨rest, rfl⟩ := List.head?_eq_some_iff.mp hts
      rw [bind_of_ok (take_cons t), bind_of_ok (take_cons t), hf, hf']
      exact ⟨rfl, rfl⟩
    · refine .eats nests (absurd · point) goes fun rest => ?_
      rw [bind_of_ok (take_cons t), bind_of_ok (take_cons t)]
      exact ⟨rfl, rfl⟩

theorem expectMark {m : Mark} (nests : nest i (.mark m) = some o) (point : m ≠ .period) :
    Local i o b (expectMark m) (Parser.expectMark m) :=
  skipMark_bind nests point (pure _) fail

theorem oneOf (choices : List (Keyword × α)) :
    Local i i false (oneOf choices) (Parser.oneOf choices) := by
  refine peekWord_begins fun first => ?_
  match first with
  | some (.word name (some k)) =>
    simp only [wordOf?, Option.bind_some]
    split
    · exact .discard_take (pure _)
    · exact .of_local (pure _)
  | none | some (.word _ none) | some (.number ..) | some (.string ..) | some (.mark _)
  | some (.other _) => exact .of_local (pure _)

theorem opens : Local i (i + 1) b (Parser.expectMark .leftParen) (Parser.expectMark .leftParen) :=
  expectMark (nest_leftParen i) nofun

theorem closes : Local (i + 1) i b (Parser.expectMark .rightParen) (Parser.expectMark .rightParen) :=
  expectMark (nest_succ_rightParen i) nofun

theorem expectWord {k : Keyword} : Local i i b (expectWord k) (Parser.expectWord k) :=
  skipWord_bind (pure _) fail

theorem parenthesised {p p' : Parser α} (h : Local 0 0 false p p') :
    Local 0 0 b (parenthesised p) (Parser.parenthesised p') :=
  opens.bind fun _ => h.lift.bind fun a => closes.bind fun _ => pure a

theorem parenthesised_of_ok {p : Parser α} {ts rest : List Token} {a : α}
    (hp : p ts = .ok (a, .mark .rightParen :: rest)) :
    Parser.parenthesised p (.mark .leftParen :: ts) = .ok (a, rest) := by
  rw [Parser.parenthesised, bind_of_ok (expectMark_self _), bind_of_ok hp, bind_of_ok (expectMark_self _)]
  rfl

theorem parenthesised_ok_iff {p p' : Parser α} (h : Local 0 0 b p p') {ts rest : List Token} {a : α} :
    Parser.parenthesised p ts = .ok (a, rest) ↔ ∃ inside,
      ts = .mark .leftParen :: inside ++ .mark .rightParen :: rest ∧ depthAfter 0 inside = some 0 ∧
      p (inside ++ .mark .rightParen :: rest) = .ok (a, .mark .rightParen :: rest) := by
  constructor
  · intro hp
    obtain ⟨_, mid, open_, hp⟩ := bind_eq_ok_iff.mp hp
    obtain ⟨a', mid', hp, hq⟩ := bind_eq_ok_iff.mp hp
    obtain ⟨_, mid'', close, hq⟩ := bind_eq_ok_iff.mp hq
    obtain ⟨rfl, rfl⟩ := Prod.mk.inj (Except.ok.inj hq)
    obtain rfl := expectMark_ok_iff.mp open_
    obtain rfl := expectMark_ok_iff.mp close
    obtain ⟨inside, rfl, chunk⟩ := h.takes hp
    exact ⟨inside, rfl, chunk.depth, hp⟩
  · rintro ⟨inside, rfl, -, hp⟩
    exact parenthesised_of_ok hp

/-- Between parentheses that match the same is read whatever follows. -/
theorem parenthesised_uniform {p p' : Parser α} (h : Local 0 0 b p p') {inside : List Token}
    (depth : depthAfter 0 inside = some 0) :
    (∃ e, ∀ after, Parser.parenthesised p
        (.mark .leftParen :: inside ++ .mark .rightParen :: after) = .error e) ∨
      ∃ a, ∀ after, Parser.parenthesised p
        (.mark .leftParen :: inside ++ .mark .rightParen :: after) = .ok (a, after) := by
  have opened (after : List Token) : Parser.parenthesised p
      (.mark .leftParen :: inside ++ .mark .rightParen :: after) =
        (do let a ← p; Parser.expectMark .rightParen; return a : Parser α)
          (inside ++ .mark .rightParen :: after) := bind_of_ok (expectMark_self _)
  cases hp : p (inside ++ .mark .rightParen :: []) with
  | error e => exact .inl ⟨e, fun after => by rw [opened, bind_of_error (h.fault depth hp)]⟩
  | ok r =>
    obtain ⟨a, rest⟩ := r
    obtain ⟨left, -, depth', hp⟩ := h.ok_before_close depth hp
    match left with
    | [] =>
      refine .inr ⟨a, fun after => ?_⟩
      rw [opened, bind_of_ok (hp after), List.nil_append, bind_of_ok (expectMark_self _)]
      rfl
    | t :: left =>
      refine .inl ⟨.grammar, fun after => ?_⟩
      have other : t ≠ .mark .rightParen := by
        rintro rfl
        cases depth'
      rw [opened, bind_of_ok (hp after), bind_of_error (expectMark_error (by simpa using other))]

theorem after {k : Keyword} {p p' : Parser α} (h : Local i i false p p') :
    Local i i false (after k p) (Parser.after k p') :=
  skipWord_ite (h.bind fun _ => pure _) (pure _)

end Local

end DetectionPlan.Sql.Parser
