/-
Parsers that follow a tree as it turns into another. When a parser has read a tree that turns
into another, there are tokens that a second parser, the same with more depth, reads as the
other tree, and before the tokens left over may stand others that look alike (`Tracks`). The
tokens are made from behind: first those of what is read last.
-/
import DetectionPlan.Proofs.Sql.Local.Query

namespace DetectionPlan.Sql

/-- Words that some parsers read together with the word behind them. -/
def Keyword.isPaired : Keyword → Bool
  | NOT | GROUP | ORDER | NULLS => true
  | _ => false

/-- Marks with which a name or a call goes on. -/
def Mark.goesOn : Mark → Bool
  | leftParen | period | arrow => true
  | _ => false

namespace Parser

variable {α β γ δ : Type} {P : Token → Prop}

/-- What is read up to a token is read up to it before other tokens. -/
theorem Local.frame_end {i o : Nat} {b : Bool} {p p' : Parser α} (h : Local i o b p p')
    {front after after' : List Token} {t : Token} {a : α} (hides : Hides t after')
    (hp : p (front ++ t :: after) = .ok (a, t :: after)) :
    p (front ++ t :: after') = .ok (a, t :: after') :=
  h.frame hides (show p (front ++ t :: after) = .ok (a, [] ++ t :: after) from hp)

/-! ## Tokens in the place of others -/

/-- Any tokens of a kind. -/
def Known (P : Token → Prop) (_ ts' : List Token) : Prop := ∀ t ∈ ts', P t

/-- Tokens that start like others. -/
structure Alike (P : Token → Prop) (ts ts' : List Token) : Prop where
  known : Known P ts ts'
  first : ts'.head? = ts.head?
  second : ∀ k, wordOf? ts.head? = some k → k.isPaired → wordOf? ts'[1]? = wordOf? ts[1]?

/-- Tokens that start like others and do not go on with a name or a call. -/
structure Stops (P : Token → Prop) (ts ts' : List Token) : Prop extends Alike P ts ts' where
  ends : ∀ m, ts.head? = some (.mark m) → m.goesOn = false

namespace Alike

variable {ts ts' : List Token} {t : Token}

/-- Before tokens that start alike the same token may stand. -/
theorem cons (ht : P t) (h : Alike P ts ts') : Alike P (t :: ts) (t :: ts') where
  known := List.forall_mem_cons.mpr ⟨ht, h.known⟩
  first := rfl
  second _ _ _ := by
    have first : ts'[0]? = ts[0]? := by simpa only [List.head?_eq_getElem?] using h.first
    simp [first]

/-- What follows some tokens is not looked at together with them. -/
theorem of_known (ht : P t) (h : Known P ts ts') (single : ∀ k, wordOf? (some t) = some k → k.isPaired = false) :
    Alike P (t :: ts) (t :: ts') where
  known := List.forall_mem_cons.mpr ⟨ht, h⟩
  first := rfl
  second k hk paired := absurd paired (by simp [single k hk])

theorem mark {m : Mark} (ht : P (.mark m)) (h : Known P ts ts') : Alike P (.mark m :: ts) (.mark m :: ts') :=
  .of_known ht h nofun

theorem refl (h : ∀ t ∈ ts, P t) : Alike P ts ts := ⟨h, rfl, fun _ _ _ => rfl⟩

end Alike

namespace Stops

variable {ts ts' : List Token} {t : Token}

theorem cons (ht : P t) (h : Alike P ts ts') (ends : ∀ m, t = .mark m → m.goesOn = false) :
    Stops P (t :: ts) (t :: ts') where
  toAlike := h.cons ht
  ends m hm := ends m (Option.some.inj hm)

theorem of_known (ht : P t) (h : Known P ts ts') (single : ∀ k, wordOf? (some t) = some k → k.isPaired = false)
    (ends : ∀ m, t = .mark m → m.goesOn = false) : Stops P (t :: ts) (t :: ts') where
  toAlike := .of_known ht h single
  ends m hm := ends m (Option.some.inj hm)

theorem mark {m : Mark} (ht : P (.mark m)) (h : Known P ts ts') (ends : m.goesOn = false) :
    Stops P (.mark m :: ts) (.mark m :: ts') :=
  .of_known ht h nofun fun _ e => Token.mark.inj e ▸ ends

theorem word {name : Ident} {k : Keyword} (ht : P (.word name (some k))) (h : Known P ts ts')
    (single : k.isPaired = false) : Stops P (.word name (some k) :: ts) (.word name (some k) :: ts') :=
  .of_known ht h (fun _ e => Option.some.inj e ▸ single) nofun

end Stops

/-! ## Parsers that follow -/

/-- A parser followed by a family of parsers. What it reads turns into something that one of the
family reads from other tokens: `into` says how these compare with the tokens read, when the
tokens left compare as `out` says with those that are left there. -/
def Tracks (P : Token → Prop) (A : γ → Prop) (T : α → α → Prop) (out into : List Token → List Token → Prop)
    (p : Parser α) (p' : γ → Parser α) : Prop :=
  ∀ ⦃ts rest : List Token⦄ ⦃a : α⦄, p ts = .ok (a, rest) → (∀ t ∈ ts, P t) → (∀ t ∈ rest, P t) ∧
    ∀ ⦃a' : α⦄, T a a' → ∀ ⦃rest' : List Token⦄, out rest rest' →
      ∃ c, A c ∧ ∃ ts', into ts ts' ∧ p' c ts' = .ok (a', rest')

/-- A parser followed by another. -/
abbrev Follows (P : Token → Prop) (T : α → α → Prop) (out into : List Token → List Token → Prop)
    (p p' : Parser α) : Prop :=
  Tracks P (fun _ : Unit => True) T out into p fun _ => p'

/-- A parser whose answer stays followed by itself. -/
abbrev Stays (P : Token → Prop) (out into : List Token → List Token → Prop) (p : Parser α) : Prop :=
  Follows P Eq out into p p

theorem Follows.read {T : α → α → Prop} {out into : List Token → List Token → Prop} {p p' : Parser α}
    (h : Follows P T out into p p') {ts rest rest' : List Token} {a a' : α} (hp : p ts = .ok (a, rest))
    (known : ∀ t ∈ ts, P t) (ha : T a a') (hr : out rest rest') :
    ∃ ts', into ts ts' ∧ p' ts' = .ok (a', rest') := by
  obtain ⟨⟨⟩, -, again⟩ := (h hp known).2 ha hr
  exact again

theorem Follows.of_read {T : α → α → Prop} {out into : List Token → List Token → Prop} {p p' : Parser α}
    (h : ∀ ⦃ts rest⦄ ⦃a⦄, p ts = .ok (a, rest) → (∀ t ∈ ts, P t) → (∀ t ∈ rest, P t) ∧
      ∀ ⦃a'⦄, T a a' → ∀ ⦃rest'⦄, out rest rest' → ∃ ts', into ts ts' ∧ p' ts' = .ok (a', rest')) :
    Follows P T out into p p' :=
  fun _ _ _ hp known => ⟨(h hp known).1, fun _ ha _ hr => ⟨(), trivial, (h hp known).2 ha hr⟩⟩

namespace Tracks

variable {A : γ → Prop} {B : δ → Prop} {T : β → β → Prop} {S : α → α → Prop}
  {out mid into : List Token → List Token → Prop} {p p' : Parser α} {f : α → Parser β}

theorem mono {q : Parser β} {q' : γ → Parser β} {into' : List Token → List Token → Prop}
    (h : Tracks P A T out into q q') (le : ∀ ts ts', into ts ts' → into' ts ts') : Tracks P A T out into' q q' := by
  intro ts rest b hq known
  refine ⟨(h hq known).1, fun b' hb rest' hr => ?_⟩
  obtain ⟨c, hc, ts', hts, again⟩ := (h hq known).2 hb hr
  exact ⟨c, hc, ts', le _ _ hts, again⟩

theorem mono_out {q : Parser β} {q' : γ → Parser β} {out' : List Token → List Token → Prop}
    (h : Tracks P A T out into q q') (le : ∀ ts ts', out' ts ts' → out ts ts') : Tracks P A T out' into q q' :=
  fun _ _ _ hq known => ⟨(h hq known).1, fun _ hb _ hr => (h hq known).2 hb (le _ _ hr)⟩

/-- The family may be another in which the same parsers are found. -/
theorem among {q : Parser β} {q' : γ → Parser β} {r' : δ → Parser β} (h : Tracks P A T out into q q')
    (found : ∀ c, A c → ∃ d, B d ∧ r' d = q' c) : Tracks P B T out into q r' := by
  intro ts rest b hq known
  refine ⟨(h hq known).1, fun b' hb rest' hr => ?_⟩
  obtain ⟨c, hc, ts', hts, again⟩ := (h hq known).2 hb hr
  obtain ⟨d, hd, same⟩ := found c hc
  exact ⟨d, hd, ts', hts, same ▸ again⟩

theorem fail {q' : γ → Parser β} : Tracks P A T out into (Parser.fail : Parser β) q' := by
  intro ts rest b hp
  cases hp

theorem pure {b : β} {g : γ → β} (h : ∀ b', T b b' → ∃ c, A c ∧ g c = b') :
    Tracks P A T into into (Pure.pure b) fun c => Pure.pure (g c) := by
  intro ts rest a hp known
  obtain ⟨rfl, rfl⟩ := Prod.mk.inj (Except.ok.inj hp)
  refine ⟨known, fun b' hb rest' hr => ?_⟩
  obtain ⟨c, hc, rfl⟩ := h b' hb
  exact ⟨c, hc, rest', hr, rfl⟩

/-- What the second parser reads may depend on what the first has read, in both readings. -/
theorem bind {f' : γ → α → Parser β} (hp : Follows P S mid into p p')
    (hf : ∀ a, Tracks P (fun r : γ × α => A r.1 ∧ S a r.2) T out mid (f a) fun r => f' r.1 r.2) :
    Tracks P A T out into (p >>= f) fun c => p' >>= f' c := by
  intro ts rest b h known
  obtain ⟨a, mid, ha, hb⟩ := bind_eq_ok_iff.mp h
  obtain ⟨left, again⟩ := hp ha known
  refine ⟨(hf a hb left).1, fun b' turns rest' hr => ?_⟩
  obtain ⟨⟨c, a'⟩, ⟨hc, ha'⟩, mid', hm, hf'⟩ := (hf a hb left).2 turns hr
  obtain ⟨⟨⟩, -, ts', hts, hp'⟩ := again ha' hm
  exact ⟨c, hc, ts', hts, (bind_of_ok hp').trans hf'⟩

/-- The first parser may be the one that depends on what turns. -/
theorem bind_left {q : Parser α} {q' : γ → Parser α} {f' : α → Parser β} (hq : Tracks P A S mid into q q')
    (hf : ∀ a, Tracks P (S a) T out mid (f a) f') : Tracks P A T out into (q >>= f) fun c => q' c >>= f' := by
  intro ts rest b h known
  obtain ⟨a, mid, ha, hb⟩ := bind_eq_ok_iff.mp h
  obtain ⟨left, again⟩ := hq ha known
  refine ⟨(hf a hb left).1, fun b' turns rest' hr => ?_⟩
  obtain ⟨a', ha', mid', hm, hf'⟩ := (hf a hb left).2 turns hr
  obtain ⟨c, hc, ts', hts, hq'⟩ := again ha' hm
  exact ⟨c, hc, ts', hts, (bind_of_ok hq').trans hf'⟩

/-- What stays is the same in both readings. -/
theorem bind_eq {f' : γ → α → Parser β} (hp : Follows P Eq mid into p p')
    (hf : ∀ a, Tracks P A T out mid (f a) fun c => f' c a) :
    Tracks P A T out into (p >>= f) fun c => p' >>= f' c := by
  intro ts rest b h known
  obtain ⟨a, mid, ha, hb⟩ := bind_eq_ok_iff.mp h
  obtain ⟨left, again⟩ := hp ha known
  refine ⟨(hf a hb left).1, fun b' turns rest' hr => ?_⟩
  obtain ⟨c, hc, mid', hm, hf'⟩ := (hf a hb left).2 turns hr
  obtain ⟨⟨⟩, -, ts', hts, hp'⟩ := again rfl hm
  exact ⟨c, hc, ts', hts, (bind_of_ok hp').trans hf'⟩

theorem ite {C : Prop} [Decidable C] {q r : Parser β} {q' r' : γ → Parser β} (hq : Tracks P A T out into q q')
    (hr : Tracks P A T out into r r') :
    Tracks P A T out into (if C then q else r) fun c => if C then q' c else r' c := by
  split
  · exact hq
  · exact hr

theorem get_bind {g : List Token → Parser β} {g' : γ → List Token → Parser β}
    (h : Tracks P A T out into (fun ts => g ts ts) fun c ts => g' c ts ts) :
    Tracks P A T out into (get >>= g) fun c => get >>= g' c := h

/-! ### By the first token -/

/-- A token that is taken stands in both. -/
theorem take_bind {g : Token → Parser β} {g' : γ → Token → Parser β}
    (h : ∀ t, P t → Tracks P A T out (fun ts ts' => into (t :: ts) (t :: ts')) (g t) fun c => g' c t) :
    Tracks P A T out into (take >>= g) fun c => take >>= g' c := by
  intro ts rest b hp known
  cases ts with
  | nil => cases hp
  | cons t ts =>
    obtain ⟨ht, known⟩ := List.forall_mem_cons.mp known
    have hg : g t ts = .ok (b, rest) := hp
    refine ⟨(h t ht hg known).1, fun b' hb rest' hr => ?_⟩
    obtain ⟨c, hc, ts', hts, again⟩ := (h t ht hg known).2 hb hr
    exact ⟨c, hc, t :: ts', hts, again⟩

end Tracks

/-- A keyword may be looked for in tokens that compare as `into` says: when it stands first in
one it does in the other, and before any tokens it makes them compare in this way. -/
structure Skips (P : Token → Prop) (k : Keyword) (into : List Token → List Token → Prop) : Prop where
  word {name : Ident} {ts ts' : List Token} (ht : P (.word name (some k))) (h : Known P ts ts') :
    into (.word name (some k) :: ts) (.word name (some k) :: ts')
  other {ts ts' : List Token} (h : into ts ts') (first : wordOf? ts.head? ≠ some k) : wordOf? ts'.head? ≠ some k
  known {ts ts' : List Token} (h : into ts ts') : Known P ts ts'

theorem Alike.skips {k : Keyword} (single : k.isPaired = false) : Skips P k (Alike P) where
  word ht h := .of_known ht h fun _ e => Option.some.inj e ▸ single
  other h first := h.first ▸ first
  known := Alike.known

theorem Stops.skips {k : Keyword} (single : k.isPaired = false) : Skips P k (Stops P) where
  word ht h := .word ht h single
  other h first := h.first ▸ first
  known h := h.known

theorem skipWord_of_wordOf? {k : Keyword} {ts : List Token} (h : wordOf? ts.head? ≠ some k) :
    skipWord k ts = .ok (false, ts) :=
  skipWord_other fun name e => h (by rw [e]; rfl)

/-- The same with a mark. -/
structure SkipsMark (P : Token → Prop) (m : Mark) (into : List Token → List Token → Prop) : Prop where
  mark {ts ts' : List Token} (ht : P (.mark m)) (h : Known P ts ts') : into (.mark m :: ts) (.mark m :: ts')
  other {ts ts' : List Token} (h : into ts ts') (first : ts.head? ≠ some (.mark m)) : ts'.head? ≠ some (.mark m)

theorem Alike.skipsMark {m : Mark} : SkipsMark P m (Alike P) where
  mark := Alike.mark
  other h first := h.first ▸ first

theorem Stops.skipsMark {m : Mark} (ends : m.goesOn = false) : SkipsMark P m (Stops P) where
  mark ht h := .mark ht h ends
  other h first := h.first ▸ first

namespace Tracks

variable {A : γ → Prop} {T : β → β → Prop} {out into : List Token → List Token → Prop}

theorem skipWord_bind {k : Keyword} {f : Bool → Parser β} {f' : γ → Bool → Parser β} (hk : Skips P k into)
    (yes : Tracks P A T out (Known P) (f true) fun c => f' c true)
    (no : Tracks P A T out into (f false) fun c => f' c false) :
    Tracks P A T out into (skipWord k >>= f) fun c => skipWord k >>= f' c := by
  intro ts rest b hp known
  by_cases first : wordOf? ts.head? = some k
  · obtain ⟨name, ts, rfl⟩ := exists_word first
    obtain ⟨ht, known⟩ := List.forall_mem_cons.mp known
    rw [bind_of_ok (skipWord_self name k)] at hp
    refine ⟨(yes hp known).1, fun b' hb rest' hr => ?_⟩
    obtain ⟨c, hc, ts', hts, again⟩ := (yes hp known).2 hb hr
    exact ⟨c, hc, _, hk.word ht hts, (bind_of_ok (skipWord_self name k)).trans again⟩
  · rw [bind_of_ok (skipWord_of_wordOf? first)] at hp
    refine ⟨(no hp known).1, fun b' hb rest' hr => ?_⟩
    obtain ⟨c, hc, ts', hts, again⟩ := (no hp known).2 hb hr
    exact ⟨c, hc, ts', hts, (bind_of_ok (skipWord_of_wordOf? (hk.other hts first))).trans again⟩

theorem skipMark_bind {m : Mark} {f : Bool → Parser β} {f' : γ → Bool → Parser β} (hm : SkipsMark P m into)
    (yes : Tracks P A T out (Known P) (f true) fun c => f' c true)
    (no : Tracks P A T out into (f false) fun c => f' c false) :
    Tracks P A T out into (skipMark m >>= f) fun c => skipMark m >>= f' c := by
  intro ts rest b hp known
  by_cases first : ts.head? = some (.mark m)
  · obtain ⟨ts, rfl⟩ := List.head?_eq_some_iff.mp first
    obtain ⟨ht, known⟩ := List.forall_mem_cons.mp known
    rw [bind_of_ok (skipMark_self m)] at hp
    refine ⟨(yes hp known).1, fun b' hb rest' hr => ?_⟩
    obtain ⟨c, hc, ts', hts, again⟩ := (yes hp known).2 hb hr
    exact ⟨c, hc, _, hm.mark ht hts, (bind_of_ok (skipMark_self m)).trans again⟩
  · rw [bind_of_ok (skipMark_other first)] at hp
    refine ⟨(no hp known).1, fun b' hb rest' hr => ?_⟩
    obtain ⟨c, hc, ts', hts, again⟩ := (no hp known).2 hb hr
    exact ⟨c, hc, ts', hts, (bind_of_ok (skipMark_other (hm.other hts first))).trans again⟩

/-- Tokens that start with the same one are looked at alike. -/
theorem peek_bind {f : Option Token → Parser β} {f' : γ → Option Token → Parser β}
    (same : ∀ {ts ts'}, into ts ts' → ts'.head? = ts.head?)
    (h : ∀ t, Tracks P A T out into (f t) fun c => f' c t) :
    Tracks P A T out into (peek >>= f) fun c => peek >>= f' c := by
  intro ts rest b hp known
  rw [bind_of_ok peek_apply] at hp
  refine ⟨(h _ hp known).1, fun b' hb rest' hr => ?_⟩
  obtain ⟨c, hc, ts', hts, again⟩ := (h _ hp known).2 hb hr
  exact ⟨c, hc, ts', hts, (bind_of_ok peek_apply).trans (by rw [same hts]; exact again)⟩

/-- What two parsers do when some token, or none, comes first: they go on as others do, or take
the token and go on. -/
inductive First (P : Token → Prop) (A : γ → Prop) (T : β → β → Prop) (out into : List Token → List Token → Prop)
    (p : Parser β) (p' : γ → Parser β) (first : Option Token) : Prop
  | keeps (q : Parser β) (q' : γ → Parser β) (h : Tracks P A T out into q q')
    (same : ∀ ts, ts.head? = first → p ts = q ts ∧ ∀ c, p' c ts = q' c ts)
  | eats (t : Token) (q : Parser β) (q' : γ → Parser β) (is : first = some t)
    (h : P t → Tracks P A T out (fun ts ts' => into (t :: ts) (t :: ts')) q q')
    (same : ∀ ts, p (t :: ts) = q ts ∧ ∀ c, p' c (t :: ts) = q' c ts)

/-- The first token settles what is read, where it is the same in both. -/
theorem of_first {p : Parser β} {p' : γ → Parser β} (same : ∀ {ts ts'}, into ts ts' → ts'.head? = ts.head?)
    (h : ∀ first, First P A T out into p p' first) : Tracks P A T out into p p' := by
  intro ts rest b hp known
  obtain ⟨q, q', hq, equal⟩ | ⟨t, q, q', is, hq, equal⟩ := h ts.head?
  · rw [(equal ts rfl).1] at hp
    refine ⟨(hq hp known).1, fun b' hb rest' hr => ?_⟩
    obtain ⟨c, hc, ts', hts, again⟩ := (hq hp known).2 hb hr
    exact ⟨c, hc, ts', hts, ((equal ts' (same hts)).2 c).trans again⟩
  · obtain ⟨ts, rfl⟩ := List.head?_eq_some_iff.mp is
    obtain ⟨ht, known⟩ := List.forall_mem_cons.mp known
    rw [(equal ts).1] at hp
    refine ⟨(hq ht hp known).1, fun b' hb rest' hr => ?_⟩
    obtain ⟨c, hc, ts', hts, again⟩ := (hq ht hp known).2 hb hr
    exact ⟨c, hc, t :: ts', hts, ((equal ts').2 c).trans again⟩

end Tracks

/-- Two keywords may be looked for together. -/
structure SkipsPair (P : Token → Prop) (k l : Keyword) (into : List Token → List Token → Prop) : Prop where
  pair {i j : Ident} {ts ts' : List Token} (hi : P (.word i (some k))) (hj : P (.word j (some l)))
    (h : Known P ts ts') :
    into (.word i (some k) :: .word j (some l) :: ts) (.word i (some k) :: .word j (some l) :: ts')
  other {ts ts' : List Token} (h : into ts ts') (second : ¬ (wordOf? ts.head? = some k ∧ wordOf? ts[1]? = some l)) :
    ¬ (wordOf? ts'.head? = some k ∧ wordOf? ts'[1]? = some l)

theorem Alike.skipsPair {k l : Keyword} (paired : k.isPaired) (single : l.isPaired = false) :
    SkipsPair P k l (Alike P) where
  pair hi hj h := .cons hi (.of_known hj h fun _ e => Option.some.inj e ▸ single)
  other h second both := by
    rw [h.first] at both
    exact second ⟨both.1, h.second k both.1 paired ▸ both.2⟩

theorem Stops.skipsPair {k l : Keyword} (paired : k.isPaired) (single : l.isPaired = false) :
    SkipsPair P k l (Stops P) where
  pair hi hj h := .cons hi (.of_known hj h fun _ e => Option.some.inj e ▸ single) nofun
  other h := (Alike.skipsPair paired single).other h.toAlike

namespace Tracks

variable {A : γ → Prop} {T : β → β → Prop} {out into : List Token → List Token → Prop}

theorem skipWords_bind {k l : Keyword} {f : Bool → Parser β} {f' : γ → Bool → Parser β} (hk : SkipsPair P k l into)
    (yes : Tracks P A T out (Known P) (f true) fun c => f' c true)
    (no : Tracks P A T out into (f false) fun c => f' c false) :
    Tracks P A T out into (skipWords k l >>= f) fun c => skipWords k l >>= f' c := by
  intro ts rest b hp known
  by_cases first : wordOf? ts.head? = some k ∧ wordOf? ts[1]? = some l
  · obtain ⟨i, ts, rfl⟩ := exists_word first.1
    obtain ⟨j, ts, rfl⟩ : ∃ j more, ts = .word j (some l) :: more :=
      exists_word (by simpa [List.head?_eq_getElem?] using first.2)
    simp only [List.forall_mem_cons] at known
    obtain ⟨hi, hj, known⟩ := known
    rw [bind_of_ok (skipWords_pair i j k l ts)] at hp
    refine ⟨(yes hp known).1, fun b' hb rest' hr => ?_⟩
    obtain ⟨c, hc, ts', hts, again⟩ := (yes hp known).2 hb hr
    exact ⟨c, hc, _, hk.pair hi hj hts, (bind_of_ok (skipWords_pair i j k l ts')).trans again⟩
  · rw [bind_of_ok (skipWords_other first)] at hp
    refine ⟨(no hp known).1, fun b' hb rest' hr => ?_⟩
    obtain ⟨c, hc, ts', hts, again⟩ := (no hp known).2 hb hr
    exact ⟨c, hc, ts', hts, (bind_of_ok (skipWords_other (hk.other hts first))).trans again⟩

end Tracks

/-! ## Parsers of what stays around what turns -/

section Around

variable {T : α → α → Prop} {out into : List Token → List Token → Prop} {p p' : Parser α}

theorem expectWord_stays {k : Keyword} (hk : Skips P k into) : Stays P (Known P) into (expectWord k) :=
  Tracks.skipWord_bind hk (.pure fun _ _ => ⟨(), trivial, rfl⟩) .fail

theorem expectMark_stays {m : Mark} (hm : SkipsMark P m into) : Stays P (Known P) into (expectMark m) :=
  Tracks.skipMark_bind hm (.pure fun _ _ => ⟨(), trivial, rfl⟩) .fail

/-- A keyword and what follows it, or nothing. -/
theorem after_follows {k : Keyword} (hk : Skips P k out) (h : Follows P T out (Known P) p p') :
    Follows P (Option.Rel T) out out (after k p) (after k p') := by
  refine Tracks.skipWord_bind hk (Tracks.bind h fun a => ?_) (.pure ?_)
  · refine .pure ?_
    rintro _ ⟨ha⟩
    exact ⟨((), _), ⟨trivial, ha⟩, rfl⟩
  · rintro _ ⟨⟩
    exact ⟨(), trivial, rfl⟩

/-- Behind parentheses anything may stand. -/
theorem parenthesised_tracks {A : γ → Prop} {p' : γ → Parser α} (hm : SkipsMark P .leftParen into)
    (h : Tracks P A T (Stops P) (Known P) p p') :
    Tracks P A T (Known P) into (parenthesised p) fun c => parenthesised (p' c) := by
  refine Tracks.bind_eq (expectMark_stays hm) fun _ => Tracks.bind_left h fun a => ?_
  refine Tracks.bind_eq (expectMark_stays (Stops.skipsMark rfl)) fun _ => ?_
  exact .pure fun a' ha => ⟨a', ha, rfl⟩

end Around

/-! ## Loops -/

/-- A parser that goes round a number of times at most. A round tells whether another one follows, and
then it takes a token at least. -/
structure Rounds (one : α → Parser (Bool × α)) (loop : Nat → α → Parser α) : Prop where
  zero (a : α) : loop 0 a = return a
  succ (n : Nat) (a : α) : loop (n + 1) a = do
    let r ← one a
    if r.1 then loop n r.2 else return r.2
  takes {a b : α} {ts rest : List Token} (h : one a ts = .ok ((true, b), rest)) : rest.length < ts.length
  enough {n m : Nat} {a : α} {ts : List Token} (hn : ts.length ≤ n) (hm : ts.length ≤ m) : loop n a ts = loop m a ts

namespace Rounds

variable {one one' : α → Parser (Bool × α)} {loop loop' : Nat → α → Parser α} {T : α → α → Prop}

theorem of_first (h : Rounds one loop) {a b : α} {more : Bool} {ts mid : List Token} {r : α × List Token}
    (first : one a ts = .ok ((more, b), mid))
    (read : (if more then loop mid.length b else return b) mid = .ok r) : loop ts.length a ts = .ok r := by
  rw [h.enough (Nat.le_refl _) (Nat.le_succ _), h.succ]
  refine (bind_of_ok first).trans ?_
  cases more with
  | false => exact read
  | true => exact (h.enough (Nat.le_of_lt (h.takes first)) (Nat.le_refl _)).trans read

theorem tracks (h : Rounds one loop) (h' : Rounds one' loop')
    (round : ∀ a, Tracks P (T a) (fun r r' => r'.1 = r.1 ∧ T r.2 r'.2) (Stops P) (Stops P) (one a) one') (a : α) :
    Tracks P (T a) T (Stops P) (Stops P) (do loop (← get).length a) (fun a' => do loop' (← get).length a') := by
  -- by the number of rounds, which there are no more of than tokens
  have some (n : Nat) : ∀ a ts rest b, ts.length ≤ n → loop n a ts = .ok (b, rest) → (∀ t ∈ ts, P t) →
      (∀ t ∈ rest, P t) ∧ ∀ b', T b b' → ∀ rest', Stops P rest rest' →
        ∃ a', T a a' ∧ ∃ ts', Stops P ts ts' ∧ loop' ts'.length a' ts' = .ok (b', rest') := by
    induction n with
    | zero =>
      intro a ts rest b enough hp known
      obtain rfl := List.eq_nil_of_length_eq_zero (Nat.le_zero.mp enough)
      rw [h.zero] at hp
      obtain ⟨rfl, rfl⟩ := Prod.mk.inj (Except.ok.inj hp)
      refine ⟨known, fun b' turns rest' hr => ⟨b', turns, rest', hr, ?_⟩⟩
      obtain rfl := List.head?_eq_none_iff.mp hr.first
      rw [List.length_nil, h'.zero]
      rfl
    | succ n ih =>
      intro a ts rest b enough hp known
      rw [h.succ] at hp
      obtain ⟨⟨more, c⟩, mid, hc, hp⟩ := bind_eq_ok_iff.mp hp
      obtain ⟨knownMid, first⟩ := round a hc known
      cases more with
      | true =>
        have fewer := h.takes hc
        obtain ⟨knownRest, goes⟩ := ih c mid rest b (by omega) hp knownMid
        refine ⟨knownRest, fun b' turns rest' hr => ?_⟩
        obtain ⟨c', turnsOne, mid', hm, again⟩ := goes b' turns rest' hr
        obtain ⟨a', turnsFirst, ts', hts, hc'⟩ := @first (true, c') ⟨rfl, turnsOne⟩ _ hm
        exact ⟨a', turnsFirst, ts', hts, h'.of_first hc' again⟩
      | false =>
        obtain ⟨rfl, rfl⟩ := Prod.mk.inj (Except.ok.inj hp)
        refine ⟨knownMid, fun b' turns rest' hr => ?_⟩
        obtain ⟨a', turnsFirst, ts', hts, hc'⟩ := @first (false, b') ⟨rfl, turns⟩ _ hr
        exact ⟨a', turnsFirst, ts', hts, h'.of_first hc' rfl⟩
  intro ts rest b hp known
  obtain ⟨knownRest, more⟩ := some ts.length a ts rest b (Nat.le_refl _) hp known
  exact ⟨knownRest, fun b' turns rest' hr => more b' turns rest' hr⟩

end Rounds

end Parser

end DetectionPlan.Sql
