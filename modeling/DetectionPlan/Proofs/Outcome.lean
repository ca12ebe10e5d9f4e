/-
Outcomes taken apart: a chain of steps succeeds when each step does, and a
list of them when all do. What steps with a state keep of it (`Keeps`).
-/
import DetectionPlan.Error
import Mathlib.Data.List.Forall2

namespace DetectionPlan.Outcome

variable {ε α β : Type}

theorem bind_ok_iff {x : Except ε α} {f : α → Except ε β} {b : β} :
    (x >>= f) = .ok b ↔ ∃ a, x = .ok a ∧ f a = .ok b := by
  cases x with
  | error e => simp [bind, Except.bind]
  | ok a => simp [bind, Except.bind]

/-- A check before something else. -/
theorem check_ok_iff {x : Except ε Unit} {f : Unit → Except ε β} {b : β} :
    (x >>= f) = .ok b ↔ x = .ok () ∧ f () = .ok b :=
  bind_ok_iff.trans ⟨fun ⟨_, h⟩ => h, fun h => ⟨(), h⟩⟩

theorem discard_ok_iff {x : Except ε α} : discard x = .ok () ↔ ∃ a, x = .ok a := by
  cases x with
  | error e => simp [discard, Functor.mapConst, Except.map]
  | ok a => simp [discard, Functor.mapConst, Except.map]

theorem map_ok_iff {x : Except ε α} {f : α → β} {b : β} :
    x.map f = .ok b ↔ ∃ a, x = .ok a ∧ f a = b := by
  cases x with
  | error e => simp [Except.map]
  | ok a => simp [Except.map]

theorem ok_of_toOption {x : Except ε α} {a : α} (h : x.toOption = some a) : x = .ok a := by
  cases x with
  | error e => cases h
  | ok b => exact congrArg Except.ok (Option.some.inj h)

theorem exists_ok {x : Except ε α} (h : x.isOk = true) : ∃ a, x = .ok a := by
  cases x with
  | error e => cases h
  | ok a => exact ⟨a, rfl⟩

theorem exists_error {x : Except ε α} (h : x.isOk = false) : ∃ e, x = .error e := by
  cases x with
  | error e => exact ⟨e, rfl⟩
  | ok a => cases h

theorem pure_ok_iff {a b : α} : (pure a : Except ε α) = .ok b ↔ a = b := by
  simp [pure, Except.pure]

/-- A list of steps succeeds when all of them do, each with its own result. -/
theorem mapM_ok_iff {f : α → Except ε β} {l : List α} {r : List β} :
    l.mapM f = .ok r ↔ List.Forall₂ (fun a b => f a = .ok b) l r := by
  induction l generalizing r with
  | nil =>
    rw [List.mapM_nil, pure_ok_iff, List.forall₂_nil_left_iff]
    exact eq_comm
  | cons a l ih =>
    rw [List.mapM_cons, bind_ok_iff, List.forall₂_cons_left_iff]
    constructor
    · rintro ⟨b, hb, h⟩
      obtain ⟨bs, hbs, h⟩ := bind_ok_iff.mp h
      obtain rfl := pure_ok_iff.mp h
      exact ⟨b, bs, hb, ih.mp hbs, rfl⟩
    · rintro ⟨b, bs, hb, hbs, rfl⟩
      exact ⟨b, hb, bind_ok_iff.mpr ⟨bs, ih.mpr hbs, rfl⟩⟩

theorem map_eq_of_forall₂ {γ : Type} {R : α → β → Prop} {g : β → γ} {k : α → γ} {l : List α}
    {r : List β} (h : List.Forall₂ R l r) (same : ∀ a b, R a b → g b = k a) : r.map g = l.map k := by
  induction h with
  | nil => rfl
  | cons h _ ih => rw [List.map_cons, List.map_cons, same _ _ h, ih]

theorem exists_mem_of_forall₂ {R : α → β → Prop} {l : List α} {r : List β}
    (h : List.Forall₂ R l r) {a : α} (ha : a ∈ l) : ∃ b ∈ r, R a b := by
  induction h with
  | nil => cases ha
  | cons h _ ih =>
    rcases List.mem_cons.mp ha with rfl | ha
    · exact ⟨_, List.mem_cons_self, h⟩
    · obtain ⟨b, hb, hr⟩ := ih ha
      exact ⟨b, List.mem_cons_of_mem _ hb, hr⟩

/-- Related lists split alike. -/
theorem forall₂_append_cons_right {R : α → β → Prop} {l : List α} {r₁ r₂ : List β} {b : β}
    (h : List.Forall₂ R l (r₁ ++ b :: r₂)) :
    ∃ l₁ a l₂, l = l₁ ++ a :: l₂ ∧ List.Forall₂ R l₁ r₁ ∧ R a b := by
  induction r₁ generalizing l with
  | nil =>
    obtain ⟨a, l₂, hab, -, rfl⟩ := List.forall₂_cons_right_iff.mp h
    exact ⟨[], a, l₂, rfl, .nil, hab⟩
  | cons c r₁ ih =>
    obtain ⟨x, l', hx, hl, rfl⟩ := List.forall₂_cons_right_iff.mp h
    obtain ⟨l₁, a, l₂, rfl, front, hab⟩ := ih hl
    exact ⟨x :: l₁, a, l₂, rfl, .cons hx front, hab⟩

theorem exists_mapM_ok {f : α → Except ε β} {l : List α} (h : ∀ a ∈ l, ∃ b, f a = .ok b) :
    ∃ r, l.mapM f = .ok r := by
  induction l with
  | nil => exact ⟨[], mapM_ok_iff.mpr .nil⟩
  | cons a l ih =>
    obtain ⟨b, hb⟩ := h a List.mem_cons_self
    obtain ⟨r, hr⟩ := ih fun c hc => h c (List.mem_cons_of_mem _ hc)
    exact ⟨b :: r, mapM_ok_iff.mpr (.cons hb (mapM_ok_iff.mp hr))⟩

theorem bind_error_iff {x : Except ε α} {f : α → Except ε β} {e : ε} :
    (x >>= f) = .error e ↔ x = .error e ∨ ∃ a, x = .ok a ∧ f a = .error e := by
  cases x with
  | error e => simp [bind, Except.bind]
  | ok a => simp [bind, Except.bind]

/-- A list of steps fails as the first of them that fails. -/
theorem mapM_error_iff {f : α → Except ε β} {l : List α} {e : ε} :
    l.mapM f = .error e ↔ ∃ before a after, l = before ++ a :: after ∧
      (∀ x ∈ before, ∃ b, f x = .ok b) ∧ f a = .error e := by
  induction l with
  | nil => simp [pure, Except.pure]
  | cons a l ih =>
    rw [List.mapM_cons, bind_error_iff]
    constructor
    · rintro (h | ⟨b, hb, h⟩)
      · exact ⟨[], a, l, rfl, nofun, h⟩
      · rcases bind_error_iff.mp h with h | ⟨_, _, h⟩
        · obtain ⟨before, c, after, rfl, fine, hc⟩ := ih.mp h
          refine ⟨a :: before, c, after, rfl, ?_, hc⟩
          rintro x (_ | ⟨_, hx⟩)
          · exact ⟨b, hb⟩
          · exact fine x hx
        · cases h
    · rintro ⟨before, c, after, split, fine, hc⟩
      cases before with
      | nil =>
        obtain ⟨rfl, rfl⟩ := List.cons.inj split
        exact .inl hc
      | cons x before =>
        obtain ⟨rfl, rfl⟩ := List.cons.inj split
        obtain ⟨b, hb⟩ := fine a List.mem_cons_self
        have rest := ih.mpr ⟨before, c, after, rfl, fun y hy => fine y (List.mem_cons_of_mem _ hy), hc⟩
        exact .inr ⟨b, hb, bind_error_iff.mpr (.inl rest)⟩

/-- A list of checks goes through if each of them does. -/
theorem forM_ok_iff {f : α → Except ε Unit} {l : List α} :
    l.forM f = .ok () ↔ ∀ a ∈ l, f a = .ok () := by
  induction l with
  | nil => exact iff_of_true rfl nofun
  | cons a l ih =>
    rw [List.forall_mem_cons, ← ih]
    exact check_ok_iff

theorem mapM_map {γ : Type} (f : α → Except ε β) (g : β → γ) (l : List α) :
    (l.mapM fun a => (f a).map g) = (l.mapM f).map (List.map g) := by
  induction l with
  | nil => rfl
  | cons a l ih =>
    simp only [List.mapM_cons, ih]
    cases f a with
    | error e => rfl
    | ok b => cases l.mapM f <;> rfl

/-- Steps of which each goes through or not, whatever came before it, go through in a row if all
of them do. -/
theorem exists_foldlM_ok_iff {f : β → α → Except ε β} {P : α → Prop}
    (h : ∀ b a, (∃ r, f b a = .ok r) ↔ P a) {l : List α} {b : β} :
    (∃ r, l.foldlM f b = .ok r) ↔ ∀ a ∈ l, P a := by
  induction l generalizing b with
  | nil => simp [pure, Except.pure]
  | cons a l ih =>
    simp only [List.foldlM_cons, bind_ok_iff, List.forall_mem_cons]
    constructor
    · intro ⟨r, mid, first, rest⟩
      exact ⟨(h b a).mp ⟨mid, first⟩, ih.mp ⟨r, rest⟩⟩
    · intro ⟨first, rest⟩
      obtain ⟨mid, hm⟩ := (h b a).mpr first
      obtain ⟨r, hr⟩ := ih (b := mid).mpr rest
      exact ⟨r, mid, hm, hr⟩

/-- What each step keeps, steps in a row keep. -/
theorem foldlM_keeps {f : β → α → Except ε β} {I : β → Prop}
    (step : ∀ b a r, I b → f b a = .ok r → I r) {l : List α} {b r : β} (start : I b)
    (h : l.foldlM f b = .ok r) : I r := by
  induction l generalizing b with
  | nil => exact pure_ok_iff.mp h ▸ start
  | cons a l ih =>
    rw [List.foldlM_cons] at h
    obtain ⟨mid, first, rest⟩ := bind_ok_iff.mp h
    exact ih (step b a mid start first) rest

end DetectionPlan.Outcome

namespace DetectionPlan

/-- A computation that keeps an invariant of its state, and results in something of a kind. -/
def Keeps {σ ε α : Type} (I : σ → Prop) (P : α → Prop) (w : StateT σ (Except ε) α) : Prop :=
  ∀ ⦃s t : σ⦄ ⦃a : α⦄, w s = .ok (a, t) → I s → P a ∧ I t

namespace Keeps

variable {σ ε α β : Type} {I : σ → Prop} {P : α → Prop} {Q : β → Prop}

theorem pure {a : α} (h : P a) : Keeps I P (Pure.pure a : StateT σ (Except ε) α) := by
  intro s t b hw inv
  obtain ⟨rfl, rfl⟩ := Prod.mk.inj (Except.ok.inj hw)
  exact ⟨h, inv⟩

theorem throw (e : ε) : Keeps I P (throw e : StateT σ (Except ε) α) := by
  intro s t a hw
  cases hw

theorem bind {w : StateT σ (Except ε) α} {f : α → StateT σ (Except ε) β} (h : Keeps I P w)
    (hf : ∀ a, P a → Keeps I Q (f a)) : Keeps I Q (w >>= f) := by
  intro s t b hw inv
  obtain ⟨⟨a, mid⟩, ha, hb⟩ := Outcome.bind_ok_iff.mp hw
  obtain ⟨pa, inv⟩ := h ha inv
  exact hf a pa hb inv

/-- Without an invariant there is nothing to keep. -/
theorem trivial (w : StateT σ (Except ε) α) : Keeps (fun _ => True) (fun _ => True) w :=
  fun _ _ _ _ _ => ⟨True.intro, True.intro⟩

/-- A step without a state. -/
theorem lift {x : Except ε α} (h : ∀ a, x = .ok a → P a) : Keeps I P (x : StateT σ (Except ε) α) := by
  intro s t b hw inv
  obtain ⟨a, ha, made⟩ := Outcome.bind_ok_iff.mp hw
  obtain ⟨rfl, rfl⟩ := Prod.mk.inj (Except.ok.inj made)
  exact ⟨h a ha, inv⟩

theorem get_bind {g : σ → StateT σ (Except ε) α} (h : ∀ s, Keeps I P (g s)) : Keeps I P (get >>= g) :=
  fun s _ _ hw inv => h s hw inv

theorem mono {P' : α → Prop} {w : StateT σ (Except ε) α} (h : Keeps I P w) (le : ∀ a, P a → P' a) :
    Keeps I P' w :=
  fun _ _ a hw inv => ⟨le a (h hw inv).1, (h hw inv).2⟩

theorem map {w : StateT σ (Except ε) α} {g : α → β} (h : Keeps I P w) (hg : ∀ a, P a → Q (g a)) :
    Keeps I Q (g <$> w) := by
  rw [map_eq_pure_bind]
  exact h.bind fun a ha => .pure (hg a ha)

theorem ite {w v : StateT σ (Except ε) α} {C : Prop} [Decidable C] (hw : Keeps I P w) (hv : Keeps I P v) :
    Keeps I P (if C then w else v) := by
  split
  · exact hw
  · exact hv

theorem mapM {γ : Type} {f : γ → StateT σ (Except ε) α} {l : List γ} (h : ∀ c ∈ l, Keeps I P (f c)) :
    Keeps I (fun as => ∀ a ∈ as, P a) (l.mapM f) := by
  induction l with
  | nil => exact .pure nofun
  | cons c l ih =>
    rw [List.mapM_cons]
    refine (h c (by simp)).bind fun a ha => (ih fun d hd => h d (by simp [hd])).bind fun as has => ?_
    exact .pure (by simpa using ⟨ha, has⟩)

end Keeps

end DetectionPlan
