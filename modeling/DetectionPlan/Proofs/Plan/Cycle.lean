/-
Nodes that cannot be placed. A node waits for ever exactly when it reads, directly or
through others, from a node that reads from itself (`order_error`, `order_ok_acyclic`).
-/
import DetectionPlan.Proofs.Plan.Schedule
import Mathlib.Data.Fintype.Pigeonhole
import Mathlib.Data.List.Sort
import Mathlib.Data.Set.Finite.Basic
import Mathlib.Logic.Relation

namespace DetectionPlan

open Relation (ReflTransGen TransGen)

/-- From an element, a step relation leads to one that it leads back to. -/
def ReachesCycle {α : Type} (r : α → α → Prop) (a : α) : Prop :=
  ∃ c, ReflTransGen r a c ∧ TransGen r c c

namespace ReachesCycle

variable {α β : Type} {r : α → α → Prop} {q : β → β → Prop}

theorem next {a : α} (h : ReachesCycle r a) : ∃ b, r a b ∧ ReachesCycle r b := by
  obtain ⟨c, path, cycle⟩ := h
  rcases path.cases_head with rfl | ⟨b, step, path⟩
  · obtain ⟨b, step, path⟩ := TransGen.head'_iff.mp cycle
    exact ⟨b, step, a, path, cycle⟩
  · exact ⟨b, step, c, path, cycle⟩

/-- Finitely many elements, each with a step to one of them, all lead into cycles. -/
theorem of_closed {l : List α} (closed : ∀ a ∈ l, ∃ b ∈ l, r a b) {a : α} (ha : a ∈ l) :
    ReachesCycle r a := by
  choose next mem step using closed
  let walk : {b // b ∈ l} → {b // b ∈ l} := fun b => ⟨next b.1 b.2, mem b.1 b.2⟩
  let at' (k : ℕ) : {b // b ∈ l} := walk^[k] ⟨a, ha⟩
  have stepAt (k : ℕ) : r (at' k) (at' (k + 1)) := by
    simp only [at', Function.iterate_succ_apply']
    exact step _ _
  have later (k d : ℕ) : ReflTransGen r (at' k) (at' (k + d)) := by
    induction d with
    | zero => exact .refl
    | succ d ih => exact ih.tail (stepAt (k + d))
  have : Finite {b // b ∈ l} := (List.finite_toSet l).to_subtype
  obtain ⟨i, j, ne, same⟩ := Finite.exists_ne_map_eq_of_infinite at'
  -- Of the two places where the walk is at one element, `i` is the first.
  wlog lt : i < j generalizing i j
  · exact this j i ne.symm same.symm (by omega)
  have start : ReflTransGen r a (at' i) := Nat.zero_add i ▸ later 0 i
  refine ⟨at' i, start, ?_⟩
  have back : ReflTransGen r (at' (i + 1)) (at' i) := by
    have := later (i + 1) (j - (i + 1))
    rwa [show i + 1 + (j - (i + 1)) = j by omega, ← same] at this
  exact TransGen.head' (stepAt i) back

theorem simulate {R : α → β → Prop} (step : ∀ a b, R a b → ∀ a', r a a' → ∃ b', R a' b' ∧ q b b')
    (one : ∀ a b b', R a b → R a b' → b = b') {a : α} {b : β} (hab : R a b)
    (h : ReachesCycle r a) : ReachesCycle q b := by
  have along {a : α} {b : β} (hab : R a b) {c : α} (path : ReflTransGen r a c) :
      ∃ d, R c d ∧ ReflTransGen q b d := by
    induction path with
    | refl => exact ⟨b, hab, .refl⟩
    | tail _ last ih =>
      obtain ⟨d, hd, path⟩ := ih
      obtain ⟨d', hd', last⟩ := step _ _ hd _ last
      exact ⟨d', hd', path.tail last⟩
  obtain ⟨c, path, cycle⟩ := h
  obtain ⟨d, hd, path'⟩ := along hab path
  obtain ⟨c', first, back⟩ := TransGen.head'_iff.mp cycle
  obtain ⟨d', hd', first'⟩ := step _ _ hd _ first
  obtain ⟨e, he, back'⟩ := along hd' back
  obtain rfl := one _ _ _ hd he
  exact ⟨d, path', TransGen.head' first' back'⟩

end ReachesCycle

namespace Dependencies

variable {deps : Dependencies}

/-- A node reads from another. -/
def Reads (deps : Dependencies) (n s : Nat) : Prop := s ∈ deps.sources n

/-- A node that stands behind all it reads from does not lead into a cycle. -/
theorem Ordered.not_reachesCycle {l : List Nat} (h : Ordered deps l) {n : Nat} (hn : n ∈ l) :
    ¬ ReachesCycle deps.Reads n := by
  obtain ⟨before, after, e⟩ := List.append_of_mem hn
  -- The length of what stands before a node drops with every step along what it reads from.
  induction hk : before.length using Nat.strong_induction_on generalizing n before after with
  | _ k ih =>
    intro cyclic
    obtain ⟨s, reads, cyclic⟩ := cyclic.next
    obtain ⟨front, rest, rfl⟩ := List.append_of_mem (h before n after e s reads)
    refine ih front.length ?_ (n := s) ?_ front (rest ++ n :: after) ?_ rfl cyclic
    · simp only [List.length_append, List.length_cons] at hk
      omega
    · simp [e]
    · simp [e]

theorem order_ok_acyclic {o : List Nat} (h : deps.order = .ok o) {n : Nat} (hn : n < deps.length) :
    ¬ ReachesCycle deps.Reads n := by
  obtain ⟨perm, ordered⟩ := order_ok h
  exact ordered.not_reachesCycle (perm.mem_iff.mpr (List.mem_range.mpr hn))

/-- When no node can be placed any more, those that are left lead into cycles. -/
theorem reachesCycle_of_not_placeable {placed : List Nat} (done : ∀ n, ¬ deps.Placeable placed n)
    (bounded : ∀ n, ∀ s ∈ deps.sources n, s < deps.length) {n : Nat} (lt : n < deps.length)
    (left : n ∉ placed) : ReachesCycle deps.Reads n := by
  refine ReachesCycle.of_closed (l := (List.range deps.length).filter (· ∉ placed)) ?_
    (by simp [lt, left])
  intro m hm
  obtain ⟨lt, left⟩ : m < deps.length ∧ m ∉ placed := by simpa using hm
  have missing : ¬ ∀ s ∈ deps.sources m, s ∈ placed := fun sources => done m ⟨lt, left, sources⟩
  push Not at missing
  obtain ⟨s, reads, missing⟩ := missing
  exact ⟨s, by simp [bounded m s reads, missing], reads⟩

open Classical in
/-- The nodes that cannot be placed are those that lead into a cycle, in order. -/
theorem order_error {stuck : List Nat} (h : deps.order = .error stuck)
    (bounded : ∀ n, ∀ s ∈ deps.sources n, s < deps.length) :
    stuck ≠ [] ∧ stuck = (List.range deps.length).filter fun n => ReachesCycle deps.Reads n := by
  obtain ⟨placed, greedy, done, outcome⟩ := order_spec deps
  rw [h] at outcome
  split at outcome
  next => cases outcome
  next short =>
    obtain rfl := Except.error.inj outcome
    refine ⟨fun none => short ?_, List.filter_congr fun n hn => ?_⟩
    · have all : List.range deps.length ⊆ placed := fun n hn => by
        simpa using List.filter_eq_nil_iff.mp none n hn
      have few := (List.nodup_range.subperm all).length_le
      have many := (greedy.nodup.subperm fun n hn => List.mem_range.mpr (greedy.lt hn)).length_le
      rw [List.length_range] at few many
      exact Nat.le_antisymm many few
    · rw [decide_eq_decide]
      exact ⟨reachesCycle_of_not_placeable done bounded (List.mem_range.mp hn),
        fun cyclic hp => greedy.ordered.not_reachesCycle hp cyclic⟩

end Dependencies

end DetectionPlan
