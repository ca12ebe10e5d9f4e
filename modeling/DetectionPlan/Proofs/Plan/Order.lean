/-
Which nodes can be brought into order, and in which order. There is one when no node
reads from itself, directly or through others; it is then the first of all orders in
which every node stands behind what it reads from (`order_least`). Else the nodes that
lead into a cycle are reported (`order_fails_iff`).
-/
import DetectionPlan.Proofs.Plan.Cycle

namespace DetectionPlan.Dependencies

open Relation (TransGen)

variable {deps : Dependencies}

/-- Nodes read only from nodes that are there. -/
def Bounded (deps : Dependencies) : Prop := ∀ sources ∈ deps, ∀ s ∈ sources, s < deps.length

instance : Decidable deps.Bounded := inferInstanceAs (Decidable (∀ sources ∈ deps, ∀ s ∈ sources, _))

/-- No node reads from itself, directly or through others. -/
def Acyclic (deps : Dependencies) : Prop := ∀ n, ¬ TransGen deps.Reads n n

/-- All nodes in an order in which each stands behind what it reads from. -/
structure Sorts (deps : Dependencies) (o : List Nat) : Prop where
  perm : o.Perm (List.range deps.length)
  ordered : Ordered deps o

theorem Reads.lt {n s : Nat} (h : deps.Reads n s) : n < deps.length := by
  by_contra out
  rw [Reads, sources_of_length_le (Nat.le_of_not_lt out)] at h
  cases h

theorem Bounded.lt_of_reads (h : deps.Bounded) : ∀ n, ∀ s ∈ deps.sources n, s < deps.length := by
  intro n s reads
  have there : n < deps.length := Reads.lt reads
  refine h _ (List.getElem_mem there) s ?_
  simpa [sources, there] using reads

/-! ## The first order -/

/-- Of two ways to go on behind the same nodes, one of which is greedy, the greedy one comes
first in the order of words. -/
theorem Greedy.lex_of_sorts (front : List Nat) {l l' : List Nat} (greedy : Greedy deps (front ++ l))
    (sorts : deps.Sorts (front ++ l')) (len : l.length = l'.length) :
    l = l' ∨ List.Lex (· < ·) l l' := by
  induction l generalizing front l' with
  | nil => exact .inl (List.length_eq_zero_iff.mp len.symm).symm
  | cons a l ih =>
    obtain _ | ⟨b, l'⟩ := l'
    · cases len
    have other : deps.Placeable front b := by
      refine ⟨List.mem_range.mp (sorts.perm.mem_iff.mp (by simp)), fun again => ?_,
        sorts.ordered front b l' rfl⟩
      have nodup := sorts.perm.nodup_iff.mpr List.nodup_range
      exact (List.nodup_append.mp nodup).2.2 b again b List.mem_cons_self rfl
    rcases Nat.lt_or_eq_of_le ((greedy front a l rfl).2 b other) with lt | rfl
    · exact .inr (.rel lt)
    · rcases ih (front ++ [a]) (by simpa using greedy) (by simpa using sorts)
        (Nat.succ.inj len) with rfl | less
      · exact .inl rfl
      · exact .inr (.cons less)

theorem lt_of_transGen {n m : Nat} (h : TransGen deps.Reads n m) : n < deps.length := by
  obtain ⟨_, reads, -⟩ := TransGen.head'_iff.mp h
  exact Reads.lt reads

theorem exists_order_error_iff (bounded : deps.Bounded) :
    (∃ stuck, deps.order = .error stuck) ↔ ∃ n, TransGen deps.Reads n n := by
  constructor
  · rintro ⟨stuck, failed⟩
    obtain ⟨nonempty, rfl⟩ := order_error failed bounded.lt_of_reads
    obtain ⟨n, hn⟩ := List.exists_mem_of_ne_nil _ nonempty
    obtain ⟨c, -, cycle⟩ : ReachesCycle deps.Reads n := by simpa using (List.mem_filter.mp hn).2
    exact ⟨c, cycle⟩
  · rintro ⟨n, cycle⟩
    cases outcome : deps.order with
    | error stuck => exact ⟨stuck, rfl⟩
    | ok o => exact absurd ⟨n, .refl, cycle⟩ (order_ok_acyclic outcome (lt_of_transGen cycle))

theorem exists_order_of_acyclic (bounded : deps.Bounded) (acyclic : deps.Acyclic) :
    ∃ o, deps.order = .ok o := by
  cases outcome : deps.order with
  | ok o => exact ⟨o, rfl⟩
  | error stuck =>
    obtain ⟨n, cycle⟩ := (exists_order_error_iff bounded).mp ⟨stuck, outcome⟩
    exact absurd cycle (acyclic n)

theorem acyclic_of_order {o : List Nat} (h : deps.order = .ok o) : deps.Acyclic :=
  fun n cycle => order_ok_acyclic h (lt_of_transGen cycle) ⟨n, .refl, cycle⟩

/-- **The order that is found.** When no node reads from itself, directly or through others,
all nodes are brought into an order in which each stands behind what it reads from. At each
place stands the first declared of the nodes that could stand there, and no order of the nodes
comes before this one in the order of words. On the way, cycles or not, a count is only lowered
where it is above zero, however often a node lists a source. -/
theorem order_least (bounded : deps.Bounded) :
    (deps.Acyclic → ∃ o, deps.order = .ok o ∧ deps.Sorts o ∧ Greedy deps o ∧
      ∀ o', deps.Sorts o' → o = o' ∨ List.Lex (· < ·) o o') ∧
    ∀ s node, deps.Releases s node → ∃ count, s.missing[node]? = some (count + 1) := by
  refine ⟨fun acyclic => ?_, fun s node told => told.missing⟩
  obtain ⟨o, found⟩ := exists_order_of_acyclic bounded acyclic
  obtain ⟨greedy, perm⟩ := order_greedy found
  refine ⟨o, found, ⟨perm, greedy.ordered⟩, greedy, fun o' sorts => ?_⟩
  exact greedy.lex_of_sorts [] sorts (perm.trans sorts.perm.symm).length_eq

/-- Four nodes, of which the first and the third list a source twice. -/
def listedTwice : Dependencies := [[1, 1], [], [0, 1, 0], []]

theorem order_least_listedTwice : listedTwice.Bounded ∧ listedTwice.Acyclic ∧
    (∃ s, listedTwice.Releases s 0) ∧ listedTwice.order = .ok [1, 0, 2, 3] ∧
    listedTwice.Sorts [1, 0, 2, 3] ∧ Greedy listedTwice [1, 0, 2, 3] ∧
    (∀ o', listedTwice.Sorts o' → [1, 0, 2, 3] = o' ∨ List.Lex (· < ·) [1, 0, 2, 3] o') ∧
    ∀ s node, listedTwice.Releases s node → ∃ count, s.missing[node]? = some (count + 1) := by
  have bounded : listedTwice.Bounded := by decide
  have computed : listedTwice.order = .ok [1, 0, 2, 3] := by decide +kernel
  have acyclic := acyclic_of_order computed
  obtain ⟨found, released⟩ := order_least bounded
  obtain ⟨o, ordered, sorts, greedy, least⟩ := found acyclic
  obtain rfl := Except.ok.inj (ordered.symm.trans computed)
  have readers : listedTwice.dependents 1 = [] ++ 0 :: [0, 2] := by decide
  have told : listedTwice.Releases _ 0 := .tell .start (by decide) readers
  exact ⟨bounded, acyclic, ⟨_, told⟩, computed, sorts, greedy, least, released⟩

/-! ## Nodes that cannot be placed -/

/-- **When there is no order.** No order is found exactly when a node reads from itself, directly
or through others. Then those nodes are reported, in the order of their declaration and each
once, from which a cycle can be reached along what nodes read from. -/
theorem order_fails_iff (bounded : deps.Bounded) :
    ((∃ stuck, deps.order = .error stuck) ↔ ∃ n, TransGen deps.Reads n n) ∧
    ∀ stuck, deps.order = .error stuck →
      stuck.Pairwise (· < ·) ∧ ∀ n, n ∈ stuck ↔ ReachesCycle deps.Reads n := by
  refine ⟨exists_order_error_iff bounded, fun stuck failed => ?_⟩
  obtain ⟨-, rfl⟩ := order_error failed bounded.lt_of_reads
  refine ⟨List.pairwise_lt_range.filter _, fun n => ?_⟩
  simp only [List.mem_filter, List.mem_range, decide_eq_true_eq, and_iff_right_iff_imp]
  intro cyclic
  obtain ⟨s, reads, -⟩ := cyclic.next
  exact Reads.lt reads

/-- A node that reads from nothing, two that read from each other, and one downstream of them. -/
def knotted : Dependencies := [[], [2], [1], [2]]

theorem order_fails_iff_knotted : knotted.Bounded ∧ knotted.order = .error [1, 2, 3] ∧
    (∃ n, TransGen knotted.Reads n n) ∧ [1, 2, 3].Pairwise (· < ·) ∧
    ∀ n, n ∈ [1, 2, 3] ↔ ReachesCycle knotted.Reads n := by
  have bounded : knotted.Bounded := by decide
  have computed : knotted.order = .error [1, 2, 3] := by decide +kernel
  obtain ⟨fails, reports⟩ := order_fails_iff bounded
  exact ⟨bounded, computed, fails.mp ⟨_, computed⟩, reports _ computed⟩

end DetectionPlan.Dependencies
