/-
The levels of nodes that can run at the same time. The depth that a node gets on the way
along the order is the length of the longest chain of nodes below it, each read by the one
before (`isGreatest_depth`). So the nodes of one depth read from none of their own depth or
a deeper one, and every depth up to the greatest has a node (`levels_stratify`).
-/
import DetectionPlan.Proofs.Keyed
import DetectionPlan.Proofs.Plan.Order
import Mathlib.Order.Bounds.Defs

namespace DetectionPlan.Dependencies

open Relation (TransGen)

variable {deps : Dependencies} {o : List Nat}

/-- Below a node there is a chain of so many nodes, each read by the one before. -/
inductive Chain (deps : Dependencies) : Nat → Nat → Prop where
  | none (n : Nat) : Chain deps n 0
  | step {n s k : Nat} (reads : deps.Reads n s) (below : Chain deps s k) : Chain deps n (k + 1)

/-! ## Depths -/

theorem foldl_max_eq_or_mem (l : List Nat) (b : Nat) : l.foldl max b = b ∨ l.foldl max b ∈ l := by
  induction l generalizing b with
  | nil => exact .inl rfl
  | cons c l ih =>
    rw [List.foldl_cons]
    rcases ih (max b c) with same | mem
    · rw [same]
      rcases Nat.le_total b c with le | le
      · exact .inr (by simp [Nat.max_eq_right le])
      · exact .inl (Nat.max_eq_left le)
    · exact .inr (List.mem_cons_of_mem c mem)

/-- A list of numbers below which there is something has a greatest one. -/
theorem foldl_max_mem {l : List Nat} (pos : 0 < l.foldl max 0) : l.foldl max 0 ∈ l :=
  (foldl_max_eq_or_mem l 0).resolve_left (Nat.ne_of_gt pos)

theorem mem_of_lookup_depths {n d : Nat} (h : (deps.depths o).lookup n = some d) : n ∈ o := by
  obtain ⟨l₁, l₂, split, -⟩ := List.lookup_eq_some_iff.mp h
  rw [← map_fst_depths deps o, split]
  simp

theorem lookup_depths_of_entry (nodup : o.Nodup) {n d : Nat} (h : (n, d) ∈ deps.depths o) :
    (deps.depths o).lookup n = some d := by
  rw [← map_fst_depths deps o] at nodup
  exact (Keyed.get?_eq_some_iff (m := ⟨deps.depths o⟩) nodup).mpr h

/-- A node that is not at the top reads from one that is just above it. -/
theorem exists_reads_of_depth_succ (ordered : Ordered deps o) (nodup : o.Nodup) {n d : Nat}
    (h : (deps.depths o).lookup n = some (d + 1)) :
    ∃ s, deps.Reads n s ∧ (deps.depths o).lookup s = some d := by
  obtain ⟨before, after, rfl⟩ := List.append_of_mem (mem_of_lookup_depths h)
  have fresh : n ∉ before := fun again =>
    (List.nodup_append.mp nodup).2.2 n again n List.mem_cons_self rfl
  rw [lookup_depths_append_cons fresh] at h
  have deepest : ((deps.sources n).map fun s =>
      ((deps.depths before).lookup s).getD 0 + 1).foldl max 0 = d + 1 := Option.some.inj h
  obtain ⟨s, reads, depth⟩ := List.mem_map.mp (foldl_max_mem (by rw [deepest]; exact d.succ_pos))
  obtain ⟨e, found⟩ := lookup_depths_of_mem deps (ordered before n after rfl s reads)
  obtain ⟨more, later, -⟩ := depths_append deps before (n :: after)
  refine ⟨s, reads, ?_⟩
  rw [found, Option.getD_some] at depth
  obtain rfl : e = d := Nat.succ.inj (depth.trans deepest)
  simp [later, List.lookup_append, found]

/-- Above a node there is one of each lesser depth. -/
theorem exists_of_le_depth (ordered : Ordered deps o) (nodup : o.Nodup) {n d i : Nat}
    (h : (deps.depths o).lookup n = some d) (le : i ≤ d) :
    ∃ m, (deps.depths o).lookup m = some i := by
  induction d generalizing n with
  | zero =>
    obtain rfl := Nat.le_zero.mp le
    exact ⟨n, h⟩
  | succ d ih =>
    rcases Nat.lt_or_eq_of_le le with lt | rfl
    · obtain ⟨s, -, depth⟩ := exists_reads_of_depth_succ ordered nodup h
      exact ih depth (Nat.le_of_lt_succ lt)
    · exact ⟨n, h⟩

theorem chain_of_depth (ordered : Ordered deps o) (nodup : o.Nodup) {n d : Nat}
    (h : (deps.depths o).lookup n = some d) : deps.Chain n d := by
  induction d generalizing n with
  | zero => exact .none n
  | succ d ih =>
    obtain ⟨s, reads, depth⟩ := exists_reads_of_depth_succ ordered nodup h
    exact .step reads (ih depth)

theorem Chain.le_depth {n k : Nat} (chain : deps.Chain n k) (ordered : Ordered deps o)
    (nodup : o.Nodup) {d : Nat} (h : (deps.depths o).lookup n = some d) : k ≤ d := by
  induction chain generalizing d with
  | none => exact Nat.zero_le d
  | step reads _ ih =>
    obtain ⟨e, depth, lt⟩ := depth_lt ordered nodup h reads
    exact Nat.lt_of_le_of_lt (ih depth) lt

/-- The depth of a node is the length of the longest chain below it. -/
theorem isGreatest_depth (ordered : Ordered deps o) (nodup : o.Nodup) {n d : Nat}
    (h : (deps.depths o).lookup n = some d) : IsGreatest {k | deps.Chain n k} d :=
  ⟨chain_of_depth ordered nodup h, fun _ chain => chain.le_depth ordered nodup h⟩

/-- What a node reads from, directly or through others, is less deep. -/
theorem depth_lt_of_transGen (ordered : Ordered deps o) (nodup : o.Nodup) {n m d : Nat}
    (path : TransGen deps.Reads n m) (h : (deps.depths o).lookup n = some d) :
    ∃ e, (deps.depths o).lookup m = some e ∧ e < d := by
  induction path with
  | single reads => exact depth_lt ordered nodup h reads
  | tail _ reads ih =>
    obtain ⟨e, depth, lt⟩ := ih
    obtain ⟨e', depth', lt'⟩ := depth_lt ordered nodup depth reads
    exact ⟨e', depth', Nat.lt_trans lt' lt⟩

/-! ## Levels -/

theorem getElem?_levels {i : Nat} {level : List Nat} (h : (deps.levels o)[i]? = some level) :
    i < ((deps.depths o).map fun d => d.2 + 1).foldl max 0 ∧
    level = (List.range deps.length).filter fun n => (deps.depths o).lookup n == some i := by
  simp only [levels, List.getElem?_map, Option.map_eq_some_iff, List.getElem?_eq_some_iff,
    List.length_range, List.getElem_range] at h
  obtain ⟨_, ⟨lt, rfl⟩, rfl⟩ := h
  exact ⟨lt, rfl⟩

theorem mem_level_iff {i n : Nat} {level : List Nat} (h : (deps.levels o)[i]? = some level) :
    n ∈ level ↔ n < deps.length ∧ (deps.depths o).lookup n = some i := by
  rw [(getElem?_levels h).2]
  simp

/-- As deep as a node is, so many levels there are, and one more. -/
theorem level_ne_nil (perm : o.Perm (List.range deps.length)) (ordered : Ordered deps o) {i : Nat}
    {level : List Nat} (h : (deps.levels o)[i]? = some level) : level ≠ [] := by
  have nodup : o.Nodup := perm.nodup_iff.mpr List.nodup_range
  have lt := (getElem?_levels h).1
  obtain ⟨⟨n, d⟩, entry, top⟩ := List.mem_map.mp (foldl_max_mem (Nat.zero_lt_of_lt lt))
  rw [← top] at lt
  obtain ⟨m, depth⟩ := exists_of_le_depth ordered nodup (lookup_depths_of_entry nodup entry)
    (Nat.le_of_lt_succ lt)
  have there : m < deps.length := List.mem_range.mp (perm.mem_iff.mp (mem_of_lookup_depths depth))
  exact List.ne_nil_of_mem ((mem_level_iff h).mpr ⟨there, depth⟩)

/-- **The levels.** When no node reads from itself, directly or through others, there is an order
of the nodes. The levels of an order that is found hold every node once. No level is empty, and in
each the nodes stand as they are declared. The place of a node's level is the length of the longest
chain of nodes below it, and no node reads, directly or through others, from a node of its own level
or of a later one. -/
theorem levels_stratify (deps : Dependencies) :
    (deps.Bounded → deps.Acyclic → ∃ o, deps.order = .ok o) ∧
    ∀ o, deps.order = .ok o → (deps.levels o).flatten.Perm (List.range deps.length) ∧
      (∀ level ∈ deps.levels o, level ≠ [] ∧ level.Pairwise (· < ·)) ∧
      ∀ i level, (deps.levels o)[i]? = some level → ∀ n ∈ level,
        IsGreatest {k | deps.Chain n k} i ∧
        ∀ j other, (deps.levels o)[j]? = some other → i ≤ j →
          ∀ m ∈ other, ¬ TransGen deps.Reads n m := by
  refine ⟨exists_order_of_acyclic, fun o found => ?_⟩
  obtain ⟨perm, ordered⟩ := order_ok found
  have nodup : o.Nodup := perm.nodup_iff.mpr List.nodup_range
  refine ⟨(layered_levels found).perm, fun level mem => ?_, fun i level here n hn => ?_⟩
  · obtain ⟨i, here⟩ := List.mem_iff_getElem?.mp mem
    refine ⟨level_ne_nil perm ordered here, ?_⟩
    rw [(getElem?_levels here).2]
    exact List.pairwise_lt_range.filter _
  · have depth := ((mem_level_iff here).mp hn).2
    refine ⟨isGreatest_depth ordered nodup depth, fun j other there le m hm path => ?_⟩
    obtain ⟨e, depth', lt⟩ := depth_lt_of_transGen ordered nodup path depth
    rw [((mem_level_iff there).mp hm).2] at depth'
    obtain rfl := Option.some.inj depth'
    exact Nat.not_lt_of_le le lt

theorem levels_stratify_listedTwice : listedTwice.Bounded ∧ listedTwice.Acyclic ∧
    (∃ o, listedTwice.order = .ok o) ∧ listedTwice.order = .ok [1, 0, 2, 3] ∧
    listedTwice.levels [1, 0, 2, 3] = [[1, 3], [0], [2]] ∧
    (listedTwice.levels [1, 0, 2, 3]).flatten.Perm (List.range 4) ∧
    IsGreatest {k | listedTwice.Chain 2 k} 2 ∧ ¬ TransGen listedTwice.Reads 1 2 := by
  have bounded : listedTwice.Bounded := by decide
  have computed : listedTwice.order = .ok [1, 0, 2, 3] := by decide +kernel
  have levels : listedTwice.levels [1, 0, 2, 3] = [[1, 3], [0], [2]] := by decide +kernel
  have acyclic := acyclic_of_order computed
  obtain ⟨found, stratified⟩ := levels_stratify listedTwice
  obtain ⟨perm, -, places⟩ := stratified _ computed
  refine ⟨bounded, acyclic, found bounded acyclic, computed, levels, perm, ?_⟩
  rw [levels] at places
  exact ⟨(places 2 [2] rfl 2 (by simp)).1,
    (places 0 [1, 3] rfl 1 (by simp)).2 2 [2] rfl (by decide) 2 (by simp)⟩

end DetectionPlan.Dependencies
