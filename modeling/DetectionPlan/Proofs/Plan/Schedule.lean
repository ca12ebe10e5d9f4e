/-
The order and the levels of nodes that read from one another. `Layered` says
what a run relies on: every node stands in exactly one stage, and all that it
reads from stands in earlier ones. It holds of the single nodes in their order
(`layered_order`) and of the levels (`layered_levels`).
-/
import DetectionPlan.Proofs.Plan.Sorting
import Mathlib.Data.List.Perm.Subperm

namespace DetectionPlan.Dependencies

variable {deps : Dependencies}

/-- Stages of nodes: every node is in one of them, and all it reads from is in
stages before that one. -/
structure Layered (deps : Dependencies) (stages : List (List Nat)) : Prop where
  perm : stages.flatten.Perm (List.range deps.length)
  sources : ∀ before stage after, stages = before ++ stage :: after →
    ∀ n ∈ stage, ∀ s ∈ deps.sources n, s ∈ before.flatten

/-! ## The order -/

/-- Nodes placed one by one are all nodes when there are as many. -/
theorem Greedy.perm {l : List Nat} (h : Greedy deps l) (all : l.length = deps.length) :
    l.Perm (List.range deps.length) :=
  (h.nodup.subperm fun _ hn => List.mem_range.mpr (h.lt hn)).perm_of_length_le (by simp [all])

theorem order_greedy {o : List Nat} (h : deps.order = .ok o) :
    Greedy deps o ∧ o.Perm (List.range deps.length) := by
  obtain ⟨placed, greedy, -, outcome⟩ := order_spec deps
  rw [h] at outcome
  split at outcome
  next all =>
    obtain rfl := Except.ok.inj outcome
    exact ⟨greedy, greedy.perm all⟩
  next => cases outcome

/-- An order that is found has every node once, behind all it reads from. -/
theorem order_ok {o : List Nat} (h : deps.order = .ok o) :
    o.Perm (List.range deps.length) ∧ Ordered deps o := by
  obtain ⟨greedy, perm⟩ := order_greedy h
  exact ⟨perm, greedy.ordered⟩

theorem layered_order {o : List Nat} (h : deps.order = .ok o) : Layered deps (o.map ([·])) := by
  obtain ⟨perm, ordered⟩ := order_ok h
  have flat : ∀ l : List Nat, (l.map ([·])).flatten = l := fun l => by
    rw [← List.flatMap_def]; simp
  refine ⟨by rwa [flat], ?_⟩
  intro before stage after e n hn s hs
  obtain ⟨l₁, l₂, rfl, h₁, h₂⟩ := List.map_eq_append_iff.mp e
  obtain ⟨m, l₃, rfl, rfl, -⟩ := List.map_eq_cons_iff.mp h₂
  obtain rfl : n = m := by simpa using hn
  rw [← h₁, flat]
  exact ordered l₁ n l₃ rfl s hs

/-! ## The levels -/

theorem le_foldl_max {l : List Nat} {a : Nat} (h : a ∈ l) (b : Nat) : a ≤ l.foldl max b := by
  have start : ∀ (l : List Nat) (b : Nat), b ≤ l.foldl max b := by
    intro l
    induction l with
    | nil => intro b; exact Nat.le_refl b
    | cons c l ih => intro b; exact Nat.le_trans (Nat.le_max_left b c) (ih _)
  induction l generalizing b with
  | nil => simp at h
  | cons c l ih =>
    rcases List.mem_cons.mp h with rfl | h
    · exact Nat.le_trans (Nat.le_max_right b a) (start l _)
    · exact ih h _

theorem depths_append (deps : Dependencies) (l m : List Nat) :
    ∃ more, deps.depths (l ++ m) = deps.depths l ++ more ∧ more.map (·.1) = m := by
  induction m generalizing l with
  | nil => exact ⟨[], by simp, rfl⟩
  | cons n m ih =>
    obtain ⟨more, he, hk⟩ := ih (l ++ [n])
    refine ⟨(n, depths.depthAfter deps (deps.depths l) n) :: more, ?_, by simp [hk]⟩
    rw [← List.append_cons] at he
    rw [he, depths, List.foldl_append]
    simp [depths]

theorem map_fst_depths (deps : Dependencies) (l : List Nat) : (deps.depths l).map (·.1) = l := by
  obtain ⟨more, he, hk⟩ := depths_append deps [] l
  rw [List.nil_append] at he
  rw [he, List.map_append, hk]
  rfl

/-- The depth of a placed node, in whatever order it is placed. -/
theorem lookup_depths_append_cons {before after : List Nat} {n : Nat} (h : n ∉ before) :
    (deps.depths (before ++ n :: after)).lookup n =
      some (depths.depthAfter deps (deps.depths before) n) := by
  obtain ⟨more, he, -⟩ := depths_append deps (before ++ [n]) after
  have hb : (deps.depths before).lookup n = none := by
    rw [List.lookup_eq_none_iff]
    intro p hp
    rw [bne_iff_ne]
    rintro rfl
    exact h (by rw [← map_fst_depths deps before]; exact List.mem_map_of_mem hp)
  have last : deps.depths (before ++ [n]) =
      deps.depths before ++ [(n, depths.depthAfter deps (deps.depths before) n)] := by
    rw [depths, List.foldl_append]
    rfl
  rw [List.append_cons, he, last]
  simp [List.lookup_append, hb]

theorem lookup_depths_of_mem (deps : Dependencies) {l : List Nat} {n : Nat} (h : n ∈ l) :
    ∃ d, (deps.depths l).lookup n = some d := by
  rw [← Option.isSome_iff_exists, Option.isSome_iff_ne_none, Ne, List.lookup_eq_none_iff]
  intro none
  rw [← map_fst_depths deps l] at h
  obtain ⟨p, hp, rfl⟩ := List.mem_map.mp h
  simpa using none p hp

/-- What a node reads from is less deep than the node. -/
theorem depth_lt {o : List Nat} (ordered : Ordered deps o) (nodup : o.Nodup) {n s d : Nat}
    (hn : (deps.depths o).lookup n = some d) (hs : s ∈ deps.sources n) :
    ∃ e, (deps.depths o).lookup s = some e ∧ e < d := by
  have mem : n ∈ o := by
    obtain ⟨l₁, l₂, he, -⟩ := List.lookup_eq_some_iff.mp hn
    rw [← map_fst_depths deps o, he]
    simp
  obtain ⟨before, after, rfl⟩ := List.append_of_mem mem
  have fresh : n ∉ before := by
    rw [List.nodup_append] at nodup
    exact fun h => nodup.2.2 n h n (by simp) rfl
  obtain ⟨e, he⟩ := lookup_depths_of_mem deps (ordered before n after rfl s hs)
  obtain ⟨more, hm, -⟩ := depths_append deps before (n :: after)
  refine ⟨e, by simp [hm, List.lookup_append, he], ?_⟩
  rw [lookup_depths_append_cons fresh] at hn
  obtain rfl := Option.some.inj hn
  refine Nat.lt_of_succ_le (le_foldl_max ?_ 0)
  exact List.mem_map.mpr ⟨s, hs, by simp [he]⟩

theorem eq_range_of_range_eq_append_cons {k i : Nat} {l₁ l₂ : List Nat}
    (h : List.range k = l₁ ++ i :: l₂) : l₁ = List.range i := by
  have len : l₁.length < k := by
    have := congrArg List.length h
    simp at this
    omega
  have hi : l₁.length = i := by
    have := congrArg (·[l₁.length]?) h
    simpa [List.getElem?_range len] using this
  have front := congrArg (List.take l₁.length) h
  rw [List.take_left, List.take_range, Nat.min_eq_left (Nat.le_of_lt len), hi] at front
  exact front.symm

theorem mem_levels_flatten {o : List Nat} {n : Nat} {k : Nat} :
    n ∈ ((List.range k).map fun level =>
        (List.range deps.length).filter fun node => (deps.depths o).lookup node == some level).flatten ↔
      n < deps.length ∧ ∃ d, d < k ∧ (deps.depths o).lookup n = some d := by
  simp only [List.mem_flatten, List.mem_map, List.mem_range]
  constructor
  · rintro ⟨_, ⟨d, hd, rfl⟩, hn⟩
    simp only [List.mem_filter, List.mem_range, beq_iff_eq] at hn
    exact ⟨hn.1, d, hd, hn.2⟩
  · rintro ⟨hn, d, hd, hl⟩
    exact ⟨_, ⟨d, hd, rfl⟩, by simp [hn, hl]⟩

theorem nodup_levels_flatten (deps : Dependencies) (o : List Nat) : (deps.levels o).flatten.Nodup := by
  rw [List.nodup_flatten]
  constructor
  · intro l hl
    obtain ⟨level, -, rfl⟩ := List.mem_map.mp hl
    exact List.nodup_range.filter _
  · rw [levels, List.pairwise_map]
    refine List.nodup_range.imp fun {i j} hij n hi hj => hij ?_
    simp only [List.mem_filter, beq_iff_eq] at hi hj
    exact Option.some.inj (hi.2.symm.trans hj.2)

theorem layered_levels {o : List Nat} (h : deps.order = .ok o) : Layered deps (deps.levels o) := by
  obtain ⟨perm, ordered⟩ := order_ok h
  have nodup : o.Nodup := perm.nodup_iff.mpr List.nodup_range
  constructor
  · rw [List.perm_ext_iff_of_nodup (nodup_levels_flatten deps o) List.nodup_range]
    intro n
    rw [levels, mem_levels_flatten, List.mem_range]
    refine ⟨fun h => h.1, fun hn => ⟨hn, ?_⟩⟩
    obtain ⟨d, hd⟩ := lookup_depths_of_mem deps (perm.mem_iff.mpr (List.mem_range.mpr hn))
    obtain ⟨l₁, l₂, he, -⟩ := List.lookup_eq_some_iff.mp hd
    refine ⟨d, Nat.lt_of_succ_le (le_foldl_max ?_ 0), hd⟩
    exact List.mem_map.mpr ⟨(n, d), by simp [he], rfl⟩
  · intro before stage after e n hn s hs
    obtain ⟨l₁, l₂, hr, rfl, h₂⟩ := List.map_eq_append_iff.mp e
    obtain ⟨level, l₃, rfl, rfl, -⟩ := List.map_eq_cons_iff.mp h₂
    obtain rfl := eq_range_of_range_eq_append_cons hr
    simp only [List.mem_filter, List.mem_range, beq_iff_eq] at hn
    obtain ⟨d, hd, hlt⟩ := depth_lt ordered nodup hn.2 hs
    rw [mem_levels_flatten]
    refine ⟨?_, d, hlt, hd⟩
    obtain ⟨m₁, m₂, he, -⟩ := List.lookup_eq_some_iff.mp hd
    have mem : s ∈ o := by rw [← map_fst_depths deps o, he]; simp
    simpa using perm.mem_iff.mp mem

end DetectionPlan.Dependencies
