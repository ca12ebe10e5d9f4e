/-
Bringing nodes into order by counting. `Sound` is what holds between any two steps:
the counts are those of the sources that are still to be placed, the ready nodes are
those for which the count is zero, and each placed node was the least of the nodes
that could stand next (`Greedy`). So a node that is told of a source always has one
to be told of (`Releases.missing`), and when no node is ready any more, the nodes with
a count above zero are those that have not been placed (`order_spec`).
-/
import DetectionPlan.Plan.Schedule
import Mathlib.Data.List.Count
import Mathlib.Data.List.Nodup

namespace DetectionPlan.Dependencies

variable {deps : Dependencies}

/-! ## Lists in which every element suits what stands before it -/

theorem forall_split_snoc {P : List Nat → Nat → Prop} {l : List Nat} {n : Nat}
    (h : ∀ before m after, l = before ++ m :: after → P before m) (last : P l n) :
    ∀ before m after, l ++ [n] = before ++ m :: after → P before m := by
  intro before m after e
  rcases List.eq_nil_or_concat after with rfl | ⟨after, x, rfl⟩
  · obtain ⟨rfl, hm⟩ := List.append_inj' e rfl
    obtain rfl : n = m := by simpa using hm
    exact last
  · have e' : l ++ [n] = (before ++ m :: after) ++ [x] := by simp [e]
    exact h before m after (List.append_inj' e' rfl).1

/-- Every node of a list stands behind all that it reads from. -/
def Ordered (deps : Dependencies) (l : List Nat) : Prop :=
  ∀ before n after, l = before ++ n :: after → ∀ s ∈ deps.sources n, s ∈ before

/-- A node can stand next: it has not been placed, and all that it reads from has. -/
structure Placeable (deps : Dependencies) (placed : List Nat) (n : Nat) : Prop where
  lt : n < deps.length
  fresh : n ∉ placed
  sources : ∀ s ∈ deps.sources n, s ∈ placed

/-- Every node of a list is the least of those that could stand where it stands. -/
def Greedy (deps : Dependencies) (l : List Nat) : Prop :=
  ∀ before n after, l = before ++ n :: after →
    deps.Placeable before n ∧ ∀ m, deps.Placeable before m → n ≤ m

namespace Greedy

variable {l : List Nat}

theorem nil : Greedy deps [] := by
  intro before n after h
  simp at h

theorem ordered (h : Greedy deps l) : Ordered deps l :=
  fun before n after e => (h before n after e).1.sources

theorem lt (h : Greedy deps l) {n : Nat} (hn : n ∈ l) : n < deps.length := by
  obtain ⟨before, after, rfl⟩ := List.append_of_mem hn
  exact (h before n after rfl).1.lt

theorem nodup (h : Greedy deps l) : l.Nodup := by
  rw [List.nodup_iff_sublist]
  intro n twice
  obtain ⟨before, rest, rfl, front, back⟩ := List.cons_sublist_iff.mp twice
  obtain ⟨first, second, rfl⟩ := List.append_of_mem (List.singleton_sublist.mp back)
  exact (h (before ++ first) n second (by simp)).1.fresh (List.mem_append_left _ front)

end Greedy

/-! ## Counting the sources that are missing -/

/-- How many of its sources a node still waits for: those that are not placed, and those
that are placed and of which it is still to be told. -/
def waits (deps : Dependencies) (untold placed : List Nat) (n : Nat) : Nat :=
  (deps.sources n).countP (· ∉ placed) + untold.count n

theorem sources_of_length_le {n : Nat} (h : deps.length ≤ n) : deps.sources n = [] := by
  simp [sources, h]

theorem waits_eq_zero_iff {placed : List Nat} {n : Nat} :
    deps.waits [] placed n = 0 ↔ ∀ s ∈ deps.sources n, s ∈ placed := by
  simp [waits, List.countP_eq_zero]

/-- A node that is still to be told of a source waits for one more than it does afterwards. -/
theorem waits_told (node : Nat) (untold placed : List Nat) :
    deps.waits (node :: untold) placed node = deps.waits untold placed node + 1 := by
  rw [waits, waits, List.count_cons_self, Nat.add_assoc]

theorem waits_other {node n : Nat} (ne : node ≠ n) (untold placed : List Nat) :
    deps.waits (node :: untold) placed n = deps.waits untold placed n := by
  rw [waits, waits, List.count_cons_of_ne ne]

/-- A node is told of a source as often as it lists it. -/
theorem count_dependents (deps : Dependencies) (node n : Nat) :
    (deps.dependents node).count n = (deps.sources n).count node := by
  have upTo (k : Nat) : ((List.range k).flatMap fun reader =>
      List.replicate ((deps.sources reader).count node) reader).count n =
        if n < k then (deps.sources n).count node else 0 := by
    induction k with
    | zero => rfl
    | succ k ih =>
      rw [List.range_succ, List.flatMap_append, List.count_append, ih]
      rcases Nat.lt_trichotomy n k with lt | rfl | gt
      · simp [List.count_replicate, lt, Nat.lt_succ_of_lt lt, (Nat.ne_of_lt lt).symm]
      · simp
      · have out : ¬ n < k + 1 := by omega
        simp [List.count_replicate, Nat.not_lt_of_gt gt, Nat.ne_of_lt gt, out]
  rw [dependents, upTo]
  split
  · rfl
  next out => rw [sources_of_length_le (Nat.le_of_not_lt out), List.count_nil]

theorem lt_of_mem_dependents {node n : Nat} (h : n ∈ deps.dependents node) : n < deps.length := by
  obtain ⟨reader, hr, hn⟩ := List.mem_flatMap.mp h
  obtain ⟨-, rfl⟩ := List.mem_replicate.mp hn
  exact List.mem_range.mp hr

/-- Placing a node makes no difference to what the others wait for before they are told. -/
theorem waits_place {placed : List Nat} {node : Nat} (fresh : node ∉ placed) (n : Nat) :
    deps.waits (deps.dependents node) (placed ++ [node]) n = deps.waits [] placed n := by
  rw [waits, waits, count_dependents, List.count_nil, Nat.add_zero]
  induction deps.sources n with
  | nil => rfl
  | cons s rest ih =>
    simp only [List.countP_cons, List.count_cons, List.mem_append, List.mem_singleton,
      decide_eq_true_eq, beq_iff_eq] at ih ⊢
    by_cases same : s = node
    · subst same
      simp only [fresh, or_true, not_true_eq_false, if_false, if_true, not_false_eq_true]
      omega
    · simp only [same, or_false, if_false]
      omega

/-! ## One step -/

/-- What holds while nodes are brought into order, some of which are still to be told of
the node that was placed last. -/
structure Sound (deps : Dependencies) (untold : List Nat) (s : Sorting) : Prop where
  greedy : Greedy deps s.sorted
  missing : ∀ n, s.missing[n]? =
    if n < deps.length then some (deps.waits untold s.sorted n) else none
  served : ∀ n ∈ s.sorted, deps.waits untold s.sorted n = 0
  nodup : s.ready.Nodup
  ready : ∀ n, n ∈ s.ready ↔ n < deps.length ∧ n ∉ s.sorted ∧ deps.waits untold s.sorted n = 0

namespace Sound

variable {s t : Sorting} {untold : List Nat} {node : Nat}

theorem mem_ready_iff (h : Sound deps [] s) {n : Nat} : n ∈ s.ready ↔ deps.Placeable s.sorted n := by
  rw [h.ready, waits_eq_zero_iff]
  exact ⟨fun ⟨lt, fresh, sources⟩ => ⟨lt, fresh, sources⟩,
    fun ⟨lt, fresh, sources⟩ => ⟨lt, fresh, sources⟩⟩

theorem missing_of_cons (h : Sound deps (node :: untold) s) (lt : node < deps.length) :
    s.missing[node]? = some (deps.waits untold s.sorted node + 1) := by
  rw [h.missing, if_pos lt, waits_told]

/-- A node that is still to be told of a source has not been placed. -/
theorem not_mem_sorted_of_cons (h : Sound deps (node :: untold) s) : node ∉ s.sorted := by
  intro placed
  have none := h.served node placed
  rw [waits_told] at none
  cases none

theorem not_mem_ready_of_cons (h : Sound deps (node :: untold) s) : node ∉ s.ready := by
  intro ready
  have none := ((h.ready node).mp ready).2.2
  rw [waits_told] at none
  cases none

theorem release (h : Sound deps (node :: untold) s) (lt : node < deps.length) :
    Sound deps untold (s.release node) := by
  have found := h.missing_of_cons lt
  have fresh := h.not_mem_sorted_of_cons
  have waiting := h.not_mem_ready_of_cons
  have released : s.release node = { s with
      missing := s.missing.set node (deps.waits untold s.sorted node)
      ready := if deps.waits untold s.sorted node = 0 then s.ready ++ [node] else s.ready } := by
    rw [Sorting.release, found]
  rw [released]
  -- What waits changes for `node` alone, which is ready once nothing is left to wait for.
  refine ⟨h.greedy, fun n => ?_, fun n placed => ?_, ?_, fun n => ?_⟩
  · rw [List.getElem?_set]
    by_cases ne : node = n
    · subst ne
      rw [if_pos rfl, if_pos lt, if_pos (List.getElem?_eq_some_iff.mp found).1]
    · rw [if_neg ne, h.missing, waits_other ne]
  · have ne : node ≠ n := fun e => fresh (e ▸ placed)
    exact waits_other ne untold s.sorted ▸ h.served n placed
  · by_cases last : deps.waits untold s.sorted node = 0
    · simp only [last, if_true]
      exact List.nodup_append.mpr ⟨h.nodup, List.nodup_singleton node, fun a ha b hb e =>
        waiting (List.mem_singleton.mp hb ▸ e ▸ ha)⟩
    · simpa only [last, if_false] using h.nodup
  · have grown : n ∈ (if deps.waits untold s.sorted node = 0 then s.ready ++ [node] else s.ready) ↔
        n ∈ s.ready ∨ n = node ∧ deps.waits untold s.sorted node = 0 := by
      split <;> simp [*]
    rw [grown]
    by_cases ne : node = n
    · subst ne
      simp [waiting, lt, fresh]
    · rw [h.ready, waits_other ne]
      simp [Ne.symm ne]

theorem releases {told : List Nat} (h : Sound deps (told ++ untold) s)
    (lt : ∀ n ∈ told, n < deps.length) : Sound deps untold (told.foldl Sorting.release s) := by
  induction told generalizing s with
  | nil => exact h
  | cons node rest ih =>
    exact ih (h.release (lt node List.mem_cons_self)) fun n hn => lt n (List.mem_cons_of_mem _ hn)

theorem place (h : Sound deps [] s) (least : s.ready.min? = some node) :
    Sound deps (deps.dependents node) (s.place node) := by
  obtain ⟨mem, le⟩ := List.min?_eq_some_iff.mp least
  have there := h.mem_ready_iff.mp mem
  have waits (n : Nat) : deps.waits (deps.dependents node) (s.sorted ++ [node]) n =
      deps.waits [] s.sorted n := waits_place there.fresh n
  refine ⟨?_, fun n => ?_, fun n placed => ?_, h.nodup.erase node, fun n => ?_⟩
  · exact forall_split_snoc h.greedy ⟨there, fun m hm => le m (h.mem_ready_iff.mpr hm)⟩
  · rw [Sorting.place, waits]
    exact h.missing n
  · rw [Sorting.place, waits]
    rcases List.mem_append.mp placed with placed | placed
    · exact h.served n placed
    · obtain rfl := List.mem_singleton.mp placed
      exact ((h.ready n).mp mem).2.2
  · rw [Sorting.place, waits, h.nodup.mem_erase_iff, h.ready, List.mem_append, List.mem_singleton]
    constructor
    · rintro ⟨ne, lt, fresh, ready⟩
      exact ⟨lt, not_or.mpr ⟨fresh, ne⟩, ready⟩
    · rintro ⟨lt, fresh, ready⟩
      exact ⟨(not_or.mp fresh).2, lt, (not_or.mp fresh).1, ready⟩

theorem start (deps : Dependencies) : Sound deps [] deps.start := by
  have waits (n : Nat) : deps.waits [] [] n = (deps.sources n).length := by simp [Dependencies.waits]
  refine ⟨Greedy.nil, fun n => ?_, nofun, List.nodup_range.filter _, fun n => ?_⟩
  · change (deps.map List.length)[n]? = _
    rw [show deps.start.sorted = [] from rfl, waits, List.getElem?_map]
    split
    next lt => simp [sources, lt]
    next out => simp [Nat.le_of_not_lt out]
  · simp [Dependencies.start, waits]

theorem next (h : Sound deps [] s) (step : deps.next? s = some t) : Sound deps [] t := by
  obtain ⟨node, least, rfl⟩ := Option.map_eq_some_iff.mp step
  refine releases ?_ fun n => lt_of_mem_dependents
  rw [List.append_nil]
  exact h.place least

/-- When no node is ready, none can be placed. -/
theorem not_placeable (h : Sound deps [] s) (stops : deps.next? s = none) (n : Nat) :
    ¬ deps.Placeable s.sorted n := by
  have empty := List.min?_eq_none_iff.mp (Option.map_eq_none_iff.mp stops)
  rw [← h.mem_ready_iff, empty]
  exact List.not_mem_nil

/-- When no node is ready, something is missing for all that have not been placed. -/
theorem missing_pos_iff (h : Sound deps [] s) (stops : deps.next? s = none) {n : Nat}
    (lt : n < deps.length) : s.missing[n]?.any (0 < ·) = true ↔ n ∉ s.sorted := by
  rw [h.missing, if_pos lt, Option.any_some, decide_eq_true_eq, Nat.pos_iff_ne_zero]
  refine ⟨fun waiting placed => waiting (h.served n placed), fun fresh none => ?_⟩
  exact h.not_placeable stops n ⟨lt, fresh, waits_eq_zero_iff.mp none⟩

end Sound

/-! ## The whole sort -/

theorem sort_of_next?_eq_some {s t : Sorting} (step : deps.next? s = some t) :
    deps.sort s = deps.sort t := by
  rw [sort]
  split
  next u step' =>
    obtain rfl := Option.some.inj (step.symm.trans step')
    rfl
  next stops => cases step.symm.trans stops

theorem sort_of_next?_eq_none {s : Sorting} (stops : deps.next? s = none) : deps.sort s = s := by
  rw [sort]
  split
  next u step => cases stops.symm.trans step
  next => rfl

theorem sort_sound {s : Sorting} (h : Sound deps [] s) : Sound deps [] (deps.sort s) := by
  induction s using sort.induct deps with
  | case1 s t step ih => exact sort_of_next?_eq_some step ▸ ih (h.next step)
  | case2 s stops => exact (sort_of_next?_eq_none stops).symm ▸ h

theorem next?_sort (deps : Dependencies) (s : Sorting) : deps.next? (deps.sort s) = none := by
  induction s using sort.induct deps with
  | case1 s t step ih => rw [sort_of_next?_eq_some step, ih]
  | case2 s stops => rw [sort_of_next?_eq_none stops, stops]

/-- What the order comes to: nodes are placed as long as one can be; then they are all
placed, or those that are not are stuck. -/
theorem order_spec (deps : Dependencies) : ∃ placed, Greedy deps placed ∧
    (∀ n, ¬ deps.Placeable placed n) ∧
    deps.order = if placed.length = deps.length then .ok placed
      else .error ((List.range deps.length).filter (· ∉ placed)) := by
  have sound := sort_sound (Sound.start deps)
  have stops := next?_sort deps deps.start
  refine ⟨_, sound.greedy, sound.not_placeable stops, ?_⟩
  have stuck : ((List.range deps.length).filter fun n =>
      (deps.sort deps.start).missing[n]?.any (0 < ·)) =
        (List.range deps.length).filter (· ∉ (deps.sort deps.start).sorted) := by
    refine List.filter_congr fun n hn => ?_
    rw [Bool.eq_iff_iff, sound.missing_pos_iff stops (List.mem_range.mp hn), decide_eq_true_eq]
  simp only [order, stuck]

/-- The states of a sort between the nodes that it places. -/
inductive Reached (deps : Dependencies) : Sorting → Prop where
  | start : Reached deps deps.start
  | next {s t : Sorting} (earlier : Reached deps s) (step : deps.next? s = some t) : Reached deps t

/-- In the course of a sort a node is told, in some state, that one of its sources has been
placed. -/
inductive Releases (deps : Dependencies) : Sorting → Nat → Prop where
  | tell {s : Sorting} {placed node : Nat} {told untold : List Nat} (earlier : Reached deps s)
      (least : s.ready.min? = some placed) (split : deps.dependents placed = told ++ node :: untold) :
      Releases deps (told.foldl Sorting.release (s.place placed)) node

theorem Reached.sound {s : Sorting} (h : Reached deps s) : Sound deps [] s := by
  induction h with
  | start => exact Sound.start deps
  | next _ step ih => exact ih.next step

/-- No count is lowered below zero, and none is asked for that is not there. -/
theorem Releases.missing {s : Sorting} {node : Nat} (h : Releases deps s node) :
    ∃ count, s.missing[node]? = some (count + 1) := by
  obtain @⟨s, placed, _, told, untold, earlier, least, split⟩ := h
  have readers : ∀ n ∈ deps.dependents placed, n < deps.length := fun n => lt_of_mem_dependents
  have sound := earlier.sound.place least
  rw [split] at readers sound
  have told := sound.releases fun n hn => readers n (List.mem_append_left _ hn)
  exact ⟨_, told.missing_of_cons (readers node (by simp))⟩

end DetectionPlan.Dependencies
