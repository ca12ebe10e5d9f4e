/-
The order in which nodes that read from one another can run, and the levels of
nodes that can run at the same time.

Nodes are numbered in the order of their declaration. For each node it is counted
how much of what it reads from is still missing. Of the nodes for which nothing is
missing, the one declared first runs first. Nodes for which that never happens are
on a cycle or downstream of one.
-/

namespace DetectionPlan

/-- For each node the nodes it reads from. -/
abbrev Dependencies := List (List Nat)

namespace Dependencies

/-- The nodes that a node reads from. -/
def sources (deps : Dependencies) (node : Nat) : List Nat := deps.getD node []

/-- The nodes that read from a node, each as often as it lists that node. -/
def dependents (deps : Dependencies) (node : Nat) : List Nat :=
  (List.range deps.length).flatMap fun reader =>
    List.replicate ((deps.sources reader).count node) reader

end Dependencies

/-- Nodes while they are brought into order. -/
structure Sorting where
  /-- For each node how many of its sources are still to be placed. A source counts
  as often as the node lists it. -/
  missing : List Nat
  /-- The nodes that can be placed next. -/
  ready : List Nat
  /-- The nodes that have been placed, in order. -/
  sorted : List Nat := []
deriving DecidableEq, Repr

namespace Sorting

/-- Place a node that is ready. -/
def place (s : Sorting) (node : Nat) : Sorting :=
  { s with ready := s.ready.erase node, sorted := s.sorted ++ [node] }

/-- One source less is missing for a node. With none left the node is ready. A node
for which none is missing, or which is not there, stays as it is. -/
def release (s : Sorting) (node : Nat) : Sorting :=
  match s.missing[node]? with
  | some (count + 1) =>
    { s with
      missing := s.missing.set node count
      ready := if count = 0 then s.ready ++ [node] else s.ready }
  | _ => s

/-- The nodes that are ready, and those for which something is missing. -/
def unplaced (s : Sorting) : Nat := s.ready.length + s.missing.countP (0 < ·)

theorem unplaced_release_le (s : Sorting) (node : Nat) : (s.release node).unplaced ≤ s.unplaced := by
  unfold release
  split
  next count found =>
    obtain ⟨lt, here⟩ := List.getElem?_eq_some_iff.mp found
    have waiting : 0 < s.missing.countP (0 < ·) :=
      List.countP_pos_iff.mpr ⟨_, List.getElem_mem lt, by simp [here]⟩
    by_cases last : count = 0
    · have fewer : (s.missing.set node count).countP (0 < ·) = s.missing.countP (0 < ·) - 1 := by
        rw [List.countP_set lt, here, last]
        rfl
      simp only [unplaced, if_pos last, fewer, List.length_append, List.length_singleton]
      omega
    · have same : (s.missing.set node count).countP (0 < ·) = s.missing.countP (0 < ·) := by
        rw [List.countP_set lt, here, if_pos (decide_eq_true count.succ_pos),
          if_pos (decide_eq_true (Nat.pos_of_ne_zero last))]
        omega
      simp only [unplaced, if_neg last, same]
      exact Nat.le_refl _
  next => exact Nat.le_refl _

theorem unplaced_foldl_release_le (nodes : List Nat) (s : Sorting) :
    (nodes.foldl release s).unplaced ≤ s.unplaced := by
  induction nodes generalizing s with
  | nil => exact Nat.le_refl _
  | cons node rest ih => exact Nat.le_trans (ih _) (unplaced_release_le s node)

end Sorting

namespace Dependencies

/-- Before any node is placed: those that read from none are ready. -/
def start (deps : Dependencies) : Sorting where
  missing := deps.map List.length
  ready := (List.range deps.length).filter fun node => (deps.sources node).isEmpty

/-- Place the node declared first of those that are ready, and tell all that read
from it. -/
def next? (deps : Dependencies) (s : Sorting) : Option Sorting :=
  s.ready.min?.map fun node => (deps.dependents node).foldl Sorting.release (s.place node)

theorem unplaced_lt_of_next? {deps : Dependencies} {s t : Sorting} (h : deps.next? s = some t) :
    t.unplaced < s.unplaced := by
  obtain ⟨node, least, rfl⟩ := Option.map_eq_some_iff.mp h
  have mem := List.min?_mem least
  have shorter : (s.place node).unplaced < s.unplaced := by
    have := List.length_erase_of_mem mem
    have := List.length_pos_of_mem mem
    simp only [Sorting.place, Sorting.unplaced]
    omega
  exact Nat.lt_of_le_of_lt (Sorting.unplaced_foldl_release_le _ _) shorter

/-- Place nodes as long as one is ready. -/
def sort (deps : Dependencies) (s : Sorting) : Sorting :=
  match _h : deps.next? s with
  | some t => sort deps t
  | none => s
termination_by s.unplaced
decreasing_by exact unplaced_lt_of_next? _h

/-- All nodes, each behind the nodes it reads from, or the nodes for which something
is missing for ever. -/
def order (deps : Dependencies) : Except (List Nat) (List Nat) :=
  let s := deps.sort deps.start
  if s.sorted.length = deps.length then .ok s.sorted
  else .error ((List.range deps.length).filter fun node => s.missing[node]?.any (0 < ·))

/-- The depth of each placed node: one more than that of the deepest node it
reads from, and zero for a node that reads from none. -/
def depths (deps : Dependencies) (order : List Nat) : List (Nat × Nat) :=
  order.foldl (fun known node => known ++ [(node, depthAfter known node)]) []
where
  depthAfter (known : List (Nat × Nat)) (node : Nat) : Nat :=
    ((deps.sources node).map fun s => (known.lookup s).getD 0 + 1).foldl max 0

/-- The placed nodes by depth, those of one depth in the order of their
declaration. -/
def levels (deps : Dependencies) (order : List Nat) : List (List Nat) :=
  let depths := deps.depths order
  let count := (depths.map fun d => d.2 + 1).foldl max 0
  (List.range count).map fun level =>
    (List.range deps.length).filter fun node => depths.lookup node == some level

end Dependencies

end DetectionPlan
