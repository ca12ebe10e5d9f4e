/-
What compiling a plan settles. `WellWired` collects it: names differ, a node's
inputs have different names, and in either way of running the plan each node
stands in one stage, behind the nodes that promise what its inputs name.
-/
import DetectionPlan.Plan.Execution
import DetectionPlan.Proofs.Outcome
import DetectionPlan.Proofs.Plan.Schedule

namespace DetectionPlan

open Outcome (bind_ok_iff mapM_ok_iff)

/-- Stages that hold every node once, each behind the nodes that promise what
its inputs name. -/
structure Staged (nodes : List CompiledNode) (stages : List (List CompiledNode)) : Prop where
  perm : stages.flatten.Perm nodes
  fed : ∀ before stage after, stages = before ++ stage :: after →
    ∀ n ∈ stage, ∀ b ∈ n.spec.inputs, ∃ m ∈ before.flatten,
      m.spec.name = b.source.node ∧ b.source.output ∈ m.spec.outputs

/-- What can be relied on when a compiled plan runs. -/
structure CompiledPlan.WellWired (p : CompiledPlan) : Prop where
  names : (p.nodes.map (·.spec.name)).Nodup
  properties : ∀ n ∈ p.nodes, (n.spec.inputs.map (·.property)).Nodup
  staged : ∀ settings, Staged p.nodes (p.stages settings)

namespace Plan

/-! ## The checks -/

theorem firstRepeat?_eq_none_iff {seen names : List String} :
    firstRepeat? seen names = none ↔ names.Nodup ∧ ∀ name ∈ names, name ∉ seen := by
  induction names generalizing seen with
  | nil => simp [firstRepeat?]
  | cons name rest ih =>
    by_cases h : name ∈ seen
    · simp [firstRepeat?, h]
    · simp only [firstRepeat?, List.contains_iff_mem, h, if_false, ih, List.nodup_cons,
        List.mem_cons, not_or, forall_eq_or_imp]
      constructor
      · rintro ⟨nodup, fresh⟩
        exact ⟨⟨fun hm => (fresh name hm).1 rfl, nodup⟩, not_false,
          fun other hm => (fresh other hm).2⟩
      · rintro ⟨⟨hn, nodup⟩, -, fresh⟩
        exact ⟨nodup, fun other hm => ⟨fun e => hn (e ▸ hm), fresh other hm⟩⟩

/-- No name is repeated exactly if the names are distinct. -/
theorem firstRepeat?_nil_eq_none_iff {names : List String} :
    firstRepeat? [] names = none ↔ names.Nodup := by
  simp [firstRepeat?_eq_none_iff]

theorem resolve_name {registry : OperatorRegistry} {spec : NodeSpec} {n : CompiledNode}
    (h : resolve registry spec = .ok n) : n.spec.name = spec.name := by
  unfold resolve at h
  split at h
  · cases h
  · obtain rfl := Except.ok.inj h
    rfl

theorem map_name_of_resolved {registry : OperatorRegistry} {specs : List NodeSpec}
    {nodes : List CompiledNode}
    (h : List.Forall₂ (fun spec n => resolve registry spec = .ok n) specs nodes) :
    nodes.map (·.spec.name) = specs.map (·.name) :=
  Outcome.map_eq_of_forall₂ h fun _ _ hn => resolve_name hn

/-- The place found for an input is that of a node of the name and with the
output that the input names. -/
theorem sourceOf_ok {nodes : List CompiledNode} {reader : NodeSpec} {b : InputBinding}
    {place : Nat} (h : sourceOf nodes reader b = .ok place) :
    ∃ n, nodes[place]? = some n ∧ n.spec.name = b.source.node ∧
      b.source.output ∈ n.spec.outputs := by
  unfold sourceOf at h
  split at h
  · cases h
  next i hi =>
    split at h
    next promised =>
      obtain rfl := Except.ok.inj h
      obtain ⟨lt, name, -⟩ := List.findIdx?_eq_some_iff_getElem.mp hi
      rw [List.getElem?_eq_getElem lt, Option.any_some, List.contains_iff_mem] at promised
      exact ⟨nodes[i], List.getElem?_eq_getElem lt, eq_of_beq name, promised⟩
    · cases h

/-- Of a node whose inputs pass the checks, the input names differ, and the
places found are those of all its inputs. -/
theorem sourcesOf_ok {nodes : List CompiledNode} {reader : NodeSpec} {inputs : List InputBinding}
    {seen : List String} {found places : List Nat}
    (h : sourcesOf nodes reader seen found inputs = .ok places) :
    found ⊆ places ∧ (inputs.map (·.property)).Nodup ∧ (∀ b ∈ inputs, b.property ∉ seen) ∧
      ∀ b ∈ inputs, ∃ place ∈ places, sourceOf nodes reader b = .ok place := by
  induction inputs generalizing seen found with
  | nil =>
    obtain rfl := Except.ok.inj h
    simp
  | cons b rest ih =>
    simp only [sourcesOf] at h
    split at h
    · cases h
    next fresh =>
      obtain ⟨place, hp, h⟩ := bind_ok_iff.mp h
      obtain ⟨kept, nodup, unseen, placed⟩ := ih h
      have mem : place ∈ if found.contains place then found else found ++ [place] := by
        split <;> simp_all
      have old : found ⊆ if found.contains place then found else found ++ [place] := by
        split
        · exact List.Subset.refl _
        · exact List.subset_append_left _ _
      simp only [List.contains_iff_mem] at fresh
      refine ⟨fun i hi => kept (old hi), ?_, ?_, ?_⟩
      · rw [List.map_cons, List.nodup_cons]
        refine ⟨fun hm => ?_, nodup⟩
        obtain ⟨c, hc, e⟩ := List.mem_map.mp hm
        exact unseen c hc (e ▸ List.mem_cons_self)
      · intro c hc
        rcases List.mem_cons.mp hc with rfl | hc
        · exact fresh
        · exact fun hm => unseen c hc (List.mem_cons_of_mem _ hm)
      · intro c hc
        rcases List.mem_cons.mp hc with rfl | hc
        · exact ⟨place, kept mem, hp⟩
        · exact placed c hc

/-- A plan compiles when its names differ, all operators are known, all inputs
are wired, and an order is found. -/
theorem compile_ok_iff {registry : OperatorRegistry} {specs : List NodeSpec} {p : CompiledPlan} :
    compile registry specs = .ok p ↔
      (specs.map (·.name)).Nodup ∧ ∃ nodes deps order,
        List.Forall₂ (fun spec n => resolve registry spec = .ok n) specs nodes ∧
        List.Forall₂ (fun n sources => sourcesOf nodes n.spec [] [] n.spec.inputs = .ok sources)
          nodes deps ∧
        Dependencies.order deps = .ok order ∧
        p = ⟨nodes, pick nodes order, (Dependencies.levels deps order).map (pick nodes)⟩ := by
  unfold compile
  split
  next name h =>
    have repeated : ¬ (specs.map (·.name)).Nodup := fun nodup => by
      rw [firstRepeat?_nil_eq_none_iff.mpr nodup] at h
      cases h
    simp [repeated, throw, throwThe, MonadExceptOf.throw]
  next h =>
    simp only [firstRepeat?_nil_eq_none_iff.mp h, true_and, bind_ok_iff, mapM_ok_iff, dependencies]
    constructor
    · rintro ⟨nodes, hn, deps, hd, h⟩
      split at h
      · cases h
      next order ho => exact ⟨nodes, deps, order, hn, hd, ho, (Except.ok.inj h).symm⟩
    · rintro ⟨nodes, deps, order, hn, hd, ho, rfl⟩
      exact ⟨nodes, hn, deps, hd, by rw [ho]; rfl⟩

/-! ## Picking nodes by their places -/

theorem mem_pick {nodes : List CompiledNode} {places : List Nat} {n : CompiledNode} :
    n ∈ pick nodes places ↔ ∃ place ∈ places, nodes[place]? = some n := by
  simp [pick, List.mem_filterMap]

theorem flatten_map_pick (nodes : List CompiledNode) (stages : List (List Nat)) :
    (stages.map (pick nodes)).flatten = pick nodes stages.flatten := by
  induction stages with
  | nil => rfl
  | cons stage stages ih =>
    rw [List.map_cons, List.flatten_cons, List.flatten_cons, ih, pick, pick, pick,
      List.filterMap_append]

theorem pick_range (nodes : List CompiledNode) : pick nodes (List.range nodes.length) = nodes := by
  have all : ∀ k ≤ nodes.length, pick nodes (List.range k) = nodes.take k := by
    intro k hk
    induction k with
    | zero => rfl
    | succ k ih =>
      have lt : k < nodes.length := hk
      have front := ih (Nat.le_of_lt lt)
      rw [pick] at front ⊢
      rw [List.range_succ, List.filterMap_append, front, List.take_succ_eq_append_getElem lt]
      simp [lt]
  rw [all nodes.length (Nat.le_refl _), List.take_length]

theorem map_singleton_pick {nodes : List CompiledNode} {places : List Nat}
    (h : ∀ place ∈ places, place < nodes.length) :
    (pick nodes places).map ([·]) = (places.map ([·])).map (pick nodes) := by
  induction places with
  | nil => rfl
  | cons place places ih =>
    have lt := h place List.mem_cons_self
    simp only [List.map_cons, ← ih fun q hq => h q (List.mem_cons_of_mem _ hq)]
    simp [pick, lt]

/-! ## Stages -/

theorem staged_of_layered {nodes : List CompiledNode} {deps : Dependencies}
    {stages : List (List Nat)}
    (hd : List.Forall₂ (fun n sources => sourcesOf nodes n.spec [] [] n.spec.inputs = .ok sources)
      nodes deps)
    (h : deps.Layered stages) : Staged nodes (stages.map (pick nodes)) := by
  constructor
  · have perm := h.perm.filterMap (nodes[·]?)
    rw [flatten_map_pick]
    rw [← hd.length_eq] at perm
    exact perm.trans (.of_eq (pick_range nodes))
  · intro before stage after e n hn b hb
    obtain ⟨l₁, l₂, rfl, h₁, h₂⟩ := List.map_eq_append_iff.mp e
    obtain ⟨places, l₃, rfl, rfl, -⟩ := List.map_eq_cons_iff.mp h₂
    obtain ⟨place, hplace, hn⟩ := mem_pick.mp hn
    obtain ⟨lt, rfl⟩ := List.getElem?_eq_some_iff.mp hn
    have lt' : place < deps.length := hd.length_eq ▸ lt
    have wired := (List.forall₂_iff_get.mp hd).2 place lt lt'
    obtain ⟨-, -, -, placed⟩ := sourcesOf_ok wired
    obtain ⟨source, hs, hsource⟩ := placed b hb
    obtain ⟨m, hm, name, output⟩ := sourceOf_ok hsource
    refine ⟨m, ?_, name, output⟩
    rw [← h₁, flatten_map_pick]
    refine mem_pick.mpr ⟨source, ?_, hm⟩
    refine h.sources l₁ places l₃ rfl place hplace source ?_
    simpa [Dependencies.sources, lt'] using hs

theorem compile_wellWired {registry : OperatorRegistry} {specs : List NodeSpec} {p : CompiledPlan}
    (h : compile registry specs = .ok p) : p.WellWired := by
  obtain ⟨names, nodes, deps, order, hn, hd, ho, rfl⟩ := compile_ok_iff.mp h
  refine ⟨?_, ?_, ?_⟩
  · rw [← map_name_of_resolved hn] at names
    exact names
  · intro n hn
    obtain ⟨i, lt, rfl⟩ := List.mem_iff_getElem.mp hn
    have wired := (List.forall₂_iff_get.mp hd).2 i lt (hd.length_eq ▸ lt)
    exact (sourcesOf_ok wired).2.1
  · intro settings
    unfold CompiledPlan.stages
    split
    · exact staged_of_layered hd (Dependencies.layered_levels ho)
    · have valid : ∀ place ∈ order, place < nodes.length := fun place hp => by
        rw [hd.length_eq]
        simpa using (Dependencies.order_ok ho).1.mem_iff.mp hp
      simp only [map_singleton_pick valid]
      exact staged_of_layered hd (Dependencies.layered_order ho)

end Plan

end DetectionPlan
