/-
The two ways of running a plan agree. What comes of a node depends on the nodes
it reads from alone (`attempt_eq`), so a node that is started in two runs does
the same in both, however the runs order their nodes; and a run that does not
fail starts every node.
-/
import DetectionPlan.Proofs.Plan.Run

namespace DetectionPlan

open Outcome (bind_ok_iff map_ok_iff mapM_ok_iff)

/-! ## One node in two runs -/

namespace CompiledNode

theorem gather_congr {n : CompiledNode} {seen seen' : Results}
    (h : ∀ b ∈ n.spec.inputs, seen.get? b.source = seen'.get? b.source) :
    n.gather seen = n.gather seen' := by
  have same : n.spec.inputs.mapM (n.fetchInput seen) = n.spec.inputs.mapM (n.fetchInput seen') := by
    generalize n.spec.inputs = inputs at h
    induction inputs with
    | nil => rfl
    | cons b inputs ih =>
      have first : n.fetchInput seen b = n.fetchInput seen' b := by
        unfold fetchInput
        rw [h b List.mem_cons_self]
      rw [List.mapM_cons, List.mapM_cons, first, ih fun c hc => h c (List.mem_cons_of_mem _ hc)]
  unfold gather
  rw [same]

theorem attempt_congr {n : CompiledNode} {interval : Interval} {scope : RunScope}
    {seen seen' : Results} (h : n.gather seen = n.gather seen') :
    n.attempt interval scope seen = n.attempt interval scope seen' := by
  unfold attempt
  rw [h]

end CompiledNode

section TwoRuns

variable {interval : Interval} {scope : RunScope} {nodes nodes' : List CompiledNode}
  {starts starts' : List Start}

theorem eq_of_name_eq (perm : nodes.Perm nodes') (names : (nodes.map (·.spec.name)).Nodup)
    {n m : CompiledNode} (hn : n ∈ nodes) (hm : m ∈ nodes') (h : n.spec.name = m.spec.name) :
    n = m :=
  List.inj_on_of_nodup_map names hn (perm.mem_iff.mpr hm) h

/-- A node that is started in two runs is given the same inputs in both. -/
theorem gather_eq (perm : nodes.Perm nodes') (names : (nodes.map (·.spec.name)).Nodup)
    (one : Orderly interval scope nodes starts) (other : Orderly interval scope nodes' starts') :
    ∀ earlier s later, starts = earlier ++ s :: later → ∀ t ∈ starts', s.node = t.node →
      s.node.gather s.seen = t.node.gather t.seen := by
  intro earlier
  induction h : earlier.length using Nat.strongRecOn generalizing earlier with
  | ind k ih =>
    intro s later split t ht same
    obtain ⟨before, after, split'⟩ := List.append_of_mem ht
    obtain ⟨inputs, -, -, -, fed⟩ := (one.fed _ _ _ split).inputs
    obtain ⟨inputs', -, -, -, fed'⟩ := (other.fed _ _ _ split').inputs
    rw [← same]
    refine CompiledNode.gather_congr fun b hb => ?_
    obtain ⟨m, hm, name, given, published, v, hg, hp, hv, there, -⟩ := fed b hb
    obtain ⟨m', hm', name', given', published', v', hg', hp', hv', there', -⟩ :=
      fed' b (same ▸ hb)
    have mem : m ∈ starts := split ▸ List.mem_append_left _ hm
    have mem' : m' ∈ starts' := split' ▸ List.mem_append_left _ hm'
    have node : m.node = m'.node :=
      eq_of_name_eq perm names (one.mem m mem) (other.mem m' mem') (name.trans name'.symm)
    obtain ⟨front, rest, rfl⟩ := List.append_of_mem hm
    have shorter : front.length < k := by simp at h; omega
    have gathered := ih front.length shorter front rfl m (rest ++ s :: later) (by simp [split])
      m' mem' node
    rw [hg, hg'] at gathered
    obtain rfl := Except.ok.inj gathered
    rw [node] at hp
    obtain rfl := Except.ok.inj (hp.symm.trans hp')
    rw [there, there', ← hv, ← hv']

/-- A node that is started in two runs does the same in both. -/
theorem attempt_eq (perm : nodes.Perm nodes') (names : (nodes.map (·.spec.name)).Nodup)
    (one : Orderly interval scope nodes starts) (other : Orderly interval scope nodes' starts')
    {s t : Start} (hs : s ∈ starts) (ht : t ∈ starts') (same : s.node = t.node) :
    s.attempt interval scope = t.attempt interval scope := by
  obtain ⟨earlier, later, split⟩ := List.append_of_mem hs
  have gathered := gather_eq perm names one other earlier s later split t ht same
  rw [Start.attempt, Start.attempt, ← same]
  rw [← same] at gathered
  exact CompiledNode.attempt_congr gathered

/-- What two runs have published under one key is the same. -/
theorem published_eq (perm : nodes.Perm nodes') (names : (nodes.map (·.spec.name)).Nodup)
    (one : Orderly interval scope nodes starts) (other : Orderly interval scope nodes' starts')
    {k : OutputKey} {v w : PlanResult}
    (hv : (Start.trace interval scope starts).results.get? k = some v)
    (hw : (Start.trace interval scope starts').results.get? k = some w) : v = w := by
  obtain ⟨s, hs, hv⟩ := (Start.get?_results interval scope one.names).mp hv
  obtain ⟨t, ht, hw⟩ := (Start.get?_results interval scope other.names).mp hw
  obtain ⟨outputs, ok, name, hv⟩ := (Start.mem_published interval scope).mp hv
  obtain ⟨outputs', ok', name', hw⟩ := (Start.mem_published interval scope).mp hw
  have node : s.node = t.node :=
    eq_of_name_eq perm names (one.mem s hs) (other.mem t ht) (name.symm.trans name')
  rw [attempt_eq perm names one other hs ht node, ok'] at ok
  obtain rfl := Except.ok.inj ok
  obtain ⟨_, _, _, _, collected⟩ := CompiledNode.attempt_ok ok'
  obtain ⟨keys, nodup, -⟩ := CompiledNode.collect_ok collected
  rw [← keys] at nodup
  exact Option.some.inj <|
    ((Keyed.get?_eq_some_iff nodup).mpr hv).symm.trans ((Keyed.get?_eq_some_iff nodup).mpr hw)

end TwoRuns

/-! ## Runs that do not fail -/

/-- A run in which no node fails starts every node. -/
theorem startsIn_nodes_of_succeeded {interval : Interval} {scope : RunScope}
    {stages : List (List CompiledNode)} {past : List Start}
    (h : ∀ s ∈ startsIn interval scope stages past, (s.attempt interval scope).isFailed = false) :
    (startsIn interval scope stages past).map (·.node) = stages.flatten := by
  induction stages generalizing past with
  | nil => rfl
  | cons stage rest ih =>
    rw [startsIn] at h ⊢
    split
    next failed =>
      rw [if_pos failed] at h
      obtain ⟨s, hs, hf⟩ := List.any_eq_true.mp failed
      rw [h s hs] at hf
      cases hf
    next none =>
      rw [if_neg none] at h
      rw [List.map_append, ih fun s hs => h s (List.mem_append_right _ hs), List.map_map]
      exact congrArg (· ++ rest.flatten) (List.map_id' stage)

namespace Execution

variable {x : Execution}

/-- A plan runs to its end when no node that is started fails. -/
theorem execute_isOk_iff (fresh : x.trace = none) :
    x.execute.1.isOk = true ↔ ∀ s ∈ x.starts, (s.attempt x.interval x.scope).isFailed = false := by
  have failure : ∀ a : Attempt, a.failure? = none ↔ a.isFailed = false := fun a => by
    unfold Attempt.failure? Attempt.isFailed
    cases a.outcome <;> simp
  have ends : x.startTrace.failure? = none ↔
      ∀ s ∈ x.starts, (s.attempt x.interval x.scope).isFailed = false := by
    simp [Trace.failure?, startTrace, Start.trace, List.findSome?_eq_none_iff, failure]
  rw [← ends, execute_eq fresh]
  cases x.startTrace.failure? <;> simp [Except.isOk, Except.toBool]

theorem execute_results (fresh : x.trace = none) :
    x.execute.2.results = x.startTrace.results := by
  rw [execute_eq fresh]
  rfl

theorem execute_report_nodes (fresh : x.trace = none) :
    x.execute.2.report.nodes =
      (x.starts.map (·.attempt x.interval x.scope)).filterMap NodeReport.ofAttempt? := by
  rw [execute_eq fresh]
  rfl

theorem starts_perm (wired : x.plan.WellWired)
    (h : ∀ s ∈ x.starts, (s.attempt x.interval x.scope).isFailed = false) :
    (x.starts.map (·.node)).Perm x.plan.nodes := by
  rw [starts, startsIn_nodes_of_succeeded h]
  exact (wired.staged x.settings).perm

end Execution

/-! ## The same plan run in two ways -/

section SamePlan

variable {interval : Interval} {scope : RunScope} {nodes nodes' : List CompiledNode}
  {starts starts' : List Start}

/-- A run fails nowhere if another one starts all of its nodes and fails nowhere. -/
theorem succeeded_of_succeeded (perm : nodes.Perm nodes') (names : (nodes.map (·.spec.name)).Nodup)
    (one : Orderly interval scope nodes starts) (other : Orderly interval scope nodes' starts')
    (all : (starts'.map (·.node)).Perm nodes')
    (h : ∀ t ∈ starts', (t.attempt interval scope).isFailed = false) :
    ∀ s ∈ starts, (s.attempt interval scope).isFailed = false := by
  intro s hs
  have mem := all.mem_iff.mpr (perm.mem_iff.mp (one.mem s hs))
  obtain ⟨t, ht, same⟩ := List.mem_map.mp mem
  rw [attempt_eq perm names one other hs ht same.symm]
  exact h t ht

/-- An attempt that one run makes is made by every run that starts all nodes. -/
theorem mem_attempts (perm : nodes.Perm nodes') (names : (nodes.map (·.spec.name)).Nodup)
    (one : Orderly interval scope nodes starts) (other : Orderly interval scope nodes' starts')
    (all : (starts'.map (·.node)).Perm nodes') {a : Attempt}
    (h : a ∈ starts.map (·.attempt interval scope)) :
    a ∈ starts'.map (·.attempt interval scope) := by
  obtain ⟨s, hs, rfl⟩ := List.mem_map.mp h
  have mem := all.mem_iff.mpr (perm.mem_iff.mp (one.mem s hs))
  obtain ⟨t, ht, same⟩ := List.mem_map.mp mem
  exact List.mem_map.mpr ⟨t, ht, (attempt_eq perm names one other hs ht same.symm).symm⟩

theorem nodup_attempts (one : Orderly interval scope nodes starts) :
    (starts.map (·.attempt interval scope)).Nodup := by
  have attempted : (starts.map (·.attempt interval scope)).map (·.node.name) =
      starts.map (·.node.spec.name) := by
    rw [List.map_map]
    refine List.map_congr_left fun s _ => ?_
    exact congrArg NodeSpec.name (s.node.attempt_node interval scope s.seen)
  exact List.Nodup.of_map _ (attempted ▸ one.names)

/-- Two runs that start all nodes make the same attempts. -/
theorem attempts_perm (perm : nodes.Perm nodes') (names : (nodes.map (·.spec.name)).Nodup)
    (one : Orderly interval scope nodes starts) (other : Orderly interval scope nodes' starts')
    (all : (starts.map (·.node)).Perm nodes) (all' : (starts'.map (·.node)).Perm nodes') :
    (starts.map (·.attempt interval scope)).Perm (starts'.map (·.attempt interval scope)) := by
  have names' : (nodes'.map (·.spec.name)).Nodup := (perm.map _).nodup_iff.mp names
  refine (List.perm_ext_iff_of_nodup (nodup_attempts one) (nodup_attempts other)).mpr fun a => ?_
  exact ⟨mem_attempts perm names one other all', mem_attempts perm.symm names' other one all⟩

/-- Runs that make the same attempts have published the same. -/
theorem get?_results_of_perm (one : Orderly interval scope nodes starts)
    (other : Orderly interval scope nodes' starts')
    (h : (starts.map (·.attempt interval scope)).Perm (starts'.map (·.attempt interval scope)))
    (k : OutputKey) :
    (Start.trace interval scope starts).results.get? k =
      (Start.trace interval scope starts').results.get? k := by
  refine Option.ext fun v => ?_
  rw [Start.get?_results interval scope one.names, Start.get?_results interval scope other.names]
  have member : ∀ l : List Start, (∃ s ∈ l, (k, v) ∈ (s.attempt interval scope).published) ↔
      ∃ a ∈ l.map (·.attempt interval scope), (k, v) ∈ a.published := fun l => by simp
  rw [member, member]
  simp only [h.mem_iff]

end SamePlan

/-- The same run, with the nodes of a level started together or one by one. -/
def Execution.inMode (x : Execution) (parallel : Bool) : Execution :=
  { x with settings := { x.settings with parallel } }

/-- **The two modes agree** on every plan that compiles, whatever its operators
do: both end well or neither does; if both do, they publish the same under every
key and report the same nodes, in some order; and what both have published under
one key is the same however they end. -/
theorem parallel_agrees_with_sequential {registry : OperatorRegistry} {specs : List NodeSpec}
    {x : Execution} (compiled : Plan.compile registry specs = .ok x.plan)
    (fresh : x.trace = none) :
    ((x.inMode true).execute.1.isOk ↔ (x.inMode false).execute.1.isOk) ∧
      ((x.inMode true).execute.1.isOk → (x.inMode false).execute.1.isOk →
        (∀ k, (x.inMode true).execute.2.results.get? k =
          (x.inMode false).execute.2.results.get? k) ∧
        (x.inMode true).execute.2.report.nodes.Perm (x.inMode false).execute.2.report.nodes) ∧
      ∀ k v w, (x.inMode true).execute.2.results.get? k = some v →
        (x.inMode false).execute.2.results.get? k = some w → v = w := by
  have wired := Plan.compile_wellWired compiled
  have one := orderly_starts (x := x.inMode true) wired
  have other := orderly_starts (x := x.inMode false) wired
  have fresh' : ∀ mode, (x.inMode mode).trace = none := fun _ => fresh
  have same := List.Perm.refl x.plan.nodes
  rw [Execution.execute_isOk_iff (fresh' true), Execution.execute_isOk_iff (fresh' false)]
  refine ⟨⟨fun h => ?_, fun h => ?_⟩, fun h h' => ?_, fun k v w hv hw => ?_⟩
  · exact succeeded_of_succeeded same wired.names other one (Execution.starts_perm wired h) h
  · exact succeeded_of_succeeded same wired.names one other (Execution.starts_perm wired h) h
  · have attempts := attempts_perm same wired.names one other (Execution.starts_perm wired h)
      (Execution.starts_perm wired h')
    rw [Execution.execute_results (fresh' true), Execution.execute_results (fresh' false),
      Execution.execute_report_nodes (fresh' true), Execution.execute_report_nodes (fresh' false)]
    exact ⟨get?_results_of_perm one other attempts, attempts.filterMap _⟩
  · rw [Execution.execute_results (fresh' true)] at hv
    rw [Execution.execute_results (fresh' false)] at hw
    exact published_eq same wired.names one other hv hw

theorem parallel_agrees_with_sequential_relay : ∃ x : Execution,
    Plan.compile .builtin relay = .ok x.plan ∧ x.trace = none ∧
      ((x.inMode true).execute.1.isOk ↔ (x.inMode false).execute.1.isOk) ∧
      ((x.inMode true).execute.1.isOk → (x.inMode false).execute.1.isOk →
        (∀ k, (x.inMode true).execute.2.results.get? k =
          (x.inMode false).execute.2.results.get? k) ∧
        (x.inMode true).execute.2.report.nodes.Perm (x.inMode false).execute.2.report.nodes) ∧
      ∀ k v w, (x.inMode true).execute.2.results.get? k = some v →
        (x.inMode false).execute.2.results.get? k = some w → v = w := by
  obtain ⟨p, hp⟩ := compile_relay
  let x : Execution := { plan := p, interval := ⟨0, 10, by decide⟩, scope := {} }
  exact ⟨x, hp, rfl, parallel_agrees_with_sequential (x := x) hp rfl⟩

end DetectionPlan
