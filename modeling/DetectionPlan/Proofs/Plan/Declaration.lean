/-
The order in which the nodes of a plan are declared. It fixes the numbers of the nodes, and
with them which of the ready nodes runs first; whether a plan compiles and what comes of a
run does not depend on it (`run_of_perm`).
-/
import DetectionPlan.Proofs.Plan.Acceptance
import DetectionPlan.Proofs.Plan.Agreement

namespace DetectionPlan

open Outcome (mapM_ok_iff)

namespace Plan

variable {registry : OperatorRegistry} {specs specs' : List NodeSpec}

/-! ## Plans that compile -/

theorem promises_congr (perm : specs.Perm specs') {k : OutputKey} :
    Promises registry specs k ↔ Promises registry specs' k := by
  simp only [Promises, perm.mem_iff]

theorem reads_congr (perm : specs.Perm specs') : Reads specs = Reads specs' := by
  funext reader source
  simp only [Reads, perm.mem_iff]

theorem Wired.of_perm {inputs : List InputBinding} (perm : specs.Perm specs')
    (wired : Wired registry specs inputs) : Wired registry specs' inputs where
  properties := wired.properties
  sources b hb := (promises_congr perm).mp (wired.sources b hb)

theorem Acceptable.of_perm (perm : specs.Perm specs') (h : Acceptable registry specs) :
    Acceptable registry specs' where
  names := (perm.map _).nodup_iff.mp h.names
  known s hs := h.known s (perm.mem_iff.mpr hs)
  wired s hs := (h.wired s (perm.mem_iff.mpr hs)).of_perm perm
  acyclic := reads_congr perm ▸ h.acyclic

theorem compile_of_acceptable (h : Acceptable registry specs) :
    ∃ p, compile registry specs = .ok p := by
  cases outcome : compile registry specs with
  | ok p => exact ⟨p, rfl⟩
  | error e => exact absurd h (compile_error_iff_refusal.mp outcome).not_acceptable

/-- The nodes of a compiled plan are the declared ones, each with its operator and outputs. -/
theorem nodes_of_compile {p : CompiledPlan} (compiled : compile registry specs = .ok p) :
    specs.mapM (resolve registry) = .ok p.nodes := by
  obtain ⟨-, nodes, deps, order, resolved, -, -, rfl⟩ := compile_ok_iff.mp compiled
  exact mapM_ok_iff.mpr resolved

/-- Plans whose nodes are declared in another order have the same nodes. -/
theorem nodes_perm {p q : CompiledPlan} (perm : specs.Perm specs')
    (compiled : compile registry specs = .ok p) (compiled' : compile registry specs' = .ok q) :
    p.nodes.Perm q.nodes := by
  have one_node : Relator.RightUnique fun s n => resolve registry s = .ok n :=
    fun _ _ _ resolved resolved' => Except.ok.inj (resolved.symm.trans resolved')
  exact List.rel_perm_imp one_node (mapM_ok_iff.mp (nodes_of_compile compiled))
    (mapM_ok_iff.mp (nodes_of_compile compiled')) perm

end Plan

/-! ## Runs -/

/-- The same run of another plan. -/
def Execution.withPlan (x : Execution) (plan : CompiledPlan) : Execution := { x with plan }

/-- **The order of declaration does not matter.** When a plan compiles, so does every plan
with the same nodes in another order. Of their runs both end well or neither does, whatever
the operators do; if both do, they publish the same under every key and report the same
nodes, in some order; and what both have published under one key is the same however they
end. -/
theorem run_of_perm {registry : OperatorRegistry} {specs specs' : List NodeSpec} {x : Execution}
    (perm : specs.Perm specs') (compiled : Plan.compile registry specs = .ok x.plan)
    (fresh : x.trace = none) :
    ∃ q, Plan.compile registry specs' = .ok q ∧
      (x.execute.1.isOk ↔ (x.withPlan q).execute.1.isOk) ∧
      (x.execute.1.isOk → (x.withPlan q).execute.1.isOk →
        (∀ k, x.execute.2.results.get? k = (x.withPlan q).execute.2.results.get? k) ∧
        x.execute.2.report.nodes.Perm (x.withPlan q).execute.2.report.nodes) ∧
      ∀ k v w, x.execute.2.results.get? k = some v →
        (x.withPlan q).execute.2.results.get? k = some w → v = w := by
  obtain ⟨q, compiled'⟩ :=
    Plan.compile_of_acceptable ((Plan.acceptable_of_compile_ok compiled).of_perm perm)
  have fresh' : (x.withPlan q).trace = none := fresh
  have wired := Plan.compile_wellWired compiled
  have wired' : (x.withPlan q).plan.WellWired := Plan.compile_wellWired compiled'
  have nodes : x.plan.nodes.Perm (x.withPlan q).plan.nodes := Plan.nodes_perm perm compiled compiled'
  have one := orderly_starts wired
  have other := orderly_starts wired'
  refine ⟨q, compiled', ?_⟩
  rw [Execution.execute_isOk_iff fresh, Execution.execute_isOk_iff fresh']
  refine ⟨⟨fun h => ?_, fun h => ?_⟩, fun h h' => ?_, fun k v w hv hw => ?_⟩
  · exact succeeded_of_succeeded nodes.symm wired'.names other one (Execution.starts_perm wired h) h
  · exact succeeded_of_succeeded nodes wired.names one other (Execution.starts_perm wired' h) h
  · have attempts := attempts_perm nodes wired.names one other (Execution.starts_perm wired h)
      (Execution.starts_perm wired' h')
    rw [Execution.execute_results fresh, Execution.execute_results fresh',
      Execution.execute_report_nodes fresh, Execution.execute_report_nodes fresh']
    exact ⟨get?_results_of_perm one other attempts, attempts.filterMap _⟩
  · rw [Execution.execute_results fresh] at hv
    rw [Execution.execute_results fresh'] at hw
    exact published_eq nodes wired.names one other hv hw

theorem run_of_perm_relay : ∃ (x : Execution) (q : CompiledPlan),
    relay.Perm relay.reverse ∧ Plan.compile .builtin relay = .ok x.plan ∧ x.trace = none ∧
      Plan.compile .builtin relay.reverse = .ok q ∧
      (x.execute.1.isOk ↔ (x.withPlan q).execute.1.isOk) ∧
      (x.execute.1.isOk → (x.withPlan q).execute.1.isOk →
        (∀ k, x.execute.2.results.get? k = (x.withPlan q).execute.2.results.get? k) ∧
        x.execute.2.report.nodes.Perm (x.withPlan q).execute.2.report.nodes) ∧
      ∀ k v w, x.execute.2.results.get? k = some v →
        (x.withPlan q).execute.2.results.get? k = some w → v = w := by
  obtain ⟨p, compiled⟩ := compile_relay
  let x : Execution := { plan := p, interval := ⟨0, 10, by decide⟩, scope := {} }
  have perm : relay.Perm relay.reverse := (List.reverse_perm relay).symm
  obtain ⟨q, compiled', agree⟩ := run_of_perm (x := x) perm compiled rfl
  exact ⟨x, q, perm, compiled, rfl, compiled', agree⟩

end DetectionPlan
