/-
The outputs of nodes that list none. What such a node promises stands in the registry, apart
from the operators; each builtin operator publishes just that (`KeepsPromise`, one lemma for
each). So such a node only fails for want of an input or because its operator fails, never
because an output is missing (`defaults_published`).
-/
import DetectionPlan.Proofs.Operator
import DetectionPlan.Proofs.Plan.Acceptance
import DetectionPlan.Proofs.Plan.Completion

namespace DetectionPlan

open Outcome (bind_ok_iff bind_error_iff map_ok_iff mapM_ok_iff)

/-! ## What operators publish -/

namespace Operator

/-- Given the inputs that its node names, an operator publishes just what a node that lists no
outputs promises. -/
def KeepsPromise (o : Operator) : Prop :=
  ∀ (task : Task) (job : Job) (es : List (String × PlanResult)),
    task.inputs.keys = task.node.inputs.map (·.property) →
    o.prepare task = .ok job → job.outcome = .ok es → es.map (·.1) = o.outputs.resolve task.node

/-- The outputs of a node that has one for each input. -/
theorem resolve_perInput {fallback : Option String} {task : Task}
    (given : task.inputs.keys = task.node.inputs.map (·.property)) :
    (OutputRule.perInput fallback).resolve task.node =
      if task.inputs.keys = [] then fallback.toList else task.inputs.keys := by
  rw [OutputRule.resolve, given]
  cases task.node.inputs <;> rfl

/-- What is published under the names of the inputs is what such a node promises. -/
theorem resolve_of_keys {task : Task} {es : List (String × PlanResult)}
    (given : task.inputs.keys = task.node.inputs.map (·.property)) (keys : es.map (·.1) = task.inputs.keys) :
    es.map (·.1) = (OutputRule.perInput none).resolve task.node := by
  rw [keys, resolve_perInput given]
  split
  next none => exact none
  next => rfl

theorem echo_keepsPromise : echo.KeepsPromise := by
  intro task job es given prepared done
  obtain rfl := echo_ok prepared done
  refine Eq.trans ?_ (resolve_perInput given).symm
  cases inputs : task.inputs.entries with
  | nil => simp [Keyed.isEmpty, Keyed.keys, inputs]
  | cons e rest => simp [Keyed.isEmpty, Keyed.keys, inputs]

theorem dataFetcher_keepsPromise : dataFetcher.KeepsPromise := by
  intro task job es _ prepared done
  obtain ⟨_, _, _, _, -, -, -, -, rfl⟩ := dataFetcher_ok prepared done
  rfl

theorem anomalyDetector_keepsPromise : anomalyDetector.KeepsPromise := by
  intro task job es _ prepared done
  obtain ⟨_, _, _, _, -, -, -, -, rfl⟩ := anomalyDetector_ok prepared done
  rfl

theorem timeIndexFiller_keepsPromise : timeIndexFiller.KeepsPromise := by
  intro task job es given prepared done
  obtain ⟨_, -, -, keys, -⟩ := timeIndexFiller_ok prepared done
  exact resolve_of_keys given keys

theorem combiner_keepsPromise : combiner.KeepsPromise := by
  intro task job es _ prepared done
  obtain ⟨_, -, rfl⟩ := combiner_ok prepared done
  rfl

theorem join_keepsPromise : join.KeepsPromise := by
  intro task job es _ prepared done
  obtain ⟨_, _, _, _, -, -, -, -, -, rfl⟩ := join_ok prepared done
  rfl

theorem anomalyLabeler_keepsPromise : anomalyLabeler.KeepsPromise := by
  intro task job es given prepared done
  obtain ⟨_, -, -, keys, -⟩ := anomalyLabeler_ok prepared done
  exact resolve_of_keys given keys

/-- Every builtin operator does. -/
theorem builtin_keepsPromise {type : String} {o : Operator}
    (h : OperatorRegistry.builtin.get? type = some o) : o.KeepsPromise :=
  builtin_cases echo_keepsPromise dataFetcher_keepsPromise anomalyDetector_keepsPromise
    timeIndexFiller_keepsPromise combiner_keepsPromise join_keepsPromise anomalyLabeler_keepsPromise h

/-- The default outputs of a builtin operator differ when the names of the inputs do. -/
theorem nodup_resolve {type : String} {o : Operator} (h : OperatorRegistry.builtin.get? type = some o)
    {spec : NodeSpec} (distinct : (spec.inputs.map (·.property)).Nodup) :
    (o.outputs.resolve spec).Nodup := by
  have single (name : String) : ((OutputRule.fixed [name]).resolve spec).Nodup :=
    List.nodup_singleton name
  have perInput (fallback : Option String) : ((OutputRule.perInput fallback).resolve spec).Nodup := by
    rw [OutputRule.resolve]
    split
    · cases fallback <;> simp
    · exact distinct
  exact builtin_cases (P := fun o => (o.outputs.resolve spec).Nodup) (perInput _) (single _)
    (single _) (perInput _) (single _) (single _) (perInput _) h

end Operator

/-! ## Nodes -/

namespace CompiledNode

variable {n : CompiledNode} {interval : Interval} {scope : RunScope}

theorem attempt_outcome (n : CompiledNode) (interval : Interval) (scope : RunScope) (seen : Results) :
    (n.attempt interval scope seen).outcome =
      (n.gather seen >>= fun inputs => n.publishes interval scope inputs >>= n.collect) := by
  cases gathered : n.gather seen with
  | error e => rw [attempt, gathered]; rfl
  | ok inputs => exact (congrArg Attempt.outcome (attempt_of_gather gathered)).trans (n.perform_outcome ..)

/-- The inputs that a node is handed have the names that it gives them. -/
theorem keys_of_gather {seen : Results} {inputs : NamedResults} (h : n.gather seen = .ok inputs)
    (distinct : (n.spec.inputs.map (·.property)).Nodup) :
    inputs.keys = n.spec.inputs.map (·.property) := by
  obtain ⟨es, fetched, rfl⟩ := map_ok_iff.mp h
  have keys : es.map (·.1) = n.spec.inputs.map (·.property) :=
    Outcome.map_eq_of_forall₂ (mapM_ok_iff.mp fetched) fun b e found => by
      obtain ⟨v, -, rfl⟩ := fetchInput_ok_iff.mp found
      rfl
  rw [Keyed.keys, Keyed.entries_ofList_of_nodup (keys ▸ distinct), keys]

/-- A node whose operator publishes just what it promises hands all of it on. -/
theorem collect_of_keys {published : NamedResults} (keys : published.keys = n.spec.outputs)
    (distinct : n.spec.outputs.Nodup) : n.collect published = .ok published := by
  have nodup : published.keys.Nodup := keys ▸ distinct
  cases collected : n.collect published with
  | ok handed =>
    obtain ⟨kept, -, found⟩ := collect_ok collected
    rw [Keyed.eq_of_keys nodup (kept.trans keys.symm) found]
  | error e =>
    have there : ∀ output ∈ n.spec.outputs, published.contains output := fun output listed => by
      rw [← keys] at listed
      obtain ⟨e, he, rfl⟩ := List.mem_map.mp listed
      rw [Keyed.contains, (Keyed.get?_eq_some_iff nodup).mpr he, Option.isSome_some]
    obtain ⟨before, output, after, split, again, -⟩ := collect_error there collected
    rw [split, List.nodup_append] at distinct
    exact absurd rfl (distinct.2.2 output again output List.mem_cons_self)

end CompiledNode

/-- **Default outputs.** A node of a builtin operator that lists no outputs promises those that
the registry has for it, whatever else stands in the registry. Whenever its operator does its
work, it publishes just these, and the node hands all of them on as they were published. So a
start of the node fails only where an input is missing or where the operator itself fails. -/
theorem defaults_published {registry : OperatorRegistry} {spec : NodeSpec} {n : CompiledNode}
    (builtin : registry.get? spec.type = OperatorRegistry.builtin.get? spec.type)
    (resolved : Plan.resolve registry spec = .ok n) (unlisted : spec.outputs = [])
    (distinct : (spec.inputs.map (·.property)).Nodup) (interval : Interval) (scope : RunScope) :
    n.spec.outputs = n.operator.outputs.resolve spec ∧
    (∀ inputs published, inputs.keys = spec.inputs.map (·.property) →
      n.publishes interval scope inputs = .ok published → published.keys = n.spec.outputs) ∧
    ∀ seen,
      (∀ inputs published, n.gather seen = .ok inputs →
        n.publishes interval scope inputs = .ok published →
        (n.attempt interval scope seen).outcome = .ok published) ∧
      ∀ e, (n.attempt interval scope seen).outcome = .error e →
        n.gather seen = .error e ∨
        ∃ inputs, n.gather seen = .ok inputs ∧ n.publishes interval scope inputs = .error e := by
  obtain ⟨operator, known, rfl⟩ := Plan.resolve_ok_iff.mp resolved
  have outputs : spec.promised registry = operator.outputs.resolve spec := by
    simp [NodeSpec.promised, unlisted, known]
  rw [builtin] at known
  have nodup : (spec.promised registry).Nodup := outputs ▸ Operator.nodup_resolve known distinct
  let n : CompiledNode := ⟨{ spec with outputs := spec.promised registry }, operator⟩
  have publishes : ∀ inputs published, inputs.keys = spec.inputs.map (·.property) →
      n.publishes interval scope inputs = .ok published → published.keys = n.spec.outputs := by
    intro inputs published given done
    obtain ⟨job, prepared, done⟩ := bind_ok_iff.mp done
    obtain ⟨es, worked, done⟩ := bind_ok_iff.mp done
    obtain rfl := Except.ok.inj done
    have keys : es.map (·.1) = spec.promised registry :=
      (Operator.builtin_keepsPromise known _ job es given prepared worked).trans outputs.symm
    rw [Keyed.keys, Keyed.entries_ofList_of_nodup (keys ▸ nodup), keys]
  have hands : ∀ seen inputs published, n.gather seen = .ok inputs →
      n.publishes interval scope inputs = .ok published →
      n.collect published = .ok published := fun seen inputs published gathered done =>
    n.collect_of_keys (publishes inputs published (n.keys_of_gather gathered distinct) done) nodup
  refine ⟨outputs, publishes, fun seen => ⟨fun inputs published gathered done => ?_, fun e failed => ?_⟩⟩
  · rw [n.attempt_outcome]
    exact bind_ok_iff.mpr ⟨inputs, gathered, bind_ok_iff.mpr
      ⟨published, done, hands seen inputs published gathered done⟩⟩
  · rw [n.attempt_outcome] at failed
    rcases bind_error_iff.mp failed with failed | ⟨inputs, gathered, failed⟩
    · exact .inl failed
    rcases bind_error_iff.mp failed with failed | ⟨published, done, missing⟩
    · exact .inr ⟨inputs, gathered, failed⟩
    · rw [hands seen inputs published gathered done] at missing
      cases missing

/-- A node that labels the anomalies of two inputs, each under its name. -/
def labelsTwo : NodeSpec where
  name := "label"
  type := "AnomalyLabeler"
  params := [("minAbsoluteChange", .int 1)]
  inputs := [⟨"views", ⟨"a", "output"⟩⟩, ⟨"clicks", ⟨"b", "output"⟩⟩]

/-- Two detections, one with an anomaly. -/
def twoDetections : Results := .ofList [
  (⟨"a", "output"⟩, .detection { anomalies := [{ start := 0, stop := 5 }] }),
  (⟨"b", "output"⟩, .detection { anomalies := [] })]

theorem defaults_published_labelsTwo : ∃ n inputs published,
    Plan.resolve .builtin labelsTwo = .ok n ∧ labelsTwo.outputs = [] ∧
    (labelsTwo.inputs.map (·.property)).Nodup ∧ n.gather twoDetections = .ok inputs ∧
    n.publishes ⟨0, 10, by decide⟩ {} inputs = .ok published ∧
    n.spec.outputs = ["views", "clicks"] ∧ published.keys = ["views", "clicks"] ∧
    (n.attempt ⟨0, 10, by decide⟩ {} twoDetections).outcome = .ok published := by
  let n : CompiledNode := ⟨{ labelsTwo with outputs := ["views", "clicks"] }, .anomalyLabeler⟩
  have resolved : Plan.resolve .builtin labelsTwo = .ok n := by rfl
  have distinct : (labelsTwo.inputs.map (·.property)).Nodup := by decide
  have works : (n.gather twoDetections >>= n.publishes ⟨0, 10, by decide⟩ {}).isOk = true := by
    decide +kernel
  cases done : n.gather twoDetections >>= n.publishes ⟨0, 10, by decide⟩ {} with
  | error e =>
    rw [done] at works
    cases works
  | ok published =>
    obtain ⟨inputs, gathered, published'⟩ := bind_ok_iff.mp done
    obtain ⟨-, publishes, starts⟩ :=
      defaults_published rfl resolved rfl distinct ⟨0, 10, by decide⟩ {}
    exact ⟨n, inputs, published, resolved, rfl, distinct, gathered, published', rfl,
      publishes inputs published (n.keys_of_gather gathered distinct) published',
      (starts twoDetections).1 inputs published gathered published'⟩

end DetectionPlan
