/-
Runs in which every operator does its part: it does its work and publishes at least what
its node promises. Such a run publishes one value for each output that is promised, and
nothing else, unless a node lists an output twice: a value is handed out once, so the
second time it is missing (`served_run_completes_iff`).
-/
import DetectionPlan.Proofs.Plan.Agreement
import DetectionPlan.Proofs.Plan.Failure

namespace DetectionPlan

open Outcome (map_ok_iff)

/-! ## Handing on what is promised -/

namespace CompiledNode

variable {n : CompiledNode}

theorem lookup_filter_of_ne {output key : String} (ne : key ≠ output)
    (left : List (String × PlanResult)) :
    (left.filter (·.1 != output)).lookup key = left.lookup key := by
  induction left with
  | nil => rfl
  | cons p left ih =>
    obtain ⟨k, v⟩ := p
    by_cases hk : k = output
    · subst hk
      have off : (key == k) = false := by simpa using ne
      simpa [List.lookup_cons, off] using ih
    · have keep : (k != output) = true := by simpa using hk
      simp only [List.filter_cons, keep, if_true, List.lookup_cons, ih]

/-- An output that is missing has not been published, or has been handed on before. -/
theorem collect_go_error {outputs : List String} {left : List (String × PlanResult)} {e : Failure}
    (h : collect.go n outputs left = .error e) : ∃ before output after,
      outputs = before ++ output :: after ∧ (output ∈ before ∨ left.lookup output = none) ∧
      e = .missingOutput n.spec.name output := by
  induction outputs generalizing left with
  | nil => cases h
  | cons first rest ih =>
    simp only [collect.go] at h
    split at h
    next none =>
      obtain rfl := Except.error.inj h
      exact ⟨[], first, rest, rfl, .inr none, rfl⟩
    next r found =>
      cases more : collect.go n rest (left.filter (·.1 != first)) with
      | ok es =>
        rw [more] at h
        cases h
      | error e' =>
        rw [more] at h
        obtain rfl := Except.error.inj h
        obtain ⟨before, output, after, rfl, missing, rfl⟩ := ih more
        refine ⟨first :: before, output, after, rfl, ?_, rfl⟩
        by_cases again : output = first
        · exact .inl (again ▸ List.mem_cons_self)
        · rw [lookup_filter_of_ne again] at missing
          exact missing.imp_left (List.mem_cons_of_mem first)

/-- Of outputs that have all been published, only one that is listed twice is missing. -/
theorem collect_error {published : NamedResults} {e : Failure}
    (there : ∀ output ∈ n.spec.outputs, published.contains output) (h : n.collect published = .error e) :
    ∃ before output after, n.spec.outputs = before ++ output :: after ∧ output ∈ before ∧
      e = .missingOutput n.spec.name output := by
  unfold collect at h
  cases gone : collect.go n n.spec.outputs published.entries with
  | ok es =>
    rw [gone] at h
    cases h
  | error e' =>
    rw [gone] at h
    obtain rfl := Except.error.inj h
    obtain ⟨before, output, after, split, missing, rfl⟩ := collect_go_error gone
    refine ⟨before, output, after, split, missing.resolve_right fun none => ?_, rfl⟩
    have found := there output (by simp [split])
    rw [Keyed.contains, Keyed.get?, none] at found
    cases found

end CompiledNode

/-! ## Operators that do their part -/

namespace Start

variable {interval : Interval} {scope : RunScope} {s : Start}

/-- Given its inputs, the operator of a started node does its work and publishes at least
what the node promises. -/
def Serves (interval : Interval) (scope : RunScope) (s : Start) : Prop :=
  ∀ inputs, s.node.gather s.seen = .ok inputs →
    ∃ published, s.node.publishes interval scope inputs = .ok published ∧
      ∀ output ∈ s.node.spec.outputs, published.contains output

instance : Decidable (s.Serves interval scope) :=
  match gathered : s.node.gather s.seen with
  | .error e => .isTrue fun inputs h => by rw [gathered] at h; cases h
  | .ok inputs =>
    match done : s.node.publishes interval scope inputs with
    | .error e => .isFalse fun h => by
      obtain ⟨published, ok, -⟩ := h inputs gathered
      rw [done] at ok
      cases ok
    | .ok published =>
      decidable_of_iff (∀ output ∈ s.node.spec.outputs, published.contains output) <| by
        constructor
        · intro there given h
          obtain rfl := Except.ok.inj (gathered.symm.trans h)
          exact ⟨published, done, there⟩
        · intro serves
          obtain ⟨published', ok, there⟩ := serves inputs gathered
          obtain rfl := Except.ok.inj (done.symm.trans ok)
          exact there

/-- What a node comes to when its operator does its part: all that the operator published
and the node promises is handed on, or the node lists an output twice. -/
theorem outcome_of_serves {earlier : List Start} (fed : s.Fed interval scope earlier)
    (serves : s.Serves interval scope) : ∃ inputs published,
      s.node.gather s.seen = .ok inputs ∧ s.node.publishes interval scope inputs = .ok published ∧
      (s.attempt interval scope).outcome = s.node.collect published ∧
      ∀ output ∈ s.node.spec.outputs, published.contains output := by
  obtain ⟨inputs, gathered, performs, -⟩ := fed.inputs
  obtain ⟨published, done, there⟩ := serves inputs gathered
  refine ⟨inputs, published, gathered, done, ?_, there⟩
  rw [performs, CompiledNode.perform_outcome, done]
  rfl

theorem isFailed_iff_of_serves {earlier : List Start} (fed : s.Fed interval scope earlier)
    (serves : s.Serves interval scope) :
    (s.attempt interval scope).isFailed = false ↔ s.node.spec.outputs.Nodup := by
  obtain ⟨inputs, published, -, -, outcome, there⟩ := outcome_of_serves fed serves
  rw [Attempt.isFailed_eq_false_iff, outcome]
  cases collected : s.node.collect published with
  | ok outputs => simpa using (CompiledNode.collect_ok collected).2.1
  | error e =>
    obtain ⟨before, output, after, split, again, -⟩ := CompiledNode.collect_error there collected
    have twice : ¬ s.node.spec.outputs.Nodup := fun nodup => by
      rw [split, List.nodup_append] at nodup
      exact nodup.2.2 output again output List.mem_cons_self rfl
    simpa using twice

/-- A node that succeeds hands on what its operator published. -/
theorem mem_published_of_serves {earlier : List Start} (fed : s.Fed interval scope earlier)
    (serves : s.Serves interval scope) (ok : (s.attempt interval scope).isFailed = false) :
    ∃ inputs published, s.node.gather s.seen = .ok inputs ∧
      s.node.publishes interval scope inputs = .ok published ∧
      ∀ output ∈ s.node.spec.outputs, ∃ v, published.get? output = some v ∧
        (s.node.spec.key output, v) ∈ (s.attempt interval scope).published := by
  obtain ⟨inputs, published, gathered, done, outcome, -⟩ := outcome_of_serves fed serves
  refine ⟨inputs, published, gathered, done, fun output listed => ?_⟩
  obtain ⟨outputs, succeeded⟩ := Attempt.isFailed_eq_false_iff.mp ok
  obtain ⟨keys, -, values⟩ := CompiledNode.collect_ok (outcome.symm.trans succeeded)
  rw [← keys] at listed
  obtain ⟨⟨_, v⟩, he, rfl⟩ := List.mem_map.mp listed
  exact ⟨v, values _ he, (mem_published interval scope).mpr ⟨outputs, succeeded, rfl, he⟩⟩

end Start

/-! ## Runs -/

namespace Execution

variable {x : Execution}

/-- A run that ends well has published all that the plan promises, and nothing else. -/
theorem keys_results_perm (wired : x.plan.WellWired)
    (ok : ∀ s ∈ x.starts, (s.attempt x.interval x.scope).isFailed = false) :
    x.startTrace.results.keys.Perm x.plan.promised := by
  have all : succeeded (Start.attempts x.interval x.scope x.starts) =
      Start.attempts x.interval x.scope x.starts := by
    refine List.filter_eq_self.mpr fun a ha => ?_
    obtain ⟨s, hs, rfl⟩ := List.mem_map.mp ha
    simp [ok s hs]
  have keys : x.startTrace.results.keys = (succeeded (Start.attempts x.interval x.scope x.starts)).flatMap
      fun a => a.node.outputs.map a.node.key := Start.keys_succeeded (orderly_starts wired).names
  have specs : (Start.attempts x.interval x.scope x.starts).map (·.node) =
      (x.starts.map (·.node)).map (·.spec) := Start.map_node_attempts x.starts
  have same := congrArg (List.flatMap fun n : NodeSpec => n.outputs.map n.key) specs
  rw [List.flatMap_map, List.flatMap_map] at same
  rw [keys, all, same]
  exact (starts_perm wired ok).flatMap_right _

theorem nodup_promised (wired : x.plan.WellWired)
    (distinct : ∀ n ∈ x.plan.nodes, n.spec.outputs.Nodup) : x.plan.promised.Nodup := by
  rw [CompiledPlan.promised, List.nodup_flatMap]
  refine ⟨fun n hn => (distinct n hn).map fun _ _ e => (OutputKey.mk.inj e).2, ?_⟩
  have names := wired.names
  rw [List.Nodup, List.pairwise_map] at names
  refine names.imp fun {n m} ne k hk hk' => ne ?_
  obtain ⟨_, -, rfl⟩ := List.mem_map.mp hk
  obtain ⟨_, -, same⟩ := List.mem_map.mp hk'
  exact (OutputKey.mk.inj same).1.symm

/-- In a run that ends well every output that the plan promises has a value: the one that the
operator of its node published. -/
theorem get?_results_of_serves (wired : x.plan.WellWired)
    (serves : ∀ s ∈ x.starts, s.Serves x.interval x.scope) {s : Start} (hs : s ∈ x.starts)
    (ok : (s.attempt x.interval x.scope).isFailed = false) :
    ∃ inputs published, s.node.gather s.seen = .ok inputs ∧
      s.node.publishes x.interval x.scope inputs = .ok published ∧
      ∀ output ∈ s.node.spec.outputs, ∃ v, published.get? output = some v ∧
        x.startTrace.results.get? (s.node.spec.key output) = some v := by
  have orderly := orderly_starts wired
  obtain ⟨earlier, later, split⟩ := List.append_of_mem hs
  obtain ⟨inputs, published, gathered, done, values⟩ :=
    Start.mem_published_of_serves (orderly.fed earlier s later split) (serves s hs) ok
  refine ⟨inputs, published, gathered, done, fun output listed => ?_⟩
  obtain ⟨v, there, handed⟩ := values output listed
  exact ⟨v, there, (Start.get?_results x.interval x.scope orderly.names).mpr ⟨s, hs, handed⟩⟩

/-- Where operators do their part, a run fails at a node that lists an output twice. -/
theorem failure_of_serves (wired : x.plan.WellWired) (fresh : x.trace = none)
    (serves : ∀ s ∈ x.starts, s.Serves x.interval x.scope) {e : Failure}
    (failed : x.execute.1 = .error e) :
    ∃ n ∈ x.plan.nodes, ∃ before output after, n.spec.outputs = before ++ output :: after ∧
      output ∈ before ∧ e = .executionFailed n.spec.name (.missingOutput n.spec.name output) := by
  have orderly := orderly_starts wired
  obtain ⟨a, cause, first, broken, rfl⟩ := startTrace_failed fresh failed
  obtain ⟨s, hs, rfl⟩ := List.mem_map.mp (List.mem_of_find?_eq_some first)
  obtain ⟨earlier, later, split⟩ := List.append_of_mem hs
  obtain ⟨inputs, published, -, -, outcome, there⟩ :=
    Start.outcome_of_serves (orderly.fed earlier s later split) (serves s hs)
  have node : (s.attempt x.interval x.scope).node = s.node.spec := s.node.attempt_node ..
  obtain ⟨before, output, after, listed, again, rfl⟩ :=
    CompiledNode.collect_error there (outcome.symm.trans broken)
  exact ⟨s.node, orderly.mem s hs, before, output, after, listed, again, by rw [node]⟩

end Execution

/-- **When a run completes.** In a run in which every operator that is started does its work
and publishes at least what its node promises, all nodes succeed exactly when no node of the
plan lists an output twice. Then every node has been started, and the results are one value
for each output that the plan promises, the one its operator published, and nothing else.
Otherwise the run fails at a node that lists an output twice, as if the output had not been
published. -/
theorem served_run_completes_iff {registry : OperatorRegistry} {specs : List NodeSpec}
    {x : Execution} (compiled : Plan.compile registry specs = .ok x.plan) (fresh : x.trace = none)
    (serves : ∀ s ∈ x.starts, s.Serves x.interval x.scope) :
    (x.execute.1.isOk ↔ ∀ n ∈ x.plan.nodes, n.spec.outputs.Nodup) ∧
    (∀ results, x.execute.1 = .ok results →
      (x.starts.map (·.node)).Perm x.plan.nodes ∧
      results.keys.Perm x.plan.promised ∧ x.plan.promised.Nodup ∧
      ∀ s ∈ x.starts, ∃ inputs published, s.node.gather s.seen = .ok inputs ∧
        s.node.publishes x.interval x.scope inputs = .ok published ∧
        ∀ output ∈ s.node.spec.outputs, ∃ v, published.get? output = some v ∧
          results.get? (s.node.spec.key output) = some v) ∧
    ∀ e, x.execute.1 = .error e → ∃ n ∈ x.plan.nodes, ∃ before output after,
      n.spec.outputs = before ++ output :: after ∧ output ∈ before ∧
      e = .executionFailed n.spec.name (.missingOutput n.spec.name output) := by
  have wired := Plan.compile_wellWired compiled
  have orderly := orderly_starts wired
  have fine {s : Start} (hs : s ∈ x.starts) :
      (s.attempt x.interval x.scope).isFailed = false ↔ s.node.spec.outputs.Nodup := by
    obtain ⟨earlier, later, split⟩ := List.append_of_mem hs
    exact Start.isFailed_iff_of_serves (orderly.fed earlier s later split) (serves s hs)
  have completes : x.execute.1.isOk ↔ ∀ n ∈ x.plan.nodes, n.spec.outputs.Nodup := by
    rw [Execution.execute_isOk_iff fresh]
    constructor
    · intro ok n hn
      obtain ⟨s, hs, rfl⟩ := List.mem_map.mp ((Execution.starts_perm wired ok).mem_iff.mpr hn)
      exact (fine hs).mp (ok s hs)
    · exact fun distinct s hs => (fine hs).mpr (distinct _ (orderly.mem s hs))
  refine ⟨completes, fun results ended => ?_, fun e => Execution.failure_of_serves wired fresh serves⟩
  have isOk : x.execute.1.isOk = true := by rw [ended]; rfl
  have ok := (Execution.execute_isOk_iff fresh).mp isOk
  have same : results = x.startTrace.results := by
    rw [execute_eq fresh] at ended
    cases failure : x.startTrace.failure? with
    | some e => simp [failure] at ended
    | none => simpa [failure, eq_comm] using ended
  subst same
  exact ⟨Execution.starts_perm wired ok, Execution.keys_results_perm wired ok,
    Execution.nodup_promised wired (completes.mp isOk),
    fun s hs => Execution.get?_results_of_serves wired serves hs (ok s hs)⟩

/-- A plan whose node promises its only output twice. -/
def promisesTwice : List NodeSpec := [
  { name := "source", type := "Echo", params := [("echo", .int 7)], outputs := ["output", "output"] }]

theorem served_run_completes_iff_promisesTwice : ∃ x : Execution,
    Plan.compile .builtin promisesTwice = .ok x.plan ∧ x.trace = none ∧
      (∀ s ∈ x.starts, s.Serves x.interval x.scope) ∧
      ¬ (∀ n ∈ x.plan.nodes, n.spec.outputs.Nodup) ∧ ¬ x.execute.1.isOk := by
  let run (p : CompiledPlan) : Execution := { plan := p, interval := ⟨0, 10, by decide⟩, scope := {} }
  have checks : ((Plan.compile .builtin promisesTwice).map fun p =>
      decide (∀ s ∈ (run p).starts, s.Serves (run p).interval (run p).scope) &&
      decide (¬ ∀ n ∈ p.nodes, n.spec.outputs.Nodup)).toOption = some true := by decide +kernel
  cases compiled : Plan.compile .builtin promisesTwice with
  | error e => simp [compiled, Except.map, Except.toOption] at checks
  | ok p =>
    obtain ⟨serves, twice⟩ : (∀ s ∈ (run p).starts, s.Serves (run p).interval (run p).scope) ∧
        ¬ ∀ n ∈ p.nodes, n.spec.outputs.Nodup := by
      simpa [compiled, Except.map, Except.toOption] using checks
    exact ⟨run p, rfl, rfl, serves, twice,
      fun ok => twice ((served_run_completes_iff compiled rfl serves).1.mp ok)⟩

end DetectionPlan
