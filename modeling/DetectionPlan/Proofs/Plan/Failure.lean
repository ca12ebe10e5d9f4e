/-
Runs that end in a failure. Such a run goes through all stages before one in which
a node fails, and starts nothing after it (`startsIn_failed`). What it leaves behind
is all that the nodes that succeeded promise, and nothing of those that failed.
-/
import DetectionPlan.Proofs.Plan.Run

namespace DetectionPlan

/-! ## Attempts -/

namespace Attempt

theorem isFailed_iff {a : Attempt} : a.isFailed = true ↔ ∃ e, a.outcome = .error e := by
  unfold isFailed
  cases a.outcome <;> simp

theorem published_of_isFailed {a : Attempt} (h : a.isFailed = true) : a.published = [] := by
  obtain ⟨e, he⟩ := isFailed_iff.mp h
  simp [published, he]

theorem ofAttempt?_node {a : Attempt} (h : a.isFailed = false) :
    (NodeReport.ofAttempt? a).map (·.node) = some a.node.name := by
  obtain ⟨outputs, ho⟩ := isFailed_eq_false_iff.mp h
  simp [NodeReport.ofAttempt?, ho]

theorem ofAttempt?_of_isFailed {a : Attempt} (h : a.isFailed = true) : NodeReport.ofAttempt? a = none := by
  obtain ⟨e, he⟩ := isFailed_iff.mp h
  simp [NodeReport.ofAttempt?, he]

end Attempt

namespace Trace

/-- The failure of a trace is that of the first attempt that has failed. -/
theorem failure?_eq_some_iff {t : Trace} {e : Failure} : t.failure? = some e ↔
    ∃ a cause, t.attempts.find? (·.isFailed) = some a ∧ a.outcome = .error cause ∧
      e = .executionFailed a.node.name cause := by
  obtain ⟨attempts⟩ := t
  simp only [failure?]
  induction attempts with
  | nil => simp
  | cons a more ih =>
    cases ha : a.outcome with
    | ok outputs => simpa [Attempt.failure?, Attempt.isFailed, ha] using ih
    | error cause => simp [Attempt.failure?, Attempt.isFailed, ha, eq_comm]

end Trace

/-! ## Where a run stops -/

variable {interval : Interval} {scope : RunScope}

/-- A run in which a node fails has gone through the stages before that of the node,
and through no stage after it. -/
theorem startsIn_failed {stages : List (List CompiledNode)} {past : List Start}
    (h : ∃ s ∈ startsIn interval scope stages past, (s.attempt interval scope).isFailed = true) :
    ∃ before stage after done last, stages = before ++ stage :: after ∧
      startsIn interval scope stages past = done ++ last ∧
      done.map (·.node) = before.flatten ∧ last.map (·.node) = stage ∧
      (∀ s ∈ done, (s.attempt interval scope).isFailed = false) ∧
      ∃ s ∈ last, (s.attempt interval scope).isFailed = true := by
  induction stages generalizing past with
  | nil => simp [startsIn] at h
  | cons stage rest ih =>
    let here : List Start := stage.map fun n => ⟨n, (Start.trace interval scope past).results⟩
    have nodes : here.map (·.node) = stage := by
      rw [List.map_map]
      exact List.map_id' stage
    by_cases failed : here.any fun s => (s.attempt interval scope).isFailed
    · -- A stage in which a node fails is the last one.
      have stops : startsIn interval scope (stage :: rest) past = here := by
        rw [startsIn, if_pos failed]
      obtain ⟨s, hs, hf⟩ := List.any_eq_true.mp failed
      exact ⟨[], stage, rest, [], here, rfl, stops, rfl, nodes, by simp, s, hs, hf⟩
    · -- No node of this stage fails, so the one that does is in a stage that follows.
      have goesOn : startsIn interval scope (stage :: rest) past =
          here ++ startsIn interval scope rest (past ++ here) := by
        rw [startsIn, if_neg failed]
      have fine : ∀ s ∈ here, (s.attempt interval scope).isFailed = false := fun s hs => by
        simpa using fun hf => failed (List.any_eq_true.mpr ⟨s, hs, hf⟩)
      obtain ⟨s, hs, hf⟩ := h
      rw [goesOn] at hs
      have later : s ∈ startsIn interval scope rest (past ++ here) := by
        rcases List.mem_append.mp hs with hs | hs
        · rw [fine s hs] at hf
          cases hf
        · exact hs
      obtain ⟨before, last, after, done, ends, rfl, split, doneNodes, endNodes, succeeded, broken⟩ :=
        ih ⟨s, later, hf⟩
      refine ⟨stage :: before, last, after, here ++ done, ends, rfl, ?_, ?_, endNodes, ?_, broken⟩
      · rw [goesOn, split, List.append_assoc]
      · rw [List.map_append, nodes, doneNodes, List.flatten_cons]
      · intro t ht
        rcases List.mem_append.mp ht with ht | ht
        · exact fine t ht
        · exact succeeded t ht

/-! ## What is left behind -/

/-- The attempts that have succeeded. -/
def succeeded (attempts : List Attempt) : List Attempt := attempts.filter (!·.isFailed)

theorem mem_succeeded {attempts : List Attempt} {a : Attempt} :
    a ∈ succeeded attempts ↔ a ∈ attempts ∧ a.isFailed = false := by
  simp [succeeded]

theorem flatMap_published (attempts : List Attempt) :
    attempts.flatMap (·.published) = (succeeded attempts).flatMap (·.published) := by
  induction attempts with
  | nil => rfl
  | cons a more ih =>
    cases ha : a.isFailed with
    | true => simpa [succeeded, ha, Attempt.published_of_isFailed ha] using ih
    | false => simpa [succeeded, ha] using ih

theorem report_nodes (attempts : List Attempt) :
    (attempts.filterMap NodeReport.ofAttempt?).map (·.node) =
      (succeeded attempts).map (·.node.name) := by
  induction attempts with
  | nil => rfl
  | cons a more ih =>
    cases ha : a.isFailed with
    | true => simpa [succeeded, Attempt.ofAttempt?_of_isFailed ha, ha] using ih
    | false =>
      obtain ⟨r, hr, name⟩ := Option.map_eq_some_iff.mp (Attempt.ofAttempt?_node ha)
      simpa [succeeded, hr, ha, name] using ih

namespace Start

variable {starts : List Start}

/-- The attempts that come of some starts. -/
def attempts (interval : Interval) (scope : RunScope) (starts : List Start) : List Attempt :=
  starts.map (·.attempt interval scope)

theorem map_node_attempts (starts : List Start) :
    (attempts interval scope starts).map (·.node) = (starts.map (·.node)).map (·.spec) := by
  simp only [attempts, List.map_map]
  exact List.map_congr_left fun s _ => s.node.attempt_node ..

/-- A node that succeeds publishes all that it promises, and nothing else. -/
theorem keys_published {s : Start} (h : (s.attempt interval scope).isFailed = false) :
    (s.attempt interval scope).published.map (·.1) =
      (s.attempt interval scope).node.outputs.map (s.attempt interval scope).node.key := by
  have name : (s.attempt interval scope).node = s.node.spec := s.node.attempt_node ..
  obtain ⟨outputs, ok⟩ := Attempt.isFailed_eq_false_iff.mp h
  obtain ⟨_, _, _, _, collected⟩ := CompiledNode.attempt_ok ok
  obtain ⟨keys, -, -⟩ := CompiledNode.collect_ok collected
  rw [Attempt.published, ok, name, ← keys, Keyed.keys, List.map_map, List.map_map]
  rfl

theorem entries_succeeded (names : (starts.map (·.node.spec.name)).Nodup) :
    (trace interval scope starts).results.entries =
      (succeeded (attempts interval scope starts)).flatMap (·.published) := by
  rw [entries_results interval scope names, ← flatMap_published, attempts, List.flatMap_map]

/-- The keys of the results are all that the nodes that succeeded promise. -/
theorem keys_succeeded (names : (starts.map (·.node.spec.name)).Nodup) :
    (trace interval scope starts).results.keys =
      (succeeded (attempts interval scope starts)).flatMap fun a => a.node.outputs.map a.node.key := by
  rw [Keyed.keys, entries_succeeded names, List.map_flatMap]
  refine List.flatMap_congr fun a ha => ?_
  obtain ⟨mem, ok⟩ := mem_succeeded.mp ha
  obtain ⟨s, -, rfl⟩ := List.mem_map.mp mem
  exact keys_published ok

/-- Nothing in the results is from a node that failed. -/
theorem ne_of_isFailed (names : (starts.map (·.node.spec.name)).Nodup) {a : Attempt}
    (ha : a ∈ attempts interval scope starts) (failed : a.isFailed = true) {k : OutputKey}
    (hk : k ∈ (trace interval scope starts).results.keys) : k.node ≠ a.node.name := by
  intro same
  have name (s : Start) : (s.attempt interval scope).node = s.node.spec := s.node.attempt_node ..
  rw [keys_succeeded names] at hk
  obtain ⟨b, hb, hk⟩ := List.mem_flatMap.mp hk
  obtain ⟨output, -, rfl⟩ := List.mem_map.mp hk
  obtain ⟨mem, ok⟩ := mem_succeeded.mp hb
  obtain ⟨t, ht, rfl⟩ := List.mem_map.mp mem
  obtain ⟨s, hs, rfl⟩ := List.mem_map.mp ha
  have names' : t.node.spec.name = s.node.spec.name := by
    rw [← name s, ← name t]
    exact same
  obtain rfl := List.inj_on_of_nodup_map names ht hs names'
  rw [ok] at failed
  cases failed

end Start

/-- How an execution stands after a run that nodes of a stage have ended. The nodes
`before` the stage have all succeeded, in the attempts `done`; of the attempts `last`
at the nodes of the stage some have failed, and no others were made. -/
structure Execution.StoppedIn (x : Execution) (e : Failure) (before stage : List CompiledNode)
    (done last : List Attempt) : Prop where
  trace : x.trace = some ⟨done ++ last⟩
  doneNodes : done.map (·.node) = before.map (·.spec)
  lastNodes : last.map (·.node) = stage.map (·.spec)
  doneSucceeded : succeeded done = done
  /-- The results are what the nodes that succeeded have published. -/
  entries : x.results.entries = (done ++ succeeded last).flatMap (·.published)
  /-- Each of these nodes has published all that it promises. -/
  keys : x.results.keys =
    (done ++ succeeded last).flatMap fun a => a.node.outputs.map a.node.key
  /-- A node that failed has published nothing. -/
  silent : ∀ a ∈ last, a.isFailed = true → ∀ k ∈ x.results.keys, k.node ≠ a.node.name
  reported : x.report.nodes.map (·.node) = (done ++ succeeded last).map (·.node.name)
  /-- The failure is that of the first node of the stage that failed. -/
  failure : ∃ a cause, last.find? (·.isFailed) = some a ∧ a.outcome = .error cause ∧
    e = .executionFailed a.node.name cause ∧ x.report.failedNode = some a.node.name
  /-- The plan does not run again. -/
  ended : x.execute = (.error .alreadyExecuted, x)

namespace Execution

variable {x : Execution} {e : Failure}

theorem execute_again {t : Trace} (h : x.trace = some t) : x.execute = (.error .alreadyExecuted, x) := by
  unfold execute
  rw [h]

theorem startTrace_failed (fresh : x.trace = none) (failed : x.execute.1 = .error e) :
    ∃ a cause, x.startTrace.attempts.find? (·.isFailed) = some a ∧ a.outcome = .error cause ∧
      e = .executionFailed a.node.name cause := by
  refine Trace.failure?_eq_some_iff.mp ?_
  rw [execute_eq fresh] at failed
  cases h : x.startTrace.failure? with
  | none => simp [h] at failed
  | some e' => simpa [h] using failed

/-- A run that fails stops in one of its stages. -/
theorem stoppedIn_of_failed (wired : x.plan.WellWired) (fresh : x.trace = none)
    (failed : x.execute.1 = .error e) :
    ∃ before stage after done last, x.plan.stages x.settings = before ++ stage :: after ∧
      x.execute.2.StoppedIn e before.flatten stage done last := by
  have names := (orderly_starts wired).names
  obtain ⟨a, cause, first, ha, he⟩ := startTrace_failed fresh failed
  obtain ⟨s, hs, rfl⟩ := List.mem_map.mp (List.mem_of_find?_eq_some first)
  obtain ⟨before, stage, after, done, last, stages, split, doneNodes, lastNodes, fine, -⟩ :=
    startsIn_failed ⟨s, hs, Attempt.isFailed_iff.mpr ⟨cause, ha⟩⟩
  let made := Start.attempts x.interval x.scope
  have attempts : made x.starts = made done ++ made last := by
    simp only [made, Start.attempts, starts, split, List.map_append]
  have doneFine : ∀ a ∈ made done, a.isFailed = false := by
    intro a ha
    obtain ⟨t, ht, rfl⟩ := List.mem_map.mp ha
    exact fine t ht
  have doneSucceeded : succeeded (made done) = made done :=
    List.filter_eq_self.mpr fun a ha => by simp [doneFine a ha]
  have kept : succeeded (made x.starts) = made done ++ succeeded (made last) := by
    rw [attempts, succeeded, List.filter_append]
    exact congrArg (· ++ succeeded (made last)) doneSucceeded
  -- No attempt before the last stage has failed, so the first failure is one of its own.
  have firstOfLast : (made last).find? (·.isFailed) = some (s.attempt x.interval x.scope) := by
    have none : (made done).find? (·.isFailed) = none :=
      List.find?_eq_none.mpr fun a ha => by simp [doneFine a ha]
    have found : (made x.starts).find? (·.isFailed) = some (s.attempt x.interval x.scope) := first
    rwa [attempts, List.find?_append, none, Option.none_or] at found
  rw [execute_eq fresh]
  exact ⟨before, stage, after, made done, made last, stages, {
    trace := congrArg (fun l => some (Trace.mk l)) attempts
    doneNodes := by rw [Start.map_node_attempts, doneNodes]
    lastNodes := by rw [Start.map_node_attempts, lastNodes]
    doneSucceeded
    entries := kept ▸ Start.entries_succeeded names
    keys := kept ▸ Start.keys_succeeded names
    silent := fun a ha broken k hk => by
      have mem : a ∈ made x.starts := attempts ▸ List.mem_append_right _ ha
      exact Start.ne_of_isFailed names mem broken hk
    reported := kept ▸ report_nodes _
    failure := ⟨_, cause, firstOfLast, ha, he, congrArg (Option.map fun a : Attempt => a.node.name) first⟩
    ended := execute_again rfl }⟩

end Execution

/-- A level holds its nodes in the order in which they are declared. -/
theorem Plan.levels_sublist {registry : OperatorRegistry} {specs : List NodeSpec} {p : CompiledPlan}
    (h : compile registry specs = .ok p) :
    ∀ level ∈ p.levels, (level.map (·.spec.name)).Sublist (specs.map (·.name)) := by
  obtain ⟨-, nodes, deps, order, hn, hd, -, rfl⟩ := compile_ok_iff.mp h
  intro level hl
  obtain ⟨places, hp, rfl⟩ := List.mem_map.mp hl
  obtain ⟨depth, -, rfl⟩ := List.mem_map.mp hp
  have ascending := (List.filter_sublist (l := List.range deps.length)
    (p := fun node => (Dependencies.depths deps order).lookup node == some depth)).filterMap (nodes[·]?)
  rw [← hd.length_eq, ← pick, ← pick, pick_range, hd.length_eq] at ascending
  rw [← map_name_of_resolved hn]
  exact ascending.map _

/-- **What a failed run leaves behind.** When nodes run one by one, it is all that the
nodes before the failed one in the order promise, and they are the nodes reported;
when levels run together, it is all that the nodes of the levels below and those
nodes of the failed level that succeeded promise. No node after these was started, the
failed nodes have published nothing, the one that is named is the first declared, and
the plan does not run again. -/
theorem failed_run_keeps_complete_nodes {registry : OperatorRegistry} {specs : List NodeSpec}
    {x : Execution} {e : Failure} (compiled : Plan.compile registry specs = .ok x.plan)
    (fresh : x.trace = none) (failed : x.execute.1 = .error e) :
    (x.settings.parallel = false → ∃ before n after done a,
      x.plan.order = before ++ n :: after ∧ x.execute.2.StoppedIn e before [n] done [a] ∧
      x.execute.2.results.keys = before.flatMap (fun m => m.spec.outputs.map m.spec.key) ∧
      x.execute.2.report.nodes.map (·.node) = before.map (·.spec.name) ∧
      x.execute.2.report.failedNode = some n.spec.name) ∧
    (x.settings.parallel = true → ∃ below level above done last,
      x.plan.levels = below ++ level :: above ∧
      (level.map (·.spec.name)).Sublist (specs.map (·.name)) ∧
      x.execute.2.StoppedIn e below.flatten level done last) := by
  obtain ⟨before, stage, after, done, last, stages, stopped⟩ :=
    Execution.stoppedIn_of_failed (Plan.compile_wellWired compiled) fresh failed
  unfold CompiledPlan.stages at stages
  constructor <;> intro mode
  · -- Where nodes run one by one a stage is a single node, so the failed one ends the run.
    rw [mode] at stages
    obtain ⟨l, more, order, rfl, h⟩ := List.map_eq_append_iff.mp stages
    obtain ⟨n, l', rfl, rfl, rfl⟩ := List.map_eq_cons_iff.mp h
    have flat : (l.map ([·])).flatten = l := by rw [← List.flatMap_def]; simp
    rw [flat] at stopped
    obtain ⟨a, -, first, -, -, named⟩ := stopped.failure
    obtain ⟨b, rfl, node⟩ : ∃ b, last = [b] ∧ b.node = n.spec := by
      simpa using stopped.lastNodes
    obtain rfl : b = a := List.mem_singleton.mp (List.mem_of_find?_eq_some first) ▸ rfl
    have none : succeeded [b] = [] := by
      simpa [succeeded] using List.find?_some first
    have keys := stopped.keys
    have reported := stopped.reported
    rw [none, List.append_nil] at keys reported
    refine ⟨l, n, l', done, b, order, stopped, ?_, ?_, named.trans (by rw [node])⟩
    · have same := congrArg (List.flatMap fun s : NodeSpec => s.outputs.map s.key) stopped.doneNodes
      rw [List.flatMap_map, List.flatMap_map] at same
      exact keys.trans same
    · have same := congrArg (List.map NodeSpec.name) stopped.doneNodes
      rw [List.map_map, List.map_map] at same
      exact reported.trans same
  · rw [mode] at stages
    have level : stage ∈ x.plan.levels := by
      have : x.plan.levels = before ++ stage :: after := stages
      simp [this]
    exact ⟨before, stage, after, done, last, stages, Plan.levels_sublist compiled stage level, stopped⟩

/-- A plan whose second node does not say what it fetches. -/
def stumble : List NodeSpec := [
  { name := "source", type := "Echo" },
  { name := "fetch", type := "DataFetcher", inputs := [⟨"value", ⟨"source", "output"⟩⟩] },
  { name := "sink", type := "Echo", inputs := [⟨"data", ⟨"fetch", "currentData"⟩⟩] }]

theorem failed_run_keeps_complete_nodes_stumble : ∃ (x : Execution) (e : Failure),
    Plan.compile .builtin stumble = .ok x.plan ∧ x.settings.parallel = false ∧
      x.trace = none ∧ x.execute.1 = .error e ∧ ∃ before n after done a,
        x.plan.order = before ++ n :: after ∧ x.execute.2.StoppedIn e before [n] done [a] ∧
        x.execute.2.results.keys = before.flatMap (fun m => m.spec.outputs.map m.spec.key) ∧
        x.execute.2.report.nodes.map (·.node) = before.map (·.spec.name) ∧
        x.execute.2.report.failedNode = some n.spec.name := by
  let run (p : CompiledPlan) : Execution := { plan := p, interval := ⟨0, 10, by decide⟩, scope := {} }
  have fails : ((Plan.compile .builtin stumble).map fun p => (run p).execute.1.isOk).toOption =
      some false := by decide +kernel
  cases compiled : Plan.compile .builtin stumble with
  | error e => simp [compiled, Except.map, Except.toOption] at fails
  | ok p =>
    cases failed : (run p).execute.1 with
    | ok results => simp [compiled, failed, Except.map, Except.toOption, Except.isOk, Except.toBool] at fails
    | error e =>
      exact ⟨run p, e, rfl, rfl, rfl, failed,
        (failed_run_keeps_complete_nodes compiled rfl failed).1 rfl⟩

end DetectionPlan
