/-
Runs of a compiled plan. Whenever a node is started, all that its inputs name
has been published before by nodes started before, and is handed to the node's
operator as it was published (`started_reads_published`). So a run never ends
because an input is missing: only operators, and outputs that they do not
publish, end it.
-/
import DetectionPlan.Proofs.Keyed
import DetectionPlan.Proofs.Plan.Wiring
import Mathlib.Data.List.Flatten

namespace DetectionPlan

open Outcome (bind_ok_iff map_ok_iff mapM_ok_iff)

/-! ## What one node does -/

namespace CompiledNode

/-- What a node's operator publishes for its inputs, promised or not. -/
def publishes (n : CompiledNode) (interval : Interval) (scope : RunScope) (inputs : NamedResults) :
    Outcome NamedResults := do
  let job ← n.operator.prepare { node := n.spec, interval, inputs, scope }
  return Keyed.ofList (← job.outcome)

theorem perform_node (n : CompiledNode) (interval : Interval) (scope : RunScope)
    (inputs : NamedResults) : (n.perform interval scope inputs).node = n.spec := by
  unfold perform
  split <;> rfl

theorem attempt_node (n : CompiledNode) (interval : Interval) (scope : RunScope)
    (seen : Results) : (n.attempt interval scope seen).node = n.spec := by
  unfold attempt
  split
  · rfl
  · exact perform_node n interval scope _

theorem perform_outcome (n : CompiledNode) (interval : Interval) (scope : RunScope)
    (inputs : NamedResults) :
    (n.perform interval scope inputs).outcome = (n.publishes interval scope inputs >>= n.collect) := by
  unfold perform publishes
  split
  next e h => rw [h]; rfl
  next job h =>
    rw [h]
    simp only [bind, Except.bind, pure, Except.pure]
    cases job.outcome <;> rfl

theorem lookup_of_lookup_filter {output key : String} {value : PlanResult}
    {left : List (String × PlanResult)}
    (h : (left.filter (·.1 != output)).lookup key = some value) :
    key ≠ output ∧ left.lookup key = some value := by
  induction left with
  | nil => simp at h
  | cons p left ih =>
    obtain ⟨k, v⟩ := p
    by_cases hk : k = output
    · subst hk
      obtain ⟨ne, found⟩ := ih (by simpa using h)
      have off : (key == k) = false := by simpa using ne
      exact ⟨ne, by simp [List.lookup_cons, off, found]⟩
    · by_cases same : key = k
      · subst same
        exact ⟨hk, by simpa [hk] using h⟩
      · have off : (key == k) = false := by simpa using same
        have keep : (k != output) = true := by simpa using hk
        simp only [List.filter_cons, keep, if_true, List.lookup_cons, off] at h ⊢
        exact ih h

theorem collect_go_ok {n : CompiledNode} {outputs : List String}
    {left es : List (String × PlanResult)} (h : collect.go n outputs left = .ok es) :
    es.map (·.1) = outputs ∧ outputs.Nodup ∧ ∀ e ∈ es, left.lookup e.1 = some e.2 := by
  induction outputs generalizing left es with
  | nil =>
    obtain rfl := Except.ok.inj h
    simp
  | cons output rest ih =>
    simp only [collect.go] at h
    split at h
    · cases h
    next r hr =>
      obtain ⟨more, hm, rfl⟩ := map_ok_iff.mp h
      obtain ⟨keys, nodup, values⟩ := ih hm
      have other : ∀ e ∈ more, e.1 ≠ output ∧ left.lookup e.1 = some e.2 :=
        fun e he => lookup_of_lookup_filter (values e he)
      refine ⟨by simp [keys], ?_, ?_⟩
      · rw [List.nodup_cons]
        refine ⟨fun hm' => ?_, nodup⟩
        rw [← keys] at hm'
        obtain ⟨e, he, name⟩ := List.mem_map.mp hm'
        exact (other e he).1 name
      · intro e he
        rcases List.mem_cons.mp he with rfl | he
        · exact hr
        · exact (other e he).2

/-- A node hands on the outputs it promises, each once, as its operator has
published them. -/
theorem collect_ok {n : CompiledNode} {published outputs : NamedResults}
    (h : n.collect published = .ok outputs) :
    outputs.keys = n.spec.outputs ∧ n.spec.outputs.Nodup ∧
      ∀ e ∈ outputs.entries, published.get? e.1 = some e.2 := by
  obtain ⟨es, hes, rfl⟩ := map_ok_iff.mp h
  obtain ⟨keys, nodup, values⟩ := collect_go_ok hes
  have same := Keyed.entries_ofList_of_nodup (keys ▸ nodup)
  exact ⟨by rw [Keyed.keys, same, keys], nodup, by rw [same]; exact values⟩

theorem fetchInput_ok_iff {n : CompiledNode} {seen : Results} {b : InputBinding}
    {r : String × PlanResult} :
    n.fetchInput seen b = .ok r ↔ ∃ v, seen.get? b.source = some v ∧ r = (b.property, v) := by
  unfold fetchInput
  cases seen.get? b.source with
  | none => simp
  | some v => simp [eq_comm]

/-- The inputs of a node are there when all that they name has been published;
each is then under its own name. -/
theorem gather_ok {n : CompiledNode} {seen : Results}
    (properties : (n.spec.inputs.map (·.property)).Nodup)
    (there : ∀ b ∈ n.spec.inputs, ∃ v, seen.get? b.source = some v) :
    ∃ inputs, n.gather seen = .ok inputs ∧ inputs.keys = n.spec.inputs.map (·.property) ∧
      ∀ b ∈ n.spec.inputs, inputs.get? b.property = seen.get? b.source := by
  have each : ∀ b ∈ n.spec.inputs, ∃ r, n.fetchInput seen b = .ok r := fun b hb => by
    obtain ⟨v, hv⟩ := there b hb
    exact ⟨_, fetchInput_ok_iff.mpr ⟨v, hv, rfl⟩⟩
  obtain ⟨es, hes⟩ := Outcome.exists_mapM_ok each
  have related := mapM_ok_iff.mp hes
  have keys : es.map (·.1) = n.spec.inputs.map (·.property) :=
    Outcome.map_eq_of_forall₂ related fun b r h => by
      obtain ⟨v, -, rfl⟩ := fetchInput_ok_iff.mp h
      rfl
  have entries := Keyed.entries_ofList_of_nodup (keys ▸ properties)
  refine ⟨Keyed.ofList es, map_ok_iff.mpr ⟨es, hes, rfl⟩, by rw [Keyed.keys, entries, keys], ?_⟩
  intro b hb
  obtain ⟨r, hr, h⟩ := Outcome.exists_mem_of_forall₂ related hb
  obtain ⟨v, hv, rfl⟩ := fetchInput_ok_iff.mp h
  rw [hv, Keyed.get?_eq_some_iff (Keyed.nodup_keys_ofList es), entries]
  exact hr

theorem attempt_of_gather {n : CompiledNode} {interval : Interval} {scope : RunScope}
    {seen : Results} {inputs : NamedResults} (h : n.gather seen = .ok inputs) :
    n.attempt interval scope seen = n.perform interval scope inputs := by
  unfold attempt
  rw [h]

theorem attempt_ok {n : CompiledNode} {interval : Interval} {scope : RunScope} {seen : Results}
    {outputs : NamedResults} (h : (n.attempt interval scope seen).outcome = .ok outputs) :
    ∃ inputs published, n.gather seen = .ok inputs ∧
      n.publishes interval scope inputs = .ok published ∧ n.collect published = .ok outputs := by
  unfold attempt at h
  split at h
  · cases h
  next inputs hi =>
    rw [perform_outcome] at h
    obtain ⟨published, hp, hc⟩ := bind_ok_iff.mp h
    exact ⟨inputs, published, hi, hp, hc⟩

end CompiledNode

theorem Attempt.isFailed_eq_false_iff {a : Attempt} : a.isFailed = false ↔ ∃ outputs, a.outcome = .ok outputs := by
  unfold isFailed
  cases a.outcome <;> simp

/-! ## What a run has published -/

/-- A node that is started, and what has been published by then. -/
structure Start where
  node : CompiledNode
  seen : Results

namespace Start

variable (interval : Interval) (scope : RunScope)

/-- What comes of the start. -/
def attempt (s : Start) : Attempt := s.node.attempt interval scope s.seen

/-- The trace of some starts. -/
def trace (starts : List Start) : Trace := ⟨starts.map (·.attempt interval scope)⟩

theorem mem_published {s : Start} {k : OutputKey} {v : PlanResult} :
    (k, v) ∈ (s.attempt interval scope).published ↔
      ∃ outputs, (s.attempt interval scope).outcome = .ok outputs ∧ k.node = s.node.spec.name ∧
        (k.output, v) ∈ outputs.entries := by
  have name : (s.attempt interval scope).node = s.node.spec := s.node.attempt_node ..
  unfold Attempt.published
  cases (s.attempt interval scope).outcome with
  | error e => simp
  | ok outputs =>
    obtain ⟨node, output⟩ := k
    simp only [List.mem_map, Prod.mk.injEq, name, NodeSpec.key, OutputKey.mk.injEq,
      Except.ok.injEq, exists_eq_left']
    constructor
    · rintro ⟨e, he, ⟨rfl, rfl⟩, rfl⟩
      exact ⟨rfl, he⟩
    · rintro ⟨rfl, he⟩
      exact ⟨(output, v), he, ⟨rfl, rfl⟩, rfl⟩

theorem nodup_published (s : Start) :
    ((s.attempt interval scope).published.map (·.1)).Nodup := by
  unfold Attempt.published
  split
  next outputs h =>
    obtain ⟨_, _, _, _, hc⟩ := CompiledNode.attempt_ok h
    obtain ⟨keys, nodup, -⟩ := CompiledNode.collect_ok hc
    rw [List.map_map]
    have : (outputs.entries.map fun e => (s.attempt interval scope).node.key e.1) =
        outputs.keys.map (s.attempt interval scope).node.key := by simp [Keyed.keys]
    refine (congrArg List.Nodup this).mpr ?_
    rw [keys]
    exact nodup.map fun a b e => (OutputKey.mk.inj e).2
  · exact List.nodup_nil

/-- No key is published twice when the nodes that are started have different
names, so the results are what was published, in order. -/
theorem entries_results {starts : List Start} (names : (starts.map (·.node.spec.name)).Nodup) :
    (trace interval scope starts).results.entries =
      starts.flatMap fun s => (s.attempt interval scope).published := by
  rw [Trace.results, trace, List.flatMap_map]
  refine Keyed.entries_ofList_of_nodup ?_
  rw [List.map_flatMap, List.nodup_flatMap]
  refine ⟨fun s _ => nodup_published interval scope s, ?_⟩
  rw [List.Nodup, List.pairwise_map] at names
  refine names.imp fun {s t} ne k hs ht => ne ?_
  obtain ⟨⟨k', v⟩, hv, rfl⟩ := List.mem_map.mp hs
  obtain ⟨⟨k'', w⟩, hw, e⟩ := List.mem_map.mp ht
  obtain ⟨-, -, name, -⟩ := (mem_published interval scope).mp hv
  obtain ⟨-, -, name', -⟩ := (mem_published interval scope).mp hw
  simp only at e
  rw [← name, ← name', e]

theorem get?_results {starts : List Start} (names : (starts.map (·.node.spec.name)).Nodup)
    {k : OutputKey} {v : PlanResult} :
    (trace interval scope starts).results.get? k = some v ↔
      ∃ s ∈ starts, (k, v) ∈ (s.attempt interval scope).published := by
  have nodup : (trace interval scope starts).results.keys.Nodup := Keyed.nodup_keys_ofList _
  rw [Keyed.get?_eq_some_iff nodup, entries_results interval scope names, List.mem_flatMap]

/-- The inputs of a start are there: each has been published by an earlier start
of the node it names, and is handed on as it was published. -/
structure Fed (earlier : List Start) (s : Start) : Prop where
  seen : ∃ before, before <+: earlier ∧ s.seen = (trace interval scope before).results
  inputs : ∃ inputs, s.node.gather s.seen = .ok inputs ∧
    s.attempt interval scope = s.node.perform interval scope inputs ∧
    inputs.keys = s.node.spec.inputs.map (·.property) ∧
    ∀ b ∈ s.node.spec.inputs, ∃ m ∈ earlier, m.node.spec.name = b.source.node ∧
      ∃ given published v, m.node.gather m.seen = .ok given ∧
        m.node.publishes interval scope given = .ok published ∧
        published.get? b.source.output = some v ∧
        s.seen.get? b.source = some v ∧ inputs.get? b.property = some v

end Start

/-! ## The starts of a run -/

/-- The nodes that a run through stages starts, after some that it has started. -/
def startsIn (interval : Interval) (scope : RunScope) :
    List (List CompiledNode) → List Start → List Start
  | [], _ => []
  | stage :: rest, past =>
    let here := stage.map fun n => ⟨n, (Start.trace interval scope past).results⟩
    if here.any fun s => (s.attempt interval scope).isFailed then here
    else here ++ startsIn interval scope rest (past ++ here)

/-- The nodes that a run starts, in order. -/
def Execution.starts (x : Execution) : List Start :=
  startsIn x.interval x.scope (x.plan.stages x.settings) []

theorem runStages_trace (interval : Interval) (scope : RunScope) (stages : List (List CompiledNode))
    (past : List Start) :
    runStages interval scope stages (Start.trace interval scope past) =
      Start.trace interval scope (past ++ startsIn interval scope stages past) := by
  induction stages generalizing past with
  | nil => simp [runStages, startsIn]
  | cons stage rest ih =>
    have here : (stage.map fun n => n.attempt interval scope (Start.trace interval scope past).results) =
        (stage.map fun n => (⟨n, (Start.trace interval scope past).results⟩ : Start)).map
          (·.attempt interval scope) := by
      rw [List.map_map]
      rfl
    have onward := ih (past ++ stage.map fun n => ⟨n, (Start.trace interval scope past).results⟩)
    simp only [runStages, startsIn, here, List.any_map, Function.comp_def]
    split
    · simp [Start.trace]
    · rw [← List.append_assoc, ← onward]
      simp [Start.trace]

theorem startsIn_nodes (interval : Interval) (scope : RunScope) (stages : List (List CompiledNode))
    (past : List Start) : (startsIn interval scope stages past).map (·.node) <+: stages.flatten := by
  induction stages generalizing past with
  | nil => exact List.prefix_rfl
  | cons stage rest ih =>
    have here : (stage.map fun n =>
        (⟨n, (Start.trace interval scope past).results⟩ : Start)).map (·.node) = stage := by
      rw [List.map_map]
      exact List.map_id' stage
    rw [startsIn, List.flatten_cons]
    split
    · rw [here]
      exact List.prefix_append _ _
    · rw [List.map_append, here]
      exact (List.prefix_append_right_inj stage).mpr (ih _)

theorem Start.Fed.mono {interval : Interval} {scope : RunScope} {earlier : List Start} {s : Start}
    (h : s.Fed interval scope earlier) (more : List Start) : s.Fed interval scope (earlier ++ more) := by
  obtain ⟨⟨before, sub, seen⟩, inputs, gathered, same, keys, fed⟩ := h
  refine ⟨⟨before, sub.trans (List.prefix_append _ _), seen⟩, inputs, gathered, same, keys, ?_⟩
  intro b hb
  obtain ⟨m, hm, rest⟩ := fed b hb
  exact ⟨m, List.mem_append_left _ hm, rest⟩

/-- What a node needs is published once the stages before it have succeeded. -/
theorem fed_of_past {interval : Interval} {scope : RunScope}
    {past : List Start} {n : CompiledNode} (names : (past.map (·.node.spec.name)).Nodup)
    (properties : (n.spec.inputs.map (·.property)).Nodup)
    (succeeded : ∀ s ∈ past, (s.attempt interval scope).isFailed = false)
    (fed : ∀ b ∈ n.spec.inputs, ∃ m ∈ past.map (·.node),
      m.spec.name = b.source.node ∧ b.source.output ∈ m.spec.outputs) :
    Start.Fed interval scope past ⟨n, (Start.trace interval scope past).results⟩ := by
  -- The node that an input names has succeeded, and then all that it promises is published.
  have published : ∀ b ∈ n.spec.inputs, ∃ m ∈ past, m.node.spec.name = b.source.node ∧
      ∃ given published v, m.node.gather m.seen = .ok given ∧
        m.node.publishes interval scope given = .ok published ∧
        published.get? b.source.output = some v ∧
        (Start.trace interval scope past).results.get? b.source = some v := by
    intro b hb
    obtain ⟨_, there, name, promised⟩ := fed b hb
    obtain ⟨m, hm, rfl⟩ := List.mem_map.mp there
    obtain ⟨outputs, ok⟩ := Attempt.isFailed_eq_false_iff.mp (succeeded m hm)
    obtain ⟨given, published, hg, hp, hc⟩ := CompiledNode.attempt_ok ok
    obtain ⟨keys, -, values⟩ := CompiledNode.collect_ok hc
    rw [← keys] at promised
    obtain ⟨e, he, output⟩ := List.mem_map.mp promised
    refine ⟨m, hm, name, given, published, e.2, hg, hp, output ▸ values e he, ?_⟩
    rw [Start.get?_results interval scope names]
    exact ⟨m, hm, (Start.mem_published interval scope).mpr ⟨outputs, ok, name.symm, output ▸ he⟩⟩
  obtain ⟨inputs, gathered, keys, values⟩ := CompiledNode.gather_ok properties fun b hb => by
    obtain ⟨_, _, _, _, _, v, _, _, _, there⟩ := published b hb
    exact ⟨v, there⟩
  refine ⟨⟨past, List.prefix_rfl, rfl⟩, inputs, gathered, CompiledNode.attempt_of_gather gathered,
    keys, fun b hb => ?_⟩
  obtain ⟨m, hm, name, given, published, v, hg, hp, hv, there⟩ := published b hb
  exact ⟨m, hm, name, given, published, v, hg, hp, hv, there, (values b hb).trans there⟩

theorem append_eq_append_cons {α : Type} {l m before after : List α} {a : α}
    (h : l ++ m = before ++ a :: after) :
    a ∈ l ∨ ∃ more, before = l ++ more ∧ m = more ++ a :: after := by
  rcases List.append_eq_append_iff.mp h with ⟨more, rfl, e⟩ | ⟨more, rfl, e⟩
  · exact .inr ⟨more, rfl, e⟩
  · cases more with
    | nil => exact .inr ⟨[], by simp, by simpa using e.symm⟩
    | cons b more =>
      obtain ⟨rfl, -⟩ := List.cons.inj e
      exact .inl (by simp)

/-- After stages that have succeeded, every start of the stages that follow is
fed by the starts before it. -/
theorem fed_startsIn {nodes : List CompiledNode} {interval : Interval} {scope : RunScope}
    (names : (nodes.map (·.spec.name)).Nodup)
    (properties : ∀ n ∈ nodes, (n.spec.inputs.map (·.property)).Nodup) :
    ∀ (done stages : List (List CompiledNode)) (past : List Start), Staged nodes (done ++ stages) →
      past.map (·.node) = done.flatten →
      (∀ s ∈ past, (s.attempt interval scope).isFailed = false) →
      ∀ earlier s later, startsIn interval scope stages past = earlier ++ s :: later →
        s.Fed interval scope (past ++ earlier) := by
  intro done stages
  -- By the stages still to come; those that are done have become the past.
  induction stages generalizing done with
  | nil =>
    intro past _ _ _ earlier s later h
    simp [startsIn] at h
  | cons stage rest ih =>
    intro past staged started succeeded earlier s later h
    have pastNames : (past.map (·.node.spec.name)).Nodup := by
      have all := (staged.perm.map (·.spec.name)).nodup_iff.mpr names
      rw [List.flatten_append, List.map_append, List.nodup_append, ← started, List.map_map] at all
      exact all.1
    have here : ∀ s ∈ stage.map fun n => (⟨n, (Start.trace interval scope past).results⟩ : Start),
        s.Fed interval scope past := by
      intro s hs
      obtain ⟨n, hn, rfl⟩ := List.mem_map.mp hs
      have mem : n ∈ nodes := staged.perm.mem_iff.mp (by simp [hn])
      refine fed_of_past pastNames (properties n mem) succeeded ?_
      rw [started]
      exact staged.fed done stage rest rfl n hn
    rw [startsIn] at h
    split at h
    · exact (here s (h ▸ by simp)).mono earlier
    next none =>
      rcases append_eq_append_cons h with hs | ⟨more, rfl, e⟩
      · exact (here s hs).mono earlier
      · rw [← List.append_assoc]
        refine ih (done ++ [stage]) _ (by simpa using staged) ?_ ?_ more s later e
        · simp [started, Function.comp_def]
        · intro t ht
          rcases List.mem_append.mp ht with ht | ht
          · exact succeeded t ht
          · simpa using fun failed => none (List.any_eq_true.mpr ⟨t, ht, failed⟩)

/-- The trace that running a plan leaves behind. -/
def Execution.startTrace (x : Execution) : Trace := Start.trace x.interval x.scope x.starts

theorem execute_eq {x : Execution} (fresh : x.trace = none) :
    x.execute = (match x.startTrace.failure? with
      | some e => .error e
      | none => .ok x.startTrace.results, { x with trace := some x.startTrace }) := by
  have run : runStages x.interval x.scope (x.plan.stages x.settings) {} = x.startTrace :=
    runStages_trace x.interval x.scope (x.plan.stages x.settings) []
  unfold Execution.execute
  rw [fresh]
  exact run ▸ rfl

/-- Starts in which every node occurs at most once, and is fed by the starts
before it. -/
structure Orderly (interval : Interval) (scope : RunScope) (nodes : List CompiledNode)
    (starts : List Start) : Prop where
  names : (starts.map (·.node.spec.name)).Nodup
  mem : ∀ s ∈ starts, s.node ∈ nodes
  fed : ∀ earlier s later, starts = earlier ++ s :: later → s.Fed interval scope earlier

theorem orderly_starts {x : Execution} (wired : x.plan.WellWired) :
    Orderly x.interval x.scope x.plan.nodes x.starts := by
  have staged := wired.staged x.settings
  have nodes := startsIn_nodes x.interval x.scope (x.plan.stages x.settings) []
  refine ⟨?_, ?_, ?_⟩
  · have all := (staged.perm.map (·.spec.name)).nodup_iff.mpr wired.names
    have sub := (nodes.map (·.spec.name)).sublist.nodup all
    rwa [List.map_map] at sub
  · intro s hs
    exact staged.perm.mem_iff.mp (nodes.subset (List.mem_map_of_mem hs))
  · intro earlier s later h
    exact fed_startsIn wired.names wired.properties [] _ [] staged rfl (by simp) earlier s later h

/-- **Every run of every plan that compiles**, whatever its operators do and in
either mode, starts each node at most once; and when a node is started, each of
its inputs has been published by an earlier start of the node it names and
reaches the operator as it was published. -/
theorem started_reads_published {registry : OperatorRegistry} {specs : List NodeSpec}
    {x : Execution} (compiled : Plan.compile registry specs = .ok x.plan) (fresh : x.trace = none) :
    x.execute.2.trace = some ⟨x.starts.map (·.attempt x.interval x.scope)⟩ ∧
      (x.starts.map (·.node.spec.name)).Nodup ∧ (∀ s ∈ x.starts, s.node ∈ x.plan.nodes) ∧
      ∀ earlier s later, x.starts = earlier ++ s :: later →
        s.Fed x.interval x.scope earlier := by
  have orderly := orderly_starts (Plan.compile_wellWired compiled)
  exact ⟨by rw [execute_eq fresh]; rfl, orderly.names, orderly.mem, orderly.fed⟩

/-- A plan whose first node reads from its second. -/
def relay : List NodeSpec := [
  { name := "sink", type := "Echo", inputs := [⟨"value", ⟨"source", "output"⟩⟩] },
  { name := "source", type := "Echo", params := [("echo", .int 7)] }]

theorem compile_relay : ∃ p, Plan.compile .builtin relay = .ok p := by
  have ok : (Plan.compile .builtin relay).isOk = true := by decide +kernel
  cases h : Plan.compile .builtin relay with
  | error e => rw [h] at ok; cases ok
  | ok p => exact ⟨p, rfl⟩

theorem started_reads_published_relay : ∃ x : Execution,
    Plan.compile .builtin relay = .ok x.plan ∧ x.trace = none ∧
      x.execute.2.trace = some ⟨x.starts.map (·.attempt x.interval x.scope)⟩ ∧
      (x.starts.map (·.node.spec.name)).Nodup ∧ (∀ s ∈ x.starts, s.node ∈ x.plan.nodes) ∧
      ∀ earlier s later, x.starts = earlier ++ s :: later →
        s.Fed x.interval x.scope earlier := by
  obtain ⟨p, hp⟩ := compile_relay
  let x : Execution := { plan := p, interval := ⟨0, 10, by decide⟩, scope := {} }
  exact ⟨x, hp, rfl, started_reads_published (x := x) hp rfl⟩

end DetectionPlan
