/-
Tables that a run publishes. The builtin operators publish rectangular tables
when their inputs and what the data sources answer with are rectangular
(`KeepsTables`). So whatever a run of a plan of theirs has published at any point
is rectangular, and every table that is completed or joined in it has all cells
that are asked for by their place (`published_tables_validate`).
-/
import DetectionPlan.Proofs.Operator
import DetectionPlan.Proofs.Plan.Acceptance
import DetectionPlan.Proofs.Plan.Run
import DetectionPlan.Proofs.Table.Places
import DetectionPlan.TimeExpression.Ansi

namespace DetectionPlan

open Outcome (bind_ok_iff map_ok_iff mapM_ok_iff)

/-! ## Values that hold rectangular tables -/

/-- All tables among some named values are rectangular. -/
def TablesHold {κ : Type} (es : List (κ × PlanResult)) : Prop :=
  ∀ k t, (k, .table t) ∈ es → t.Rectangular

/-- All tables that a data source answers with are valid: those of a source in memory because
the tables it holds are, those of any other source by themselves. -/
inductive DataSource.Valid : DataSource → Prop where
  | inMemory {name : String} {dialect : Sql.DialectSettings} {expressions : TimeExpressions}
      {tables : Keyed String DataTable} {datasets : List Dataset} {placeholders : List Placeholder}
      (held : ∀ name t, tables.get? name = some t → t.validate = .ok ()) :
      Valid (.inMemory name dialect expressions tables datasets placeholders)
  | answering {s : DataSource} (answers : ∀ request t, s.fetch request = .ok t → t.validate = .ok ()) :
      Valid s

theorem DataSource.Valid.rectangular {s : DataSource} (h : s.Valid) {request : PreparedRequest}
    {t : DataTable} (fetched : s.fetch request = .ok t) : t.Rectangular := by
  cases h with
  | answering answers => exact DataTable.validate_eq_ok_iff.mp (answers request t fetched)
  | inMemory held =>
    simp only [DataSource.inMemory, fetchFrom] at fetched
    split at fetched
    · cases fetched
    split at fetched
    · cases fetched
    next table found =>
      have rect := DataTable.validate_eq_ok_iff.mp (held _ _ found)
      split at fetched
      · obtain rfl := Except.ok.inj fetched
        exact rect.within _
      · obtain rfl := Except.ok.inj fetched
        exact rect

/-! ## What operators publish -/

/-- The sources that a task can ask hold valid tables only. -/
def RunScope.Valid (scope : RunScope) : Prop := ∀ name s, scope.sources.get? name = some s → s.Valid

namespace Operator

/-- From rectangular tables an operator makes rectangular tables only. -/
def KeepsTables (o : Operator) : Prop :=
  ∀ (task : Task) (job : Job) (es : List (String × PlanResult)), task.scope.Valid →
    TablesHold task.inputs.entries → o.prepare task = .ok job → job.outcome = .ok es → TablesHold es

theorem echo_keepsTables : echo.KeepsTables := by
  intro task job es _ given prepared done
  obtain rfl := echo_ok prepared done
  split
  · intro k t member
    simp at member
  · exact given

theorem dataFetcher_keepsTables : dataFetcher.KeepsTables := by
  intro task job es valid _ prepared done
  obtain ⟨p, source, request, table, -, found, -, fetched, rfl⟩ := dataFetcher_ok prepared done
  obtain ⟨answer, answered, fetched⟩ := bind_ok_iff.mp fetched
  obtain rfl := Except.ok.inj fetched
  have rect := (valid _ _ found).rectangular answered
  intro k t member
  obtain ⟨-, h⟩ := Prod.mk.inj (List.mem_singleton.mp member)
  obtain rfl := PlanResult.table.inj h
  exact ⟨rect.types, rect.rows⟩

/-- Detections are no tables. -/
theorem tablesHold_detection (name : String) (d : Detection) : TablesHold [(name, .detection d)] := by
  intro k t member
  cases (Prod.mk.inj (List.mem_singleton.mp member)).2

theorem anomalyDetector_keepsTables : anomalyDetector.KeepsTables := by
  intro task job es _ _ prepared done
  obtain ⟨_, _, _, d, -, -, -, -, rfl⟩ := anomalyDetector_ok prepared done
  exact tablesHold_detection _ d

theorem combiner_keepsTables : combiner.KeepsTables := by
  intro task job es _ _ prepared done
  obtain ⟨_, -, rfl⟩ := combiner_ok prepared done
  exact tablesHold_detection _ _

theorem anomalyLabeler_keepsTables : anomalyLabeler.KeepsTables := by
  intro task job es _ _ prepared done
  obtain ⟨_, -, -, -, made⟩ := anomalyLabeler_ok prepared done
  intro k t member
  obtain ⟨_, _, -, same⟩ := made k _ member
  cases same

/-- An operator takes no table that is not rectangular. -/
theorem rectangular_of_table {task : Task} {property : String} {t : DataTable}
    (h : task.table property = .ok t) : t.Rectangular := by
  obtain ⟨r, -, h⟩ := bind_ok_iff.mp h
  split at h
  · obtain ⟨_, valid, h⟩ := bind_ok_iff.mp h
    obtain rfl := Except.ok.inj h
    exact DataTable.validate_eq_ok_iff.mp valid
  · cases h

theorem timeIndexFiller_keepsTables : timeIndexFiller.KeepsTables := by
  intro task job es _ _ prepared done
  obtain ⟨x, -, -, -, made⟩ := timeIndexFiller_ok prepared done
  intro k t member
  obtain ⟨_, table, _, filled, taken, -, completed, same⟩ := made k _ member
  obtain rfl := PlanResult.table.inj same
  exact TimeIndex.rectangular_fill (rectangular_of_table taken) completed

theorem join_keepsTables : join.KeepsTables := by
  intro task job es _ _ prepared done
  obtain ⟨p, left, right, joined, -, -, taken, -, worked, rfl⟩ := join_ok prepared done
  intro k t member
  obtain ⟨-, h⟩ := Prod.mk.inj (List.mem_singleton.mp member)
  obtain rfl := PlanResult.table.inj h
  exact DataTable.rectangular_innerJoin (rectangular_of_table taken) worked

/-- Every builtin operator does. -/
theorem builtin_keepsTables {type : String} {o : Operator}
    (h : OperatorRegistry.builtin.get? type = some o) : o.KeepsTables :=
  builtin_cases echo_keepsTables dataFetcher_keepsTables anomalyDetector_keepsTables
    timeIndexFiller_keepsTables combiner_keepsTables join_keepsTables anomalyLabeler_keepsTables h

end Operator

/-! ## Runs -/

section Run

variable {interval : Interval} {scope : RunScope}

/-- What a node is handed is among what has been published. -/
theorem CompiledNode.tablesHold_gather {n : CompiledNode} {seen : Results} {inputs : NamedResults}
    (held : TablesHold seen.entries) (h : n.gather seen = .ok inputs) :
    TablesHold inputs.entries := by
  obtain ⟨es, fetched, rfl⟩ := map_ok_iff.mp h
  intro k t member
  obtain ⟨b, -, found⟩ :=
    Outcome.exists_mem_of_forall₂ (mapM_ok_iff.mp fetched).flip (Keyed.mem_of_mem_ofList member)
  obtain ⟨v, there, same⟩ := CompiledNode.fetchInput_ok_iff.mp found
  obtain ⟨-, rfl⟩ := Prod.mk.inj same
  exact held _ t (Keyed.mem_of_get? there)

/-- One node: it publishes rectangular tables if it has seen only such. -/
theorem Start.tablesHold_published {s : Start} (valid : scope.Valid)
    (keeps : s.node.operator.KeepsTables) (held : TablesHold s.seen.entries) :
    TablesHold (s.attempt interval scope).published := by
  intro k t member
  obtain ⟨outputs, ok, -, member⟩ := (Start.mem_published interval scope).mp member
  obtain ⟨inputs, published, gathered, done, collected⟩ := CompiledNode.attempt_ok ok
  obtain ⟨-, -, handed⟩ := CompiledNode.collect_ok collected
  obtain ⟨job, prepared, done⟩ := bind_ok_iff.mp done
  obtain ⟨es, worked, done⟩ := bind_ok_iff.mp done
  obtain rfl := Except.ok.inj done
  have listed := Keyed.mem_of_mem_ofList (Keyed.mem_of_get? (handed _ member))
  exact keeps _ job es valid (CompiledNode.tablesHold_gather held gathered) prepared worked _ t listed

theorem Start.tablesHold_results {starts : List Start}
    (h : ∀ s ∈ starts, TablesHold (s.attempt interval scope).published) :
    TablesHold (Start.trace interval scope starts).results.entries := by
  intro k t member
  obtain ⟨a, ha, published⟩ := List.mem_flatMap.mp (Keyed.mem_of_mem_ofList member)
  obtain ⟨s, hs, rfl⟩ := List.mem_map.mp ha
  exact h s hs k t published

/-- The run: every start sees and publishes rectangular tables only. -/
theorem tablesHold_startsIn (valid : scope.Valid) (stages : List (List CompiledNode))
    (keeps : ∀ n ∈ stages.flatten, n.operator.KeepsTables) (past : List Start)
    (held : ∀ s ∈ past, TablesHold (s.attempt interval scope).published) :
    ∀ s ∈ startsIn interval scope stages past,
      TablesHold s.seen.entries ∧ TablesHold (s.attempt interval scope).published := by
  induction stages generalizing past with
  | nil => exact fun s hs => nomatch hs
  | cons stage rest ih =>
    rw [List.flatten_cons] at keeps
    have here : ∀ s ∈ stage.map fun n => (⟨n, (Start.trace interval scope past).results⟩ : Start),
        TablesHold s.seen.entries ∧ TablesHold (s.attempt interval scope).published := by
      intro s hs
      obtain ⟨n, hn, rfl⟩ := List.mem_map.mp hs
      have seen := Start.tablesHold_results held
      exact ⟨seen, Start.tablesHold_published valid (keeps n (List.mem_append_left _ hn)) seen⟩
    intro s hs
    rw [startsIn] at hs
    split at hs
    · exact here s hs
    · rcases List.mem_append.mp hs with hs | hs
      · exact here s hs
      · refine ih (fun n hn => keeps n (List.mem_append_right _ hn)) _ (fun s hs => ?_) s hs
        rcases List.mem_append.mp hs with hs | hs
        · exact held s hs
        · exact (here s hs).2

end Run

/-- The nodes of a plan of builtin operators keep tables rectangular. -/
theorem Plan.keepsTables_of_compile {specs : List NodeSpec} {p : CompiledPlan}
    (compiled : Plan.compile .builtin specs = .ok p) : ∀ n ∈ p.nodes, n.operator.KeepsTables := by
  obtain ⟨-, nodes, deps, order, resolved, -, -, rfl⟩ := Plan.compile_ok_iff.mp compiled
  intro n hn
  obtain ⟨spec, -, made⟩ := Outcome.exists_mem_of_forall₂ resolved.flip hn
  obtain ⟨operator, known, rfl⟩ := Plan.resolve_ok_iff.mp made
  exact Operator.builtin_keepsTables known

/-- **The tables of a run.** However a run of builtin operators goes on data sources whose tables
are valid, at each point all tables published so far are valid. So are those that a node is
handed; completing one of them finds every cell and type that is asked for by place, and so
does joining two of them, which fails for want of the key column only: no row is refused. -/
theorem published_tables_validate {specs : List NodeSpec} {x : Execution}
    (compiled : Plan.compile .builtin specs = .ok x.plan) (fresh : x.trace = none)
    (valid : x.scope.Valid) :
    ∃ attempts, x.execute.2.trace = some ⟨attempts⟩ ∧
      (∀ done, done <+: attempts → ∀ k t,
        (⟨done⟩ : Trace).results.get? k = some (.table t) → t.validate = .ok ()) ∧
      ∀ s ∈ x.starts, ∀ inputs, s.node.gather s.seen = .ok inputs →
        ∀ property t, inputs.get? property = some (.table t) →
          t.validate = .ok () ∧
          (∀ (index : TimeIndex) granularity, index.fillByPlace granularity x.interval t =
            (index.fill granularity x.interval t).map some) ∧
          ∀ other u, inputs.get? other = some (.table u) → ∀ key,
            t.joinByPlace u key = (t.innerJoin u key).map some ∧
            ∀ e, t.innerJoin u key = .error e →
              t.columnIndex key = .error e ∨ u.columnIndex key = .error e := by
  have staged := (Plan.compile_wellWired compiled).staged x.settings
  have keeps : ∀ n ∈ (x.plan.stages x.settings).flatten, n.operator.KeepsTables := fun n hn =>
    Plan.keepsTables_of_compile compiled n (staged.perm.mem_iff.mp hn)
  have run : ∀ s ∈ x.starts, TablesHold s.seen.entries ∧
      TablesHold (s.attempt x.interval x.scope).published :=
    tablesHold_startsIn valid _ keeps [] fun s hs => nomatch hs
  refine ⟨x.starts.map (·.attempt x.interval x.scope), by rw [execute_eq fresh]; rfl, ?_, ?_⟩
  · intro done sub k t found
    have cut : done = (x.starts.take done.length).map (·.attempt x.interval x.scope) := by
      rw [List.map_take]
      exact List.prefix_iff_eq_take.mp sub
    have held : TablesHold (Start.trace x.interval x.scope (x.starts.take done.length)).results.entries :=
      Start.tablesHold_results fun s hs => (run s (List.mem_of_mem_take hs)).2
    rw [Start.trace, ← cut] at held
    exact DataTable.validate_eq_ok_iff.mpr (held k t (Keyed.mem_of_get? found))
  · intro s hs inputs gathered property t handed
    have held := CompiledNode.tablesHold_gather (run s hs).1 gathered
    have rect := held _ t (Keyed.mem_of_get? handed)
    refine ⟨DataTable.validate_eq_ok_iff.mpr rect,
      fun index granularity => TimeIndex.fillByPlace_eq rect index granularity x.interval, ?_⟩
    intro other u handed' key
    have rect' := held _ u (Keyed.mem_of_get? handed')
    exact ⟨DataTable.joinByPlace_eq rect' t key, fun e => DataTable.innerJoin_error rect⟩

/-- A plan that fetches a table, completes it and joins the two. -/
def completeAndJoin : List NodeSpec := [
  { name := "fetch", type := "DataFetcher"
    params := [("dataSource", .string "db"), ("query", .string "SELECT * FROM t")] },
  { name := "fill", type := "TimeIndexFiller"
    params := [("timestamp", .string "ts"), ("monitoringGranularity", .string "PT1S")]
    inputs := [⟨"table", ⟨"fetch", "currentData"⟩⟩] },
  { name := "join", type := "Join", params := [("key", .string "ts")]
    inputs := [⟨"left", ⟨"fill", "table"⟩⟩, ⟨"right", ⟨"fetch", "currentData"⟩⟩] }]

/-- A source with one table. -/
def countsSource : DataSource :=
  .inMemory "db" {} (.ansi (.epoch .milliseconds)) (.ofList [("t",
    { columns := ["ts", "count"], types := [.long, .long], rows := [[.long 1000, .long 7]] })])

theorem published_tables_validate_completeAndJoin : ∃ x : Execution,
    Plan.compile .builtin completeAndJoin = .ok x.plan ∧ x.trace = none ∧ x.scope.Valid ∧
      ∀ k t, x.execute.2.results.get? k = some (.table t) → t.validate = .ok () := by
  have compiles : (Plan.compile .builtin completeAndJoin).isOk = true := by decide +kernel
  cases compiled : Plan.compile .builtin completeAndJoin with
  | error e => rw [compiled] at compiles; cases compiles
  | ok p =>
    let scope : RunScope := { sources := .ofSources [countsSource] }
    have valid : scope.Valid := by
      intro name s found
      have listed : (name, s) ∈ [("db", countsSource)] :=
        Keyed.mem_of_mem_ofList (Keyed.mem_of_get? found)
      obtain ⟨-, rfl⟩ := Prod.mk.inj (List.mem_singleton.mp listed)
      refine .inMemory fun name t held => ?_
      have listed := Keyed.mem_of_mem_ofList (Keyed.mem_of_get? held)
      obtain ⟨-, rfl⟩ := Prod.mk.inj (List.mem_singleton.mp listed)
      rfl
    let x : Execution := { plan := p, interval := ⟨0, 3000, by decide⟩, scope }
    obtain ⟨attempts, trace, published, -⟩ := published_tables_validate (x := x) compiled rfl valid
    refine ⟨x, rfl, rfl, valid, fun k t found => published attempts List.prefix_rfl k t ?_⟩
    rw [Execution.results, trace] at found
    exact found

end DetectionPlan
