/-
Operators: the builtin ones case by case (`builtin_cases`), and what comes of working on each
input of a task. For each builtin operator one lemma says what has been read and checked by the
time a task of it ends well, and what is published then (`echo_ok` and so on).
-/
import DetectionPlan.Operator.Builtin
import DetectionPlan.Proofs.Keyed
import DetectionPlan.Proofs.Outcome

namespace DetectionPlan.Operator

open Outcome (bind_ok_iff map_ok_iff mapM_ok_iff)

/-- What holds of the seven builtin operators holds of all that the registry knows. -/
theorem builtin_cases {P : Operator → Prop} (echo : P echo) (dataFetcher : P dataFetcher)
    (anomalyDetector : P anomalyDetector) (timeIndexFiller : P timeIndexFiller)
    (combiner : P combiner) (join : P join) (anomalyLabeler : P anomalyLabeler) {type : String}
    {o : Operator} (h : OperatorRegistry.builtin.get? type = some o) : P o := by
  have listed := Keyed.mem_of_mem_ofList (Keyed.mem_of_get? h)
  simp only [List.mem_cons, List.not_mem_nil, or_false, Prod.mk.injEq] at listed
  obtain ⟨-, rfl⟩ | ⟨-, rfl⟩ | ⟨-, rfl⟩ | ⟨-, rfl⟩ | ⟨-, rfl⟩ | ⟨-, rfl⟩ | ⟨-, rfl⟩ := listed
  all_goals assumption

variable {task : Task} {job : Job} {es : List (String × PlanResult)}

/-! ## Work on each input -/

/-- What is published for each input comes of the work on one. -/
theorem mem_of_forEachInput {work : String → Outcome PlanResult} (h : task.forEachInput work = .ok es)
    {k : String} {r : PlanResult} (member : (k, r) ∈ es) : ∃ property, work property = .ok r := by
  obtain ⟨property, -, made⟩ := Outcome.exists_mem_of_forall₂ (mapM_ok_iff.mp h).flip member
  obtain ⟨r', worked, same⟩ := bind_ok_iff.mp made
  obtain ⟨-, rfl⟩ := Prod.mk.inj (Except.ok.inj same)
  exact ⟨property, worked⟩

/-- What is published for each input is published under the names of the inputs. -/
theorem map_fst_of_forEachInput {work : String → Outcome PlanResult} (h : task.forEachInput work = .ok es) :
    es.map (·.1) = task.inputs.keys := by
  have kept : es.map (·.1) = task.inputs.keys.map id :=
    Outcome.map_eq_of_forall₂ (mapM_ok_iff.mp h) fun property e made => by
      obtain ⟨r, -, same⟩ := bind_ok_iff.mp made
      obtain rfl := Except.ok.inj same
      rfl
  rw [kept, List.map_id]

/-! ## The builtin operators -/

theorem echo_ok (prepared : echo.prepare task = .ok job) (done : job.outcome = .ok es) :
    es = if task.inputs.isEmpty then [("output", .echo ((task.node.params.lookup "echo").getD .null))]
      else task.inputs.entries := by
  obtain rfl := Except.ok.inj prepared
  exact (Except.ok.inj done).symm

theorem dataFetcher_ok (prepared : dataFetcher.prepare task = .ok job) (done : job.outcome = .ok es) :
    ∃ (p : FetchParams) (source : DataSource) (request : PreparedRequest) (table : DataTable),
      task.node.readParams FetchParams.shape.decode = .ok p ∧ task.scope.sources.get? p.source = some source ∧
      source.prepare task.interval (p.dataset.map fun name => (source.dataset? name).getD { name })
        task.scope.strict p.query p.predicates = .ok request ∧
      fetchTable source request = .ok table ∧ es = [("currentData", .table table)] := by
  obtain ⟨p, read, prepared⟩ := bind_ok_iff.mp prepared
  split at prepared
  next source found =>
    obtain rfl := Except.ok.inj prepared
    simp only [FetchParams.job] at done
    split at done
    · cases done
    next request ready =>
      obtain ⟨table, fetched, rfl⟩ := map_ok_iff.mp done
      exact ⟨p, source, request, table, read, found, ready, fetched, rfl⟩
  next => cases prepared

theorem anomalyDetector_ok (prepared : anomalyDetector.prepare task = .ok job) (done : job.outcome = .ok es) :
    ∃ p make detector d, task.node.readParams DetectParams.shape.decode = .ok p ∧
      task.scope.detectors.find? p.detector = some make ∧ make task.node = .ok detector ∧
      p.detect detector task = .ok d ∧ es = [("output_AnomalyDetectorResult", .detection d)] := by
  obtain ⟨p, read, prepared⟩ := bind_ok_iff.mp prepared
  split at prepared
  · cases prepared
  next make known =>
    obtain ⟨detector, made, prepared⟩ := bind_ok_iff.mp prepared
    obtain rfl := Except.ok.inj prepared
    obtain ⟨d, detected, rfl⟩ := map_ok_iff.mp done
    exact ⟨p, make, detector, d, read, known, made, detected, rfl⟩

theorem timeIndexFiller_ok (prepared : timeIndexFiller.prepare task = .ok job) (done : job.outcome = .ok es) :
    ∃ x, task.node.readParams TimeIndex.shape.decode = .ok x ∧ x.defect? = none ∧
      es.map (·.1) = task.inputs.keys ∧ ∀ k r, (k, r) ∈ es → ∃ property table granularity filled,
        task.table property = .ok table ∧ x.granularityFor table = some granularity ∧
        x.fill granularity task.interval table = .ok filled ∧ r = .table filled := by
  obtain ⟨x, read, prepared⟩ := bind_ok_iff.mp prepared
  split at prepared
  · cases prepared
  next fine =>
    obtain rfl := Except.ok.inj prepared
    refine ⟨x, read, fine, map_fst_of_forEachInput done, fun k r member => ?_⟩
    obtain ⟨property, worked⟩ := mem_of_forEachInput done member
    obtain ⟨table, taken, worked⟩ := bind_ok_iff.mp worked
    split at worked
    · cases worked
    next granularity asked =>
      obtain ⟨filled, completed, same⟩ := bind_ok_iff.mp worked
      exact ⟨property, table, granularity, filled, taken, asked, completed, (Except.ok.inj same).symm⟩

theorem combiner_ok (prepared : combiner.prepare task = .ok job) (done : job.outcome = .ok es) :
    ∃ ds, task.inputs.keys.mapM task.detection = .ok ds ∧
      es = [("output_CombinerResult", .detection (Detection.combine ds))] := by
  obtain rfl := Except.ok.inj prepared
  obtain ⟨ds, taken, done⟩ := bind_ok_iff.mp done
  exact ⟨ds, taken, (Except.ok.inj done).symm⟩

theorem join_ok (prepared : join.prepare task = .ok job) (done : job.outcome = .ok es) :
    ∃ p left right joined, task.node.readParams JoinParams.shape.decode = .ok p ∧ p.left ≠ p.right ∧
      task.table p.left = .ok left ∧ task.table p.right = .ok right ∧
      left.innerJoin right p.key = .ok joined ∧ es = [("output_JoinResult", .table joined)] := by
  obtain ⟨p, read, prepared⟩ := bind_ok_iff.mp prepared
  split at prepared
  · cases prepared
  next differ =>
    obtain rfl := Except.ok.inj prepared
    obtain ⟨left, takenLeft, done⟩ := bind_ok_iff.mp done
    obtain ⟨right, takenRight, done⟩ := bind_ok_iff.mp done
    obtain ⟨joined, worked, done⟩ := bind_ok_iff.mp done
    exact ⟨p, left, right, joined, read, by simpa using differ, takenLeft, takenRight, worked,
      (Except.ok.inj done).symm⟩

theorem anomalyLabeler_ok (prepared : anomalyLabeler.prepare task = .ok job) (done : job.outcome = .ok es) :
    ∃ f, task.node.readParams ChangeFloor.shape.decode = .ok f ∧ (f.absolute.isNone && f.relative.isNone) = false ∧
      es.map (·.1) = task.inputs.keys ∧ ∀ k r, (k, r) ∈ es → ∃ property d,
        task.detection property = .ok d ∧ r = .detection (f.labelAll d) := by
  obtain ⟨f, read, prepared⟩ := bind_ok_iff.mp prepared
  split at prepared
  · cases prepared
  next given =>
    obtain rfl := Except.ok.inj prepared
    refine ⟨f, read, Bool.eq_false_iff.mpr given, map_fst_of_forEachInput done, fun k r member => ?_⟩
    obtain ⟨property, worked⟩ := mem_of_forEachInput done member
    obtain ⟨d, taken, same⟩ := bind_ok_iff.mp worked
    exact ⟨property, d, taken, (Except.ok.inj same).symm⟩

end DetectionPlan.Operator
