/-
What the work of an anomaly detector is made of: a `Judgement` of the table at hand. The builtin
detectors judge each sample of the table by itself (`DetectorRegistry.exists_judgesEach`), so the
verdicts are one for each row in the order of time (`Judgement.exists_isSeries`).
-/
import DetectionPlan.Operator.Builtin
import DetectionPlan.Proofs.Detector.Samples
import DetectionPlan.Proofs.Operator

namespace DetectionPlan

open Outcome (bind_ok_iff map_ok_iff pure_ok_iff)

/-- What a verdict is about: an instant and the value there. -/
def Verdict.sample (v : Verdict) : Int × Option Float := (v.time, v.current)

/-! ## Detectors -/

/-- A detector judges each sample of some columns by itself, whatever else is in the table. What it
says of a sample may depend on the baseline. -/
structure JudgesEach (detector : Detector) (columns : MetricColumns)
    (judge : Option DataTable → Int × Option Float → Verdict) : Prop where
  verdicts : ∀ {current baseline found}, detector current baseline = .ok found →
    ∃ points, current.series columns = .ok points ∧ found = points.map (judge baseline)
  sample : ∀ baseline r, (judge baseline r).sample = r

namespace JudgesEach

variable {detector : Detector} {columns : MetricColumns}
  {judge : Option DataTable → Int × Option Float → Verdict}
  {current : DataTable} {baseline : Option DataTable} {found : List Verdict}

/-- There is one verdict for each row, in the order of time. -/
theorem isSeries (each : JudgesEach detector columns judge) (h : detector current baseline = .ok found) :
    current.IsSeries columns (found.map Verdict.sample) := by
  obtain ⟨points, read, rfl⟩ := each.verdicts h
  have same : (points.map (judge baseline)).map Verdict.sample = points := by
    rw [List.map_map]
    exact (List.map_congr_left fun r _ => each.sample baseline r).trans (List.map_id _)
  rw [same]
  exact DataTable.series_ok read

/-- A verdict is known by what it is about. -/
theorem judge_sample (each : JudgesEach detector columns judge) (h : detector current baseline = .ok found)
    {v : Verdict} (member : v ∈ found) : judge baseline v.sample = v := by
  obtain ⟨points, -, rfl⟩ := each.verdicts h
  obtain ⟨r, -, rfl⟩ := List.mem_map.mp member
  rw [each.sample]

end JudgesEach

theorem Threshold.judgesEach (x : Threshold) : JudgesEach x.detector x.columns fun _ r =>
    { time := r.1, current := r.2, upper := x.max, lower := x.min, isAnomaly := r.2.any x.isCrossed } where
  verdicts h := by
    obtain ⟨points, read, h⟩ := bind_ok_iff.mp h
    exact ⟨points, read, (pure_ok_iff.mp h).symm⟩
  sample _ _ := rfl

/-- The values of a baseline, as far as they can be read. -/
def PercentageChange.baselineSeries (x : PercentageChange) (baseline : Option DataTable) :
    List (Int × Option Float) :=
  (baseline.bind fun table => (table.series x.columns).toOption).getD []

theorem PercentageChange.judgesEach (x : PercentageChange) : JudgesEach x.detector x.columns fun baseline r =>
    x.verdict r.1 r.2 (baselineAt (x.baselineSeries baseline) r.1) where
  verdicts {current baseline found} h := by
    cases baseline with
    | none => cases h
    | some table =>
      obtain ⟨base, baseRead, h⟩ := bind_ok_iff.mp h
      obtain ⟨points, read, h⟩ := bind_ok_iff.mp h
      have known : x.baselineSeries (some table) = base := by simp [baselineSeries, baseRead, Except.toOption]
      rw [known]
      exact ⟨points, read, (pure_ok_iff.mp h).symm⟩
  sample baseline r := by
    unfold PercentageChange.verdict
    split <;> rfl

/-! ## The makers -/

theorem readParams_ok_iff {α : Type} {n : NodeSpec} {decode : Json → Decoded α} {a : α} :
    n.readParams decode = .ok a ↔ decode (.object n.params) = .ok a := by
  unfold NodeSpec.readParams
  cases decode (.object n.params) <;> simp [Except.mapError]

/-- The columns of a detector are read by themselves, whatever other parameters it has. -/
theorem columns_of_decode {α : Type} (columns : α → MetricColumns) {others : Decoded α}
    {f : α → MetricColumns → α} {j : Json} {a : α} (kept : ∀ a c, columns (f a c) = c)
    (h : (do let a ← others; return f a (← MetricColumns.shape.decode j) : Decoded α) = .ok a) :
    MetricColumns.shape.decode j = .ok (columns a) := by
  obtain ⟨a, -, h⟩ := bind_ok_iff.mp h
  obtain ⟨c, named, h⟩ := bind_ok_iff.mp h
  obtain rfl := pure_ok_iff.mp h
  rw [named, kept]

theorem Threshold.make_ok {n : NodeSpec} {detector : Detector} (h : Threshold.make n = .ok detector) :
    ∃ x : Threshold, n.readParams MetricColumns.shape.decode = .ok x.columns ∧ detector = x.detector := by
  obtain ⟨x, read, h⟩ := bind_ok_iff.mp h
  have named := columns_of_decode columns (f := fun x c => { x with columns := c }) (fun _ _ => rfl)
    (readParams_ok_iff.mp read)
  refine ⟨x, readParams_ok_iff.mpr named, ?_⟩
  split at h
  · split at h
    · cases h
    · exact (Except.ok.inj h).symm
  · exact (Except.ok.inj h).symm

theorem PercentageChange.make_ok {n : NodeSpec} {detector : Detector}
    (h : PercentageChange.make n = .ok detector) :
    ∃ x : PercentageChange, n.readParams MetricColumns.shape.decode = .ok x.columns ∧ detector = x.detector := by
  obtain ⟨x, read, h⟩ := bind_ok_iff.mp h
  have named := columns_of_decode columns (f := fun x c => { x with columns := c }) (fun _ _ => rfl)
    (readParams_ok_iff.mp read)
  refine ⟨x, readParams_ok_iff.mpr named, ?_⟩
  split at h
  · cases h
  · exact (Except.ok.inj h).symm

theorem DetectorRegistry.find?_builtin {name : String} {make : DetectorMaker}
    (h : DetectorRegistry.builtin.find? name = some make) :
    make = Threshold.make ∨ make = PercentageChange.make := by
  simp only [builtin, find?, register, Keyed.get?_insert] at h
  split at h
  · exact .inr (Option.some.inj h).symm
  · split at h
    · exact .inl (Option.some.inj h).symm
    · cases h

/-- The builtin detectors judge each sample of the columns that the parameters of a node name. -/
theorem DetectorRegistry.exists_judgesEach {n : NodeSpec} {name : String} {make : DetectorMaker}
    {detector : Detector} (known : DetectorRegistry.builtin.find? name = some make) (made : make n = .ok detector) :
    ∃ columns judge, n.readParams MetricColumns.shape.decode = .ok columns ∧
      JudgesEach detector columns judge := by
  rcases DetectorRegistry.find?_builtin known with rfl | rfl
  · obtain ⟨x, named, rfl⟩ := Threshold.make_ok made
    exact ⟨_, _, named, x.judgesEach⟩
  · obtain ⟨x, named, rfl⟩ := PercentageChange.make_ok made
    exact ⟨_, _, named, x.judgesEach⟩

/-! ## The operator -/

/-- How a detector comes to its detection: the parameters and the tables it is given, the verdicts on
the rows of the current one, and what they amount to. -/
structure Judgement (t : Task) where
  params : Operator.DetectParams
  detector : Detector
  current : DataTable
  baseline : Option DataTable
  granularity : Period
  verdicts : List Verdict
  detection : Detection
  read : t.node.readParams Operator.DetectParams.shape.decode = .ok params
  made : ∃ make, t.scope.detectors.find? params.detector = some make ∧ make t.node = .ok detector
  given : t.table "current" = .ok current
  beside : (if t.inputs.contains "baseline" then some <$> t.table "baseline" else pure none) = .ok baseline
  lasting : params.granularityFor current = some granularity
  judged : detector current baseline = .ok verdicts
  amounts : Verdict.detection params.subject granularity t.interval verdicts = .ok detection

/-- Two ways to come by a value that go on alike. -/
theorem Outcome.ite_bind_ok_iff {ε α β : Type} {c : Prop} [Decidable c] {x y : Except ε α}
    {f : α → Except ε β} {b : β} :
    (if c then x >>= f else y >>= f) = .ok b ↔ ∃ a, (if c then x else y) = .ok a ∧ f a = .ok b := by
  split <;> exact bind_ok_iff

variable {t : Task} {job : Job} {published : List (String × PlanResult)}

theorem exists_judgement (prepared : Operator.anomalyDetector.prepare t = .ok job)
    (done : job.outcome = .ok published) :
    ∃ j : Judgement t, published = [("output_AnomalyDetectorResult", .detection j.detection)] := by
  obtain ⟨params, make, detector, detection, read, known, made, detected, rfl⟩ :=
    Operator.anomalyDetector_ok prepared done
  obtain ⟨current, given, detected⟩ := bind_ok_iff.mp detected
  obtain ⟨baseline, beside, detected⟩ := Outcome.ite_bind_ok_iff.mp detected
  split at detected
  next => cases detected
  next granularity lasting =>
    obtain ⟨verdicts, judged, amounts⟩ := bind_ok_iff.mp detected
    exact ⟨⟨params, detector, current, baseline, granularity, verdicts, detection, read,
      ⟨make, known, made⟩, given, beside, lasting, judged, amounts⟩, rfl⟩

namespace Judgement

/-- A task leaves a detector no choice. -/
theorem eq (i j : Judgement t) : i = j := by
  obtain ⟨params, detector, current, baseline, granularity, verdicts, detection, read, ⟨make, known, made⟩,
    given, beside, lasting, judged, amounts⟩ := i
  obtain ⟨_, _, _, _, _, _, _, read', ⟨make', known', made'⟩, given', beside', lasting', judged', amounts'⟩ := j
  obtain rfl := Except.ok.inj (read.symm.trans read')
  obtain rfl := Option.some.inj (known.symm.trans known')
  obtain rfl := Except.ok.inj (made.symm.trans made')
  obtain rfl := Except.ok.inj (given.symm.trans given')
  obtain rfl := Except.ok.inj (beside.symm.trans beside')
  obtain rfl := Option.some.inj (lasting.symm.trans lasting')
  obtain rfl := Except.ok.inj (judged.symm.trans judged')
  obtain rfl := Except.ok.inj (amounts.symm.trans amounts')
  rfl

variable (j : Judgement t)

/-- The verdicts inside the window. -/
def inside : List Verdict := j.verdicts.filter fun v => t.interval.contains v.time

theorem exists_judgesEach (builtin : t.scope.detectors = .builtin) :
    ∃ columns judge, t.node.readParams MetricColumns.shape.decode = .ok columns ∧
      JudgesEach j.detector columns judge := by
  obtain ⟨make, known, made⟩ := j.made
  exact DetectorRegistry.exists_judgesEach (builtin ▸ known) made

/-- The verdicts of a builtin detector are one for each row in the order of time. -/
theorem exists_isSeries (builtin : t.scope.detectors = .builtin) :
    ∃ columns, t.node.readParams MetricColumns.shape.decode = .ok columns ∧
      j.current.IsSeries columns (j.verdicts.map Verdict.sample) := by
  obtain ⟨columns, judge, named, each⟩ := j.exists_judgesEach builtin
  exact ⟨columns, named, each.isSeries j.judged⟩

/-- What is judged is published. -/
theorem exists_job : ∃ job, Operator.anomalyDetector.prepare t = .ok job ∧
    job.outcome = .ok [("output_AnomalyDetectorResult", .detection j.detection)] := by
  obtain ⟨make, known, made⟩ := j.made
  have detected : j.params.detect j.detector t = .ok j.detection := by
    refine bind_ok_iff.mpr ⟨j.current, j.given, ?_⟩
    refine Outcome.ite_bind_ok_iff.mpr ⟨j.baseline, j.beside, ?_⟩
    rw [j.lasting]
    exact bind_ok_iff.mpr ⟨j.verdicts, j.judged, j.amounts⟩
  refine ⟨{ outcome := (j.params.detect j.detector t).map fun d =>
    [("output_AnomalyDetectorResult", .detection d)] }, ?_, ?_⟩
  · simp only [Operator.anomalyDetector, j.read, known, made, bind, Except.bind, pure, Except.pure]
  · exact map_ok_iff.mpr ⟨j.detection, detected, rfl⟩

end Judgement

end DetectionPlan
