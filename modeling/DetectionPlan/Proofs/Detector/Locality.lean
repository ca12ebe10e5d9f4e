/-
Detections of two tables. What a builtin detector says inside the window depends on nothing but the
samples there, so tables with the same rows inside it, in whatever order and beside whatever other
rows, have the same detection (`detection_local`).
-/
import DetectionPlan.Proofs.Detector.Windows

namespace DetectionPlan

open Outcome (bind_ok_iff pure_ok_iff)

/-! ## Rows inside a window -/

namespace DataTable

variable {a b : DataTable} {column : String} {columns : MetricColumns} {window : Interval}

/-- The rows whose instant is inside a window. -/
def rowsWithin (t : DataTable) (column : String) (window : Interval) : List Row :=
  t.rows.filter fun row => (t.timeOf column row).any window.contains

/-- The samples inside a window. -/
def samplesWithin (t : DataTable) (columns : MetricColumns) (window : Interval) : List (Int × Option Float) :=
  (t.samples columns).filter (window.contains ·.1)

theorem mem_samplesWithin_iff {r : Int × Option Float} : r ∈ a.samplesWithin columns window ↔
    ∃ row ∈ a.rowsWithin columns.timestamp window,
      a.timeOf columns.timestamp row = some r.1 ∧ a.valueOf columns.metric row = r.2 := by
  simp only [samplesWithin, samples, rowsWithin, List.mem_filter, List.mem_filterMap, Option.map_eq_some_iff]
  constructor
  · rintro ⟨⟨row, there, time, known, rfl⟩, inside⟩
    exact ⟨row, ⟨there, by simpa [known] using inside⟩, known, rfl⟩
  · rintro ⟨row, ⟨there, inside⟩, known, value⟩
    exact ⟨⟨row, there, r.1, known, Prod.ext rfl value⟩, by simpa [known] using inside⟩

/-- The instant and the value of a row depend on nothing but the names of the columns. -/
theorem timeOf_congr (header : a.columns = b.columns) : a.timeOf column = b.timeOf column := by
  unfold timeOf columnIndex
  rw [header]

theorem valueOf_congr (header : a.columns = b.columns) : a.valueOf column = b.valueOf column := by
  unfold valueOf columnIndex
  rw [header]

theorem nodup_times (distinct : (a.rows.map (a.timeOf columns.timestamp)).Nodup) :
    ((a.samples columns).map (·.1)).Nodup := by
  have times : (a.samples columns).map (·.1) =
      (a.rows.map (a.timeOf columns.timestamp)).filterMap id := by
    rw [samples, List.map_filterMap, List.filterMap_map]
    exact List.filterMap_congr fun row _ => by simp [Option.map_map, Function.comp_def]
  rw [times]
  exact distinct.filterMap fun x y n hx hy => (Option.mem_def.mp hx).trans (Option.mem_def.mp hy).symm

/-- The same rows inside a window make the same samples, if no two are of one instant. -/
theorem samplesWithin_perm (header : a.columns = b.columns)
    (distinctA : (a.rows.map (a.timeOf columns.timestamp)).Nodup)
    (distinctB : (b.rows.map (b.timeOf columns.timestamp)).Nodup)
    (same : ∀ row, row ∈ a.rowsWithin columns.timestamp window ↔ row ∈ b.rowsWithin columns.timestamp window) :
    (a.samplesWithin columns window).Perm (b.samplesWithin columns window) := by
  have nodupA : (a.samplesWithin columns window).Nodup := (nodup_times distinctA).of_map.filter _
  have nodupB : (b.samplesWithin columns window).Nodup := (nodup_times distinctB).of_map.filter _
  refine (List.perm_ext_iff_of_nodup nodupA nodupB).mpr fun r => ?_
  simp only [mem_samplesWithin_iff, same, timeOf_congr header, valueOf_congr header]

/-- A series of distinct instants rises. -/
theorem IsSeries.lt {points : List (Int × Option Float)} (series : a.IsSeries columns points)
    (distinct : (a.rows.map (a.timeOf columns.timestamp)).Nodup) :
    points.Pairwise fun r s => r.1 < s.1 := by
  have different : (points.map (·.1)).Nodup := (series.perm.map _).nodup_iff.mpr (nodup_times distinct)
  exact (series.rising.and (List.pairwise_map.mp different)).imp fun ⟨le, ne⟩ => lt_of_le_of_ne le ne

end DataTable

/-! ## Two tasks -/

/-- The task with another table at hand. -/
def Task.withCurrent (t : Task) (table : DataTable) : Task :=
  { t with inputs := t.inputs.insert "current" (.table table) }

variable {t : Task} {a b : DataTable} {columns : MetricColumns} {jobA jobB : Job}
  {outA outB : List (String × PlanResult)}

namespace Task

theorem table_withCurrent {current : DataTable} (h : (t.withCurrent a).table "current" = .ok current) :
    current = a := by
  have known : (t.withCurrent a).input "current" = .ok (.table a) := by
    simp [input, withCurrent, Keyed.get?_insert]
  obtain ⟨given, found, h⟩ := bind_ok_iff.mp h
  obtain rfl := Except.ok.inj (known.symm.trans found)
  obtain ⟨_, -, h⟩ := bind_ok_iff.mp h
  exact (pure_ok_iff.mp h).symm

/-- The other inputs are as they were. -/
theorem baseline_withCurrent : (if (t.withCurrent a).inputs.contains "baseline" then
      some <$> (t.withCurrent a).table "baseline" else pure none) =
    if t.inputs.contains "baseline" then some <$> t.table "baseline" else pure none := by
  have other : (t.withCurrent a).inputs.get? "baseline" = t.inputs.get? "baseline" := by
    simp [withCurrent, Keyed.get?_insert]
  simp only [Keyed.contains, table, input, other]
  rfl

end Task

namespace JudgesEach

variable {detector : Detector} {judge : Option DataTable → Int × Option Float → Verdict}
  {baseline : Option DataTable} {ofA ofB : List Verdict} {window : Interval}

/-- The verdicts inside a window come of the samples there. -/
theorem filter_eq (each : JudgesEach detector columns judge) (judgedA : detector a baseline = .ok ofA)
    (judgedB : detector b baseline = .ok ofB)
    (distinctA : (a.rows.map (a.timeOf columns.timestamp)).Nodup)
    (distinctB : (b.rows.map (b.timeOf columns.timestamp)).Nodup)
    (same : (a.samplesWithin columns window).Perm (b.samplesWithin columns window)) :
    ofA.filter (window.contains ·.time) = ofB.filter (window.contains ·.time) := by
  let within (r : Int × Option Float) : Bool := window.contains r.1
  have seriesA := each.isSeries judgedA
  have seriesB := each.isSeries judgedB
  have risingA := (seriesA.lt distinctA).filter within
  have risingB := (seriesB.lt distinctB).filter within
  have perm : ((ofA.map Verdict.sample).filter within).Perm ((ofB.map Verdict.sample).filter within) :=
    ((seriesA.perm.filter within).trans same).trans (seriesB.perm.filter within).symm
  have samples : (ofA.map Verdict.sample).filter within = (ofB.map Verdict.sample).filter within :=
    perm.eq_of_pairwise (fun r s _ _ rs sr => absurd rs (Int.not_lt.mpr (Int.le_of_lt sr))) risingA risingB
  -- a verdict is what the detector says of its sample
  have back {verdicts : List Verdict} {table : DataTable} (judged : detector table baseline = .ok verdicts) :
      ((verdicts.map Verdict.sample).filter within).map (judge baseline) =
        verdicts.filter (window.contains ·.time) := by
    rw [List.filter_map, List.map_map]
    refine (List.map_congr_left fun v member => ?_).trans (List.map_id _)
    exact each.judge_sample judged (List.mem_of_mem_filter member)
  rw [← back judgedA, samples, back judgedB]

end JudgesEach

namespace Judgement

variable (ofA : Judgement (t.withCurrent a)) (ofB : Judgement (t.withCurrent b))

theorem current_eq : ofA.current = a := Task.table_withCurrent ofA.given

theorem params_eq : ofA.params = ofB.params := Except.ok.inj (ofA.read.symm.trans ofB.read)

theorem detector_eq : ofA.detector = ofB.detector := by
  obtain ⟨makeA, knownA, madeA⟩ := ofA.made
  obtain ⟨makeB, knownB, madeB⟩ := ofB.made
  rw [params_eq ofA ofB] at knownA
  obtain rfl := Option.some.inj (knownA.symm.trans knownB)
  exact Except.ok.inj (madeA.symm.trans madeB)

theorem baseline_eq : ofA.baseline = ofB.baseline :=
  Except.ok.inj ((Task.baseline_withCurrent ▸ ofA.beside).symm.trans (Task.baseline_withCurrent ▸ ofB.beside))

theorem granularity_eq (properties : a.properties = b.properties) : ofA.granularity = ofB.granularity := by
  have lastingA := ofA.lasting
  have lastingB := ofB.lasting
  rw [current_eq, Operator.DetectParams.granularityFor] at lastingA lastingB
  rw [params_eq ofA ofB, properties] at lastingA
  exact Option.some.inj (lastingA.symm.trans lastingB)

/-- Equal verdicts inside the window amount to equal detections. -/
theorem detection_eq_of_inside (properties : a.properties = b.properties) (same : ofA.inside = ofB.inside) :
    ofA.detection = ofB.detection := by
  obtain ⟨foundA, seriesA⟩ := ofA.detection_eq
  obtain ⟨foundB, seriesB⟩ := ofB.detection_eq
  rw [params_eq ofA ofB, granularity_eq ofA ofB properties, same] at foundA
  rw [same] at seriesA
  have anomalies := Except.ok.inj (foundA.symm.trans foundB)
  have timeSeries := seriesA.trans seriesB.symm
  cases detectionA : ofA.detection
  cases detectionB : ofB.detection
  rw [detectionA, detectionB] at anomalies timeSeries
  exact congrArg₂ Detection.mk anomalies timeSeries

end Judgement

/-- **Detections are local.** For two tables of the same columns and properties that have the same
rows inside the window, and neither of which has two rows of one instant, an anomaly detector that
succeeds on both publishes the same detection. -/
theorem detection_local (builtin : t.scope.detectors = .builtin)
    (named : t.node.readParams MetricColumns.shape.decode = .ok columns)
    (header : a.columns = b.columns) (properties : a.properties = b.properties)
    (same : ∀ row, row ∈ a.rowsWithin columns.timestamp t.interval ↔
      row ∈ b.rowsWithin columns.timestamp t.interval)
    (distinctA : (a.rows.map (a.timeOf columns.timestamp)).Nodup)
    (distinctB : (b.rows.map (b.timeOf columns.timestamp)).Nodup)
    (preparedA : Operator.anomalyDetector.prepare (t.withCurrent a) = .ok jobA)
    (doneA : jobA.outcome = .ok outA)
    (preparedB : Operator.anomalyDetector.prepare (t.withCurrent b) = .ok jobB)
    (doneB : jobB.outcome = .ok outB) : outA = outB := by
  obtain ⟨ofA, rfl⟩ := exists_judgement preparedA doneA
  obtain ⟨ofB, rfl⟩ := exists_judgement preparedB doneB
  obtain ⟨columns', judge, named', each⟩ := ofA.exists_judgesEach builtin
  obtain rfl := Except.ok.inj (named.symm.trans named')
  have judgedA := ofA.judged
  have judgedB := ofB.judged
  rw [ofA.current_eq] at judgedA
  rw [ofB.current_eq, ← Judgement.detector_eq ofA ofB, ← Judgement.baseline_eq ofA ofB] at judgedB
  have inside : ofA.inside = ofB.inside := each.filter_eq judgedA judgedB distinctA distinctB
    (DataTable.samplesWithin_perm header distinctA distinctB same)
  rw [Judgement.detection_eq_of_inside ofA ofB properties inside]

/-- Views out of order, many of them once after the window. -/
def shuffledViews : List (Int × Bool) := [(2000, true), (9000, true), (0, true), (1000, false)]

/-- Views in order, the same within three seconds and others before and after them. -/
def surroundedViews : List (Int × Bool) := [(-5, true), (0, true), (1000, false), (2000, true), (7000, false)]

/-- Many views are found twice, each time for a second. -/
def twiceMany : Detection where
  anomalies := [{ start := 0, stop := 1000, current := some (views true) },
    { start := 2000, stop := 3000, current := some (views true) }]
  timeSeries := some {
    timestamps := [0, 1000, 2000]
    current := [true, false, true].map fun many => some (views many)
    baseline := List.replicate 3 none
    upperBound := some (List.replicate 3 (Float.ofBits 0x4024000000000000)) }

def shuffledJudgement : Judgement ((watchViews "PT1S" []).withCurrent (viewsAt shuffledViews)) :=
  viewsJudgement { seconds := 1 } [(0, true), (1000, false), (2000, true), (9000, true)] twiceMany
    rfl rfl ⟨by decide, by decide, by decide⟩ rfl

def surroundedJudgement : Judgement ((watchViews "PT1S" []).withCurrent (viewsAt surroundedViews)) :=
  viewsJudgement { seconds := 1 } surroundedViews twiceMany
    rfl rfl ⟨by decide, by decide, by decide⟩ rfl

/-- Which views a table has inside a window. -/
theorem rowsWithin_viewsAt (times : List (Int × Bool)) (window : Interval) :
    (viewsAt times).rowsWithin "timestamp" window = (times.filter (window.contains ·.1)).map viewsRow :=
  List.filter_map ..

theorem nodup_viewsAt {times : List (Int × Bool)} (distinct : (times.map (·.1)).Nodup) :
    ((viewsAt times).rows.map ((viewsAt times).timeOf "timestamp")).Nodup := by
  rw [viewsAt, List.map_map]
  have := distinct.map (Option.some_injective Int)
  rwa [List.map_map] at this

theorem detection_local_surrounded : ∃ jobA jobB outA outB,
    Operator.anomalyDetector.prepare ((watchViews "PT1S" []).withCurrent (viewsAt shuffledViews)) = .ok jobA ∧
    jobA.outcome = .ok outA ∧
    Operator.anomalyDetector.prepare ((watchViews "PT1S" []).withCurrent (viewsAt surroundedViews)) = .ok jobB ∧
    jobB.outcome = .ok outB ∧ outA = outB := by
  obtain ⟨jobA, preparedA, doneA⟩ := shuffledJudgement.exists_job
  obtain ⟨jobB, preparedB, doneB⟩ := surroundedJudgement.exists_job
  have named : (watchViews "PT1S" []).node.readParams MetricColumns.shape.decode = .ok {} := rfl
  have inside : (shuffledViews.filter (threeSeconds.contains ·.1)).Perm
      (surroundedViews.filter (threeSeconds.contains ·.1)) := by decide
  refine ⟨jobA, jobB, _, _, preparedA, doneA, preparedB, doneB, ?_⟩
  refine detection_local (a := viewsAt shuffledViews) (b := viewsAt surroundedViews) rfl named rfl rfl
    (fun row => ?_) (nodup_viewsAt (by decide)) (nodup_viewsAt (by decide)) preparedA doneA preparedB doneB
  rw [rowsWithin_viewsAt, rowsWithin_viewsAt]
  exact (inside.map _).mem_iff

end DetectionPlan
