/-
The windows of anomalies. Flagged verdicts become anomalies that last until the next verdict
(`Windows`), so in the order of time no two overlap (`detection_windows`). A window is empty if the
next verdict is of the same instant, or if there is none and the granularity has no length
(`windows_nonempty_iff`).
-/
import DetectionPlan.Proofs.Detector.Judgement
import DetectionPlan.Proofs.Period.Progress

namespace DetectionPlan

open Outcome (bind_ok_iff pure_ok_iff)

namespace Verdict

variable {subject : Subject} {granularity : Period} {verdicts : List Verdict} {found : List Anomaly}

/-- Where the anomaly of a verdict stops: at the verdict after it, and after the last one when a
period is over. -/
inductive Until (granularity : Period) (v : Verdict) : List Verdict → Int → Prop
  | next (w : Verdict) (rest : List Verdict) : Until granularity v (w :: rest) w.time
  | ended {stop : Int} (step : granularity.addTo v.time = .ok stop) : Until granularity v [] stop

/-- The anomalies of verdicts: one for each that is flagged, from its instant until it stops. -/
inductive Windows (subject : Subject) (granularity : Period) : List Verdict → List Anomaly → Prop
  | nil : Windows subject granularity [] []
  | spared {v : Verdict} {rest : List Verdict} {more : List Anomaly} (fine : v.isAnomaly = false)
      (later : Windows subject granularity rest more) : Windows subject granularity (v :: rest) more
  | flagged {v : Verdict} {rest : List Verdict} {more : List Anomaly} {stop : Int} (flag : v.isAnomaly = true)
      (upTo : Until granularity v rest stop) (later : Windows subject granularity rest more) :
      Windows subject granularity (v :: rest) (v.anomalyUntil subject stop :: more)

theorem windows_of_anomalies (h : anomalies subject granularity verdicts = .ok found) :
    Windows subject granularity verdicts found := by
  induction verdicts generalizing found with
  | nil =>
    obtain rfl := Except.ok.inj h
    exact .nil
  | cons v rest ih =>
    cases flag : v.isAnomaly with
    | false => exact .spared flag (ih (by simpa [anomalies, flag] using h))
    | true =>
      rw [anomalies, if_pos flag] at h
      cases rest with
      | nil =>
        obtain ⟨stop, step, h⟩ := bind_ok_iff.mp h
        obtain rfl := pure_ok_iff.mp h
        exact .flagged flag (.ended step) .nil
      | cons w rest =>
        obtain ⟨stop, next, h⟩ := bind_ok_iff.mp h
        obtain rfl := Except.ok.inj next
        obtain ⟨more, later, h⟩ := bind_ok_iff.mp h
        obtain rfl := pure_ok_iff.mp h
        exact .flagged flag (.next w rest) (ih later)

namespace Windows

variable (w : Windows subject granularity verdicts found)

include w

/-- The anomalies are those of the flagged verdicts, one for each. -/
theorem forall₂_flagged : List.Forall₂ (fun v a => a = v.anomalyUntil subject a.stop)
    (verdicts.filter (·.isAnomaly)) found := by
  induction w with
  | nil => exact .nil
  | spared fine _ ih => rwa [List.filter_cons_of_neg (by simp [fine])]
  | flagged flag _ _ ih =>
    rw [List.filter_cons_of_pos flag]
    exact .cons rfl ih

theorem exists_start {a : Anomaly} (member : a ∈ found) : ∃ v ∈ verdicts, v.time = a.start := by
  obtain ⟨v, there, made⟩ := Outcome.exists_mem_of_forall₂ w.forall₂_flagged.flip member
  exact ⟨v, List.mem_of_mem_filter there, by rw [made]; rfl⟩

/-- In the order of time an anomaly stops before the next one starts. -/
theorem apart (rising : verdicts.Pairwise fun v w => v.time ≤ w.time) :
    found.Pairwise fun a b => a.start ≤ b.start ∧ a.stop ≤ b.start := by
  induction w with
  | nil => exact .nil
  | spared _ _ ih => exact ih rising.tail
  | @flagged v rest more stop flag upTo later ih =>
    obtain ⟨after, rising⟩ := List.pairwise_cons.mp rising
    refine List.pairwise_cons.mpr ⟨fun b there => ?_, ih rising⟩
    obtain ⟨u, among, start⟩ := later.exists_start there
    rw [← start]
    refine ⟨after u among, ?_⟩
    cases upTo with
    | ended => cases among
    | next next rest =>
      rcases List.mem_cons.mp among with rfl | among
      · exact le_rfl
      · exact (List.pairwise_cons.mp rising).1 u among

/-- No anomaly stops before it starts. One covers no instant if the next verdict is of the same
instant, or if it is the last and the period has no length. -/
theorem nonempty_iff (rising : verdicts.Pairwise fun v w => v.time ≤ w.time) :
    (∀ a ∈ found, a.start ≤ a.stop) ∧
    ((∀ a ∈ found, a.start < a.stop) ↔
      verdicts.IsChain (fun v w => v.isAnomaly → v.time ≠ w.time) ∧
        ∀ v, verdicts.getLast? = some v → v.isAnomaly → granularity.isZero = false) := by
  induction w with
  | nil => simp
  | @spared v rest more fine later ih =>
    refine ⟨(ih rising.tail).1, (ih rising.tail).2.trans ?_⟩
    cases later with
    | nil => simp [fine]
    | spared | flagged => simp [fine]
  | @flagged v rest more stop flag upTo later ih =>
    obtain ⟨kept, lasting⟩ := ih rising.tail
    simp only [List.forall_mem_cons, lasting]
    cases upTo with
    | ended step =>
      obtain ⟨progress, le⟩ := Period.lt_addTo_iff step
      refine ⟨⟨le, kept⟩, ?_⟩
      simp [flag, anomalyUntil, progress]
    | next next rest =>
      have le := (List.pairwise_cons.mp rising).1 next List.mem_cons_self
      refine ⟨⟨le, kept⟩, ?_⟩
      simp only [List.isChain_cons_cons, List.getLast?_cons_cons, flag, forall_const, anomalyUntil,
        lt_iff_le_and_ne, le, true_and, and_assoc]

end Windows

/-! ## The series of values -/

/-- A bound is given for every verdict or not at all. -/
theorem length_bound {verdicts : List Verdict} {pick : Verdict → Option Float} {bounds : List Float}
    (h : timeSeries.bound verdicts pick = some bounds) : bounds.length = verdicts.length := by
  unfold timeSeries.bound at h
  split at h
  · cases h
  · clear * - h
    induction verdicts generalizing bounds with
    | nil =>
      obtain rfl := Option.some.inj h
      rfl
    | cons v verdicts ih =>
      rw [List.mapM_cons] at h
      obtain ⟨bound, -, h⟩ := Option.bind_eq_some_iff.mp h
      obtain ⟨rest, others, h⟩ := Option.bind_eq_some_iff.mp h
      obtain rfl := Option.some.inj h
      rw [List.length_cons, List.length_cons, ih others]

end Verdict

namespace Judgement

variable {t : Task} {job : Job} {published : List (String × PlanResult)} (j : Judgement t)

theorem detection_eq : Verdict.anomalies j.params.subject j.granularity j.inside = .ok j.detection.anomalies ∧
    j.detection.timeSeries = some (Verdict.timeSeries j.inside) := by
  obtain ⟨anomalies, found, made⟩ := bind_ok_iff.mp j.amounts
  rw [← pure_ok_iff.mp made]
  exact ⟨found, rfl⟩

theorem windows : Verdict.Windows j.params.subject j.granularity j.inside j.detection.anomalies :=
  Verdict.windows_of_anomalies j.detection_eq.1

theorem map_sample_inside :
    j.inside.map Verdict.sample = (j.verdicts.map Verdict.sample).filter (t.interval.contains ·.1) := by
  rw [List.filter_map]
  rfl

/-- The verdicts of a builtin detector inside the window are in the order of time. -/
theorem rising_inside {columns : MetricColumns}
    (series : j.current.IsSeries columns (j.verdicts.map Verdict.sample)) :
    j.inside.Pairwise fun v w => v.time ≤ w.time :=
  (List.pairwise_map.mp series.rising).filter _

end Judgement

variable {t : Task} {job : Job} {published : List (String × PlanResult)}

/-- **The windows of a detection.** The verdicts of a builtin detector are one for each row of the
table in the order of time. The anomalies are those of the flagged verdicts inside the window, one
for each and in their order; each starts at the instant of its verdict, and stops before the next
one starts. The series of values has the samples of the rows inside the window in the order of time,
lists of one length, and each bound is absent or of that length too. -/
theorem detection_windows (builtin : t.scope.detectors = .builtin)
    (prepared : Operator.anomalyDetector.prepare t = .ok job) (done : job.outcome = .ok published) :
    ∃ (j : Judgement t) (columns : MetricColumns) (s : TimeSeries),
      published = [("output_AnomalyDetectorResult", .detection j.detection)] ∧
      t.node.readParams MetricColumns.shape.decode = .ok columns ∧
      j.current.IsSeries columns (j.verdicts.map Verdict.sample) ∧
      List.Forall₂ (fun v a => a = v.anomalyUntil j.params.subject a.stop)
        (j.inside.filter (·.isAnomaly)) j.detection.anomalies ∧
      j.detection.anomalies.Pairwise (fun a b => a.start ≤ b.start ∧ a.stop ≤ b.start) ∧
      j.detection.timeSeries = some s ∧
      (s.timestamps.zip s.current).Perm ((j.current.samples columns).filter (t.interval.contains ·.1)) ∧
      s.timestamps.Pairwise (· ≤ ·) ∧
      s.current.length = s.timestamps.length ∧ s.baseline.length = s.timestamps.length ∧
      ∀ bounds, s.upperBound = some bounds ∨ s.lowerBound = some bounds →
        bounds.length = s.timestamps.length := by
  obtain ⟨j, published⟩ := exists_judgement prepared done
  obtain ⟨columns, named, series⟩ := j.exists_isSeries builtin
  have rising := j.rising_inside series
  refine ⟨j, columns, Verdict.timeSeries j.inside, published, named, series, j.windows.forall₂_flagged,
    j.windows.apart rising, j.detection_eq.2, ?_, List.pairwise_map.mpr rising, ?_, ?_, ?_⟩
  · have samples : (Verdict.timeSeries j.inside).timestamps.zip (Verdict.timeSeries j.inside).current =
        j.inside.map Verdict.sample := List.zip_map' ..
    rw [samples, j.map_sample_inside]
    exact series.perm.filter _
  · simp [Verdict.timeSeries]
  · simp [Verdict.timeSeries]
  · rintro bounds (given | given)
    all_goals simpa [Verdict.timeSeries] using Verdict.length_bound given

/-- Many views, or one. -/
def views (many : Bool) : Float := Float.ofBits (if many then 0x4049000000000000 else 0x3FF0000000000000)

/-- At most ten views. -/
def atMostTen : Threshold := { max := some (Float.ofBits 0x4024000000000000) }

/-- A row of views at an instant. -/
def viewsRow : Int × Bool → Row := fun (time, many) => [.long time, .double (views many)]

/-- A table of views at some instants. -/
def viewsAt (times : List (Int × Bool)) : DataTable where
  columns := ["timestamp", "value"]
  types := [.long, .double]
  rows := times.map viewsRow

/-- The verdict on views at an instant. -/
def viewsVerdict : Int × Bool → Verdict := fun (time, many) =>
  { time, current := some (views many), upper := atMostTen.max, isAnomaly := many }

/-- The first three seconds. -/
def threeSeconds : Interval := ⟨0, 3000, by decide⟩

/-- More than ten views are to be found within three seconds. -/
def watchViews (granularity : String) (times : List (Int × Bool)) : Task where
  node := {
    name := "watch"
    type := "AnomalyDetector"
    params := [("max", .double (Float.ofBits 0x4024000000000000)),
      ("monitoringGranularity", .string granularity), ("type", .string "threshold")] }
  interval := threeSeconds
  inputs := ⟨[("current", .table (viewsAt times))]⟩

theorem validate_viewsAt (times : List (Int × Bool)) : (viewsAt times).validate = .ok () := by
  refine DataTable.validate_eq_ok_iff.mpr ⟨rfl, fun row there => ?_⟩
  obtain ⟨r, -, rfl⟩ := List.mem_map.mp there
  rfl

/-- The views of some instants in the order of time, where views of one instant are alike. -/
structure InOrder (times sorted : List (Int × Bool)) : Prop where
  perm : times.Perm sorted
  rising : sorted.Pairwise fun r s => r.1 ≤ s.1
  alike : ∀ r ∈ sorted, ∀ s ∈ sorted, r.1 ≤ s.1 → s.1 ≤ r.1 → r = s

theorem InOrder.mergeSort_eq {times sorted : List (Int × Bool)} (order : InOrder times sorted) :
    times.mergeSort (fun r s => r.1 ≤ s.1) = sorted := by
  have perm := (List.mergeSort_perm times fun r s => r.1 ≤ s.1).trans order.perm
  exact perm.eq_of_pairwise (fun r s hr hs rs sr => order.alike r (perm.mem_iff.mp hr) s hs rs sr)
    (DataTable.rising_mergeSort times) order.rising

theorem series_viewsAt {times sorted : List (Int × Bool)} (order : InOrder times sorted) :
    (viewsAt times).series {} = .ok (sorted.map fun (time, many) => (time, some (views many))) := by
  have rows (i : Nat) (lt : i < times.length) : (viewsAt times).rows.getD i [] = viewsRow times[i] := by
    simp [viewsAt, lt]
  have read {α : Type} {f : Nat → Outcome α} {g : Int × Bool → α}
      (each : ∀ i (lt : i < times.length), f i = .ok (g times[i])) :
      (List.range (viewsAt times).rows.length).mapM f = .ok (times.map g) := by
    refine Outcome.mapM_ok_iff.mpr (List.forall₂_iff_get.mpr ⟨by simp [viewsAt], fun i _ lt => ?_⟩)
    simpa using each i (by simpa using lt)
  have instants : (viewsAt times).longs "timestamp" = .ok (times.map (·.1)) := read fun i lt => by
    simp only [DataTable.longAt, DataTable.cell, rows i lt]
    rfl
  have values : (viewsAt times).doubles "value" = .ok (times.map (some <| views ·.2)) := read fun i lt => by
    simp only [DataTable.doubleAt, DataTable.cell, rows i lt]
    rfl
  simp only [DataTable.series, instants, values]
  refine congrArg Except.ok ?_
  rw [List.zip_map', ← order.mergeSort_eq]
  exact (List.map_mergeSort (f := fun r : Int × Bool => (r.1, some (views r.2))) fun _ _ _ _ => rfl).symm

theorem find?_threshold : DetectorRegistry.builtin.find? "threshold" = some Threshold.make := by
  have asked : asciiUpper "threshold" = "THRESHOLD" := by decide +kernel
  have known : asciiUpper "THRESHOLD" = "THRESHOLD" := by decide +kernel
  have other : asciiUpper "PERCENTAGE_CHANGE" = "PERCENTAGE_CHANGE" := by decide +kernel
  simp only [DetectorRegistry.builtin, DetectorRegistry.find?, DetectorRegistry.register, Keyed.get?_insert,
    asked, known, other]
  rfl

/-- What a detector says of views that are put in order. -/
def viewsJudgement {granularity : String} {times : List (Int × Bool)} (period : Period)
    (sorted : List (Int × Bool)) (found : Detection)
    (read : (watchViews granularity times).node.readParams Operator.DetectParams.shape.decode =
      .ok { detector := "threshold", granularity := some period })
    (made : Threshold.make (watchViews granularity times).node = .ok atMostTen.detector)
    (order : InOrder times sorted)
    (amounts : Verdict.detection {} period threeSeconds (sorted.map viewsVerdict) = .ok found) :
    Judgement (watchViews granularity times) where
  params := { detector := "threshold", granularity := some period }
  detector := atMostTen.detector
  current := viewsAt times
  baseline := none
  granularity := period
  verdicts := sorted.map viewsVerdict
  detection := found
  read
  made := ⟨Threshold.make, find?_threshold, made⟩
  given := bind_ok_iff.mpr ⟨.table (viewsAt times), rfl, bind_ok_iff.mpr ⟨(), validate_viewsAt times, rfl⟩⟩
  beside := rfl
  lasting := rfl
  judged := by
    show (do return (← (viewsAt times).series {}).map _) = _
    rw [series_viewsAt order]
    refine congrArg Except.ok ?_
    rw [List.map_map]
    refine List.map_congr_left fun r _ => ?_
    obtain ⟨time, many | many⟩ := r
    · rfl
    · rfl
  amounts

/-- Views out of order, many of them twice at one instant and once after the window. -/
def unorderedViews : List (Int × Bool) :=
  [(2000, true), (0, true), (1000, false), (2000, true), (9000, true)]

/-- Of the two anomalies at one instant the first stops where it starts. -/
def unorderedJudgement : Judgement (watchViews "PT1S" unorderedViews) :=
  viewsJudgement { seconds := 1 } [(0, true), (1000, false), (2000, true), (2000, true), (9000, true)]
    { anomalies := [{ start := 0, stop := 1000, current := some (views true) },
        { start := 2000, stop := 2000, current := some (views true) },
        { start := 2000, stop := 3000, current := some (views true) }]
      timeSeries := some {
        timestamps := [0, 1000, 2000, 2000]
        current := [true, false, true, true].map fun many => some (views many)
        baseline := List.replicate 4 none
        upperBound := some (List.replicate 4 (Float.ofBits 0x4024000000000000)) } }
    rfl rfl ⟨by decide, by decide, by decide⟩ rfl

theorem detection_windows_unordered :
    ∃ job, Operator.anomalyDetector.prepare (watchViews "PT1S" unorderedViews) = .ok job ∧
      job.outcome = .ok [("output_AnomalyDetectorResult", .detection unorderedJudgement.detection)] ∧
      unorderedJudgement.detection.anomalies.map (fun a => (a.start, a.stop)) =
        [(0, 1000), (2000, 2000), (2000, 3000)] ∧
      unorderedJudgement.detection.anomalies.Pairwise (fun a b => a.start ≤ b.start ∧ a.stop ≤ b.start) := by
  obtain ⟨job, prepared, done⟩ := unorderedJudgement.exists_job
  obtain ⟨j, columns, s, -, -, -, -, apart, -⟩ := detection_windows rfl prepared done
  obtain rfl := j.eq unorderedJudgement
  exact ⟨job, prepared, done, rfl, apart⟩

/-- **Empty windows.** No anomaly of a builtin detector stops before it starts. All of them cover
some time exactly if no flagged row inside the window is followed there by a row of the same instant
and, in case the last row inside the window is flagged, the granularity has a length. -/
theorem windows_nonempty_iff (builtin : t.scope.detectors = .builtin)
    (prepared : Operator.anomalyDetector.prepare t = .ok job) (done : job.outcome = .ok published) :
    ∃ (j : Judgement t) (columns : MetricColumns),
      published = [("output_AnomalyDetectorResult", .detection j.detection)] ∧
      t.node.readParams MetricColumns.shape.decode = .ok columns ∧
      j.current.IsSeries columns (j.verdicts.map Verdict.sample) ∧
      (∀ a ∈ j.detection.anomalies, a.start ≤ a.stop) ∧
      ((∀ a ∈ j.detection.anomalies, a.start < a.stop) ↔
        j.inside.IsChain (fun v w => v.isAnomaly → v.time ≠ w.time) ∧
          ∀ v, j.inside.getLast? = some v → v.isAnomaly → j.granularity.isZero = false) := by
  obtain ⟨j, published⟩ := exists_judgement prepared done
  obtain ⟨columns, named, series⟩ := j.exists_isSeries builtin
  exact ⟨j, columns, published, named, series, j.windows.nonempty_iff (j.rising_inside series)⟩

/-- A period of no length leaves the last anomaly empty. -/
def noLengthJudgement : Judgement (watchViews "P0D" [(5, true)]) :=
  viewsJudgement .zero [(5, true)]
    { anomalies := [{ start := 5, stop := 5, current := some (views true) }]
      timeSeries := some {
        timestamps := [5]
        current := [some (views true)]
        baseline := [none]
        upperBound := some [Float.ofBits 0x4024000000000000] } }
    rfl rfl ⟨by decide, by decide, by decide⟩ rfl

theorem windows_nonempty_iff_noLength :
    ∃ job, Operator.anomalyDetector.prepare (watchViews "P0D" [(5, true)]) = .ok job ∧
      job.outcome = .ok [("output_AnomalyDetectorResult", .detection noLengthJudgement.detection)] ∧
      (∀ a ∈ noLengthJudgement.detection.anomalies, a.start ≤ a.stop) ∧
      ¬ ∀ a ∈ noLengthJudgement.detection.anomalies, a.start < a.stop := by
  obtain ⟨job, prepared, done⟩ := noLengthJudgement.exists_job
  obtain ⟨j, columns, -, -, -, kept, nonempty⟩ := windows_nonempty_iff rfl prepared done
  obtain rfl := j.eq noLengthJudgement
  refine ⟨job, prepared, done, kept, fun all => ?_⟩
  obtain ⟨-, lasting⟩ := nonempty.mp all
  exact absurd (lasting (viewsVerdict (5, true)) rfl rfl) (by decide)

end DetectionPlan
