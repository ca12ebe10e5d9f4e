/-
The text of a period and what is read from it. The text is a row of the units that the period has,
and reading enters them one after the other into a period without units (`read_text`), so whatever is
read from some text is read from its own text as well. A granularity that a request leaves as text is
thus the one that the operators behind it find (`text_reads_back`).
-/
import DetectionPlan.Operator.Builtin
import DetectionPlan.Proofs.Period.Reading
import DetectionPlan.Proofs.TimeExpression.Filter

namespace DetectionPlan.Period

open Outcome (bind_ok_iff map_ok_iff)

variable {p : Period}

/-! ## The text as components -/

/-- One unit of the text, when there are any. -/
def unitComponent (n : UInt32) (unit : Char) : List Component :=
  if 0 < n then [((toString n.toNat).toList, unit)] else []

def dateComponents (p : Period) : List Component :=
  unitComponent p.years 'Y' ++ unitComponent p.months 'M' ++ unitComponent p.weeks 'W' ++
    unitComponent p.days 'D'

/-- Seconds with their thousandths. -/
def decimalComponent (p : Period) : Component :=
  ((toString p.seconds.toNat).toList ++ '.' :: (padZeros 3 p.millis.toNat).toList, 'S')

def timeComponents (p : Period) : List Component :=
  unitComponent p.hours 'H' ++ unitComponent p.minutes 'M' ++
    if 0 < p.millis then [p.decimalComponent] else unitComponent p.seconds 'S'

theorem spelled_append (cs ds : List Component) : spelled (cs ++ ds) = spelled cs ++ spelled ds :=
  List.flatMap_append

theorem unitText_toList (n : UInt32) (name : String) (unit : Char) (h : name.toList = [unit]) :
    (unitText n name).toList = spelled (unitComponent n unit) := by
  unfold unitText unitComponent
  by_cases some : 0 < n
  · simp [some, spelled, h]
  · simp [some, spelled]

theorem secondsText_toList (p : Period) : p.secondsText.toList =
    spelled (if 0 < p.millis then [p.decimalComponent] else unitComponent p.seconds 'S') := by
  unfold secondsText
  by_cases some : 0 < p.millis
  · simp [some, spelled, decimalComponent]
  · rw [if_neg some, if_neg some, unitText_toList p.seconds "S" 'S' rfl]

/-- The text is the letter, the components of the date and, behind a `T`, those of the time. -/
theorem text_toList (nonzero : p.isZero = false) : p.text.toList =
    'P' :: (spelled p.dateComponents ++ if p.hasTime then 'T' :: spelled p.timeComponents else []) := by
  have time : (if p.hasTime then
      "T" ++ unitText p.hours "H" ++ unitText p.minutes "M" ++ p.secondsText else "").toList =
        if p.hasTime then 'T' :: spelled p.timeComponents else [] := by
    split
    · simp [timeComponents, spelled_append, secondsText_toList, unitText_toList p.hours "H" 'H' rfl,
        unitText_toList p.minutes "M" 'M' rfl]
    · rfl
  unfold text
  rw [nonzero, if_neg nofun, String.toList_append, time]
  simp [dateComponents, spelled_append, unitText_toList p.years "Y" 'Y' rfl,
    unitText_toList p.months "M" 'M' rfl, unitText_toList p.weeks "W" 'W' rfl,
    unitText_toList p.days "D" 'D' rfl]

/-! ## Entering the components -/

theorem isWhole_toString (n : UInt32) : IsWhole (toString n.toNat).toList ∧
    Nat.ofDigitChars 10 (toString n.toNat).toList 0 = n.toNat := by
  obtain ⟨filled, digits, value⟩ := readDigits?_eq_some_iff.mp (readDigits?_toString n.toNat)
  exact ⟨⟨filled, digits, value ▸ n.toNat_lt⟩, value.symm⟩

theorem readWhole_toString (n : UInt32) : readWhole (toString n.toNat).toList = .ok n := by
  obtain ⟨whole, value⟩ := isWhole_toString n
  exact readWhole_ok_iff.mpr ⟨whole, value.symm⟩

/-- A unit that a period has is entered, and one that it has not is none already. -/
theorem enter_unit {add : Period → Component → Except PeriodDefect Period} {unit : Char}
    (set : UInt32 → Period → Period) (n : UInt32) (q : Period)
    (enters : add q ((toString n.toNat).toList, unit) = .ok (set n q)) (blank : set 0 q = q) :
    (unitComponent n unit).foldlM add q = .ok (set n q) := by
  unfold unitComponent
  by_cases some : 0 < n
  · rw [if_pos some, List.foldlM_cons, enters]
    rfl
  · rw [if_neg some, not_pos_iff.mp some, blank]
    rfl

theorem enter_append {add : Period → Component → Except PeriodDefect Period} {cs ds : List Component}
    {q r : Period} (h : cs.foldlM add q = .ok r) : (cs ++ ds).foldlM add q = ds.foldlM add r := by
  rw [List.foldlM_append, h]
  rfl

theorem addDate_toString (q : Period) (n : UInt32) (unit : Char) :
    addDate q ((toString n.toNat).toList, unit) = match unit.toUpper with
      | 'Y' => .ok { q with years := n }
      | 'M' => .ok { q with months := n }
      | 'W' => .ok { q with weeks := n }
      | 'D' => .ok { q with days := n }
      | unit => .error (.unknownDateUnit unit) := by
  simp only [addDate, readWhole_toString]
  rfl

/-- The components of the date enter all units down to days. -/
theorem enter_date (p : Period) : p.dateComponents.foldlM addDate zero =
    .ok { years := p.years, months := p.months, weeks := p.weeks, days := p.days } := by
  simp only [dateComponents, List.append_assoc]
  rw [enter_append (enter_unit (fun n q => { q with years := n }) p.years zero (addDate_toString _ _ _) rfl),
    enter_append (enter_unit (fun n q => { q with months := n }) p.months _ (addDate_toString _ _ _) rfl),
    enter_append (enter_unit (fun n q => { q with weeks := n }) p.weeks _ (addDate_toString _ _ _) rfl),
    enter_unit (fun n q => { q with days := n }) p.days _ (addDate_toString _ _ _) rfl]
  rfl

/-- Thousandths that do not make a second. -/
def IsFraction (p : Period) : Prop := p.millis.toNat < 10 ^ 3

/-- Thousandths below a whole second are read with the seconds in front of them. -/
theorem readSeconds_decimals (small : p.IsFraction) :
    readSeconds p.decimalComponent.1 = .ok (p.seconds, p.millis) := by
  obtain ⟨length, digits, value⟩ := padZeros_spec (by decide) small
  obtain ⟨whole, -⟩ := isWhole_toString p.seconds
  have others : ∀ c ∈ (toString p.seconds.toNat).toList, isPoint c = false :=
    fun c hc => isPoint_of_isDigit (whole.digits c hc)
  have same : (padZeros 3 p.millis.toNat).toList.map dotted = (padZeros 3 p.millis.toNat).toList :=
    map_dotted fun c hc => isPoint_of_isDigit (digits c hc)
  refine (readSeconds_decimals_ok_iff others rfl).mpr ⟨by omega, .inr ⟨whole.filled, readWhole_toString _⟩, ?_⟩
  have filled : (padZeros 3 p.millis.toNat).toList ≠ [] := by
    intro none
    rw [none] at length
    cases length
  rw [same, length, Nat.sub_self, List.replicate_zero, List.append_nil]
  exact readWhole_ok_iff.mpr ⟨⟨filled, digits, by rw [value]; exact p.millis.toNat_lt⟩, value.symm⟩

theorem addTime_toString (q : Period) (n : UInt32) :
    addTime q ((toString n.toNat).toList, 'H') = .ok { q with hours := n } ∧
    addTime q ((toString n.toNat).toList, 'M') = .ok { q with minutes := n } ∧
    addTime q ((toString n.toNat).toList, 'S') = .ok { q with seconds := n, millis := 0 } := by
  obtain ⟨whole, -⟩ := isWhole_toString n
  have seconds : readSeconds (toString n.toNat).toList = .ok (n, 0) := by
    rw [readSeconds_whole fun c hc => isPoint_of_isDigit (whole.digits c hc), readWhole_toString]
    rfl
  refine ⟨?_, ?_, ?_⟩
  · show (readWhole _ >>= fun n => Except.ok { q with hours := n }) = _
    rw [readWhole_toString]
    rfl
  · show (readWhole _ >>= fun n => Except.ok { q with minutes := n }) = _
    rw [readWhole_toString]
    rfl
  · show (readSeconds _ >>= fun r => Except.ok { q with seconds := r.1, millis := r.2 }) = _
    rw [seconds]
    rfl

/-- The components of the time enter the units below days. -/
theorem enter_time (small : p.IsFraction) :
    p.timeComponents.foldlM addTime
      { years := p.years, months := p.months, weeks := p.weeks, days := p.days } = .ok p := by
  simp only [timeComponents, List.append_assoc]
  rw [enter_append (enter_unit (fun n q => { q with hours := n }) p.hours _ (addTime_toString _ _).1 rfl),
    enter_append (enter_unit (fun n q => { q with minutes := n }) p.minutes _ (addTime_toString _ _).2.1 rfl)]
  by_cases some : 0 < p.millis
  · rw [if_pos some, List.foldlM_cons]
    have decimals : ∀ q, addTime q p.decimalComponent = .ok { q with seconds := p.seconds, millis := p.millis } := by
      intro q
      show (readSeconds _ >>= fun r => Except.ok { q with seconds := r.1, millis := r.2 }) = _
      rw [readSeconds_decimals small]
      rfl
    rw [decimals]
    rfl
  · rw [if_neg some, enter_unit (fun n q => { q with seconds := n, millis := 0 }) p.seconds _
      (addTime_toString _ _).2.2 rfl, ← not_pos_iff.mp some]

/-! ## Reading the text -/

theorem mem_unitComponent {n : UInt32} {unit : Char} {c : Component} (h : c ∈ unitComponent n unit) :
    IsWhole c.1 ∧ c.2 = unit := by
  unfold unitComponent at h
  split at h
  · obtain rfl := List.mem_singleton.mp h
    exact ⟨(isWhole_toString n).1, rfl⟩
  · cases h

theorem unitComponent_eq_nil_iff {n : UInt32} {unit : Char} : unitComponent n unit = [] ↔ n = 0 := by
  unfold unitComponent
  by_cases some : 0 < n
  · simp only [if_pos some, List.cons_ne_nil, false_iff]
    rintro rfl
    exact absurd some (by decide)
  · rw [if_neg some]
    exact iff_of_true rfl (not_pos_iff.mp some)

theorem isDate_of_mem {c : Component} (h : c ∈ p.dateComponents) : IsDate c.1 c.2 := by
  simp only [dateComponents, List.mem_append] at h
  rcases h with ((h | h) | h) | h <;>
    (obtain ⟨whole, unit⟩ := mem_unitComponent h
     exact ⟨whole, by rw [unit]; decide⟩)

theorem isTime_of_mem (small : p.IsFraction) {c : Component} (h : c ∈ p.timeComponents) :
    IsTime c.1 c.2 := by
  simp only [timeComponents, List.mem_append] at h
  rcases h with (h | h) | h
  · obtain ⟨whole, unit⟩ := mem_unitComponent h
    exact .inl ⟨whole, by rw [unit]; decide⟩
  · obtain ⟨whole, unit⟩ := mem_unitComponent h
    exact .inl ⟨whole, by rw [unit]; decide⟩
  · split at h
    · obtain rfl := List.mem_singleton.mp h
      exact .inr ⟨exists_readSeconds_iff.mp ⟨_, readSeconds_decimals small⟩, rfl⟩
    · obtain ⟨whole, unit⟩ := mem_unitComponent h
      exact .inr ⟨.whole whole, by rw [unit]; rfl⟩

theorem timeComponents_eq_nil_iff : p.timeComponents = [] ↔ p.hasTime = false := by
  unfold timeComponents hasTime
  by_cases some : 0 < p.millis
  · simp [some]
  · rw [if_neg some]
    have none := not_pos_iff.mp some
    simp only [List.append_eq_nil_iff, unitComponent_eq_nil_iff, Bool.or_eq_false_iff,
      decide_eq_false_iff_not, not_pos_iff, none, and_true]

/-- Only the period of no length has no components. -/
theorem eq_zero_of_nil (small : p.IsFraction) (date : p.dateComponents = [])
    (time : p.timeComponents = []) : p = zero := by
  have dates := p.enter_date
  have times := enter_time small
  rw [date] at dates
  rw [time] at times
  exact (Except.ok.inj (dates.trans times)).symm

/-- The text of a period whose thousandths are below a second is read as the period. -/
theorem read_text (small : p.IsFraction) : read p.text.toList = .ok p := by
  by_cases nonzero : p.isZero = false
  · have unmarked := not_isTimeMark_of_isRow (isRow_iff.mpr ⟨p.dateComponents, rfl, fun c => isDate_of_mem⟩)
    have date : readSection addDate (spelled p.dateComponents) zero =
        .ok { years := p.years, months := p.months, weeks := p.weeks, days := p.days } := by
      rw [readSection_spelled (fun c hc => (isDate_of_mem hc).isComponent), enter_date]
    have entered := enter_time small
    rw [text_toList nonzero]
    show readBody _ = _
    by_cases time : p.timeComponents = []
    · have dates : p.dateComponents ≠ [] := by
        intro none
        rw [eq_zero_of_nil small none time] at nonzero
        cases nonzero
      rw [timeComponents_eq_nil_iff.mp time, if_neg nofun, List.append_nil,
        readBody_date unmarked (spelled_ne_nil dates), date]
      rwa [time] at entered
    · have shown : p.hasTime = true := by
        rw [← Bool.not_eq_false, ← timeComponents_eq_nil_iff]
        exact time
      rw [if_pos shown, readBody_time unmarked rfl (spelled_ne_nil time), date]
      show readSection addTime _ _ = _
      rw [readSection_spelled (fun c hc => (isTime_of_mem small hc).isComponent), entered]
  · have none : p = zero := by simpa [isZero] using nonzero
    rw [none]
    rfl

/-! ## What is read from a text -/

/-- Seconds are read with less than a second of thousandths. -/
theorem millis_of_readSeconds {cs : List Char} {seconds millis : UInt32}
    (h : readSeconds cs = .ok (seconds, millis)) : millis.toNat < 10 ^ 3 := by
  rcases exists_first isPoint cs with whole | ⟨front, point, fraction, rfl, others, mark⟩
  · rw [readSeconds_whole whole] at h
    obtain ⟨n, -, same⟩ := map_ok_iff.mp h
    obtain ⟨-, rfl⟩ := Prod.mk.inj same
    decide
  · obtain ⟨few, -, read⟩ := (readSeconds_decimals_ok_iff others mark).mp h
    obtain ⟨whole, value⟩ := readWhole_ok_iff.mp read
    have below := ofDigitChars_lt whole.digits
    have length : (fraction.map dotted ++ List.replicate (3 - fraction.length) '0').length = 3 := by
      rw [List.length_append, List.length_map, List.length_replicate]
      omega
    rwa [← value, length] at below

theorem IsFraction.addDate (p : Period) (c : Component) (q : Period) (small : p.IsFraction)
    (h : addDate p c = .ok q) : q.IsFraction := by
  obtain ⟨n, -, h⟩ := bind_ok_iff.mp h
  split at h
  case h_5 => cases h
  all_goals
    obtain rfl := Except.ok.inj h
    exact small

theorem IsFraction.addTime (p : Period) (c : Component) (q : Period) (small : p.IsFraction)
    (h : addTime p c = .ok q) : q.IsFraction := by
  unfold Period.addTime at h
  split at h
  · obtain ⟨n, -, h⟩ := bind_ok_iff.mp h
    obtain rfl := Except.ok.inj h
    exact small
  · obtain ⟨n, -, h⟩ := bind_ok_iff.mp h
    obtain rfl := Except.ok.inj h
    exact small
  · obtain ⟨r, read, h⟩ := bind_ok_iff.mp h
    obtain rfl := Except.ok.inj h
    exact millis_of_readSeconds read
  · cases h

/-- What is read has no more thousandths than make a second. -/
theorem isFraction_of_parse {s : String} (h : parse s = .ok p) : p.IsFraction := by
  have start : zero.IsFraction := by
    unfold IsFraction
    decide
  obtain ⟨letter, body, -, -, components⟩ := read_ok (parse_ok_iff.mp h)
  rcases readBody_ok components with ⟨-, dates⟩ | ⟨date, mark, time, q, -, -, -, dates, times⟩
  · exact readSection_keeps IsFraction.addDate start dates
  · exact readSection_keeps IsFraction.addTime (readSection_keeps IsFraction.addDate start dates) times

/-- The text of a period that was read is read as this period. -/
theorem parse_text {s : String} (h : parse s = .ok p) : parse p.text = .ok p := by
  have again := read_text (isFraction_of_parse h)
  have written : IsWritten p.text.toList := exists_read_iff.mp ⟨p, again⟩
  have trimmed : trimBy isBlank p.text.toList = p.text.toList := by
    have bare := trimBy_of_isWritten written (List.forall_mem_nil _) (List.forall_mem_nil _)
    rwa [List.nil_append, List.append_nil] at bare
  rwa [parse_ok_iff, trimmed]

/-! ## Granularities left as text -/

open Placeholder in
/-- Grouping by time leaves the granularity as text. -/
theorem granularity_of_timeGroup {scope : RequestScope} {column format s text : String}
    {given left : Properties} (h : parse s = .ok p)
    (expanded : (timeGroup.expand scope [column, format, s]).run given = .ok (text, left)) :
    left.find? .granularity = some p.text := by
  have argument : periodArgument timeGroupName s = .ok p := by
    rw [periodArgument, h]
    rfl
  change (do
    let granularity ← (periodArgument timeGroupName s : Preparing Period)
    writeProperty .granularity granularity.text
    scope.expressions.group column format granularity scope.timezone : Preparing String).run given = _ at expanded
  rw [run_bind argument, run_write] at expanded
  obtain ⟨r, grouped, same⟩ := bind_ok_iff.mp expanded
  obtain rfl : given.put .granularity p.text = left := (Prod.mk.inj (Except.ok.inj same)).2
  rw [Properties.find?, Properties.put, Keyed.get?_insert, if_pos BEq.rfl]

/-- **A period written and read again.** Whatever is read from some text is read from its own text
as well. So of a table that has the granularity which grouping by time leaves, a detector without a
granularity of its own finds the period that was asked for, and so does a completion without one,
unless it is the period of no length: that one counts as none. -/
theorem text_reads_back {s : String} (h : parse s = .ok p) :
    parse p.text = .ok p ∧
      ∀ (scope : RequestScope) (column format text : String) (given left : Properties),
        (Placeholder.timeGroup.expand scope [column, format, s]).run given = .ok (text, left) →
        left.find? .granularity = some p.text ∧
          ∀ t : DataTable, t.properties.find? .granularity = left.find? .granularity →
            (∀ d : Operator.DetectParams, d.granularity = none → d.granularityFor t = some p) ∧
            ∀ x : TimeIndex, x.granularity = none →
              x.granularityFor t = if p.isZero then none else some p := by
  have again := parse_text h
  refine ⟨again, fun scope column format text given left expanded => ?_⟩
  have written := granularity_of_timeGroup h expanded
  refine ⟨written, fun t carried => ⟨fun d none => ?_, fun x none => ?_⟩⟩
  · simp [Operator.DetectParams.granularityFor, none, carried, written, again, Except.toOption]
  · cases zero : p.isZero <;>
      simp [TimeIndex.granularityFor, none, carried, written, again, Except.toOption, zero]

/-- A request to a source that counts milliseconds. -/
def millisScope : RequestScope where
  expressions := .ansi (.epoch .milliseconds)
  interval := ⟨0, 86400000, by decide⟩

/-- A table without rows that was grouped by a granularity. -/
def groupedTable (granularity : String) : DataTable where
  columns := ["timestamp"]
  types := [.long]
  properties := ⟨[("granularity", granularity)]⟩

/-- A period with a comma and no whole seconds is written in another way than it was asked for. -/
theorem text_reads_back_halfSecond :
    (parse " p1dT,5s" = .ok { days := 1, millis := 500 } ∧
      (Placeholder.timeGroup.expand millisScope ["ts", "EPOCH_MILLIS", " p1dT,5s"]).run .empty =
        .ok ("FLOOR(ts / 86400500) * 86400500", (groupedTable "P1DT0.500S").properties)) ∧
    parse "P1DT0.500S" = .ok { days := 1, millis := 500 } ∧
    Operator.DetectParams.granularityFor { detector := "threshold" } (groupedTable "P1DT0.500S") =
      some { days := 1, millis := 500 } ∧
    TimeIndex.granularityFor {} (groupedTable "P1DT0.500S") = some { days := 1, millis := 500 } := by
  have accepted : parse " p1dT,5s" = .ok { days := 1, millis := 500 } :=
    Outcome.ok_of_toOption (by decide +kernel)
  have expanded : (Placeholder.timeGroup.expand millisScope ["ts", "EPOCH_MILLIS", " p1dT,5s"]).run .empty =
      .ok ("FLOOR(ts / 86400500) * 86400500", (groupedTable "P1DT0.500S").properties) :=
    Outcome.ok_of_toOption (by decide +kernel)
  have shown : ({ days := 1, millis := 500 } : Period).text = "P1DT0.500S" := by decide +kernel
  obtain ⟨again, found⟩ := text_reads_back accepted
  obtain ⟨-, operators⟩ := found millisScope "ts" "EPOCH_MILLIS" _ .empty _ expanded
  obtain ⟨detector, completion⟩ := operators (groupedTable "P1DT0.500S") rfl
  rw [shown] at again
  exact ⟨⟨accepted, expanded⟩, again, detector _ rfl, completion {} rfl⟩

/-- A granularity of no length is written and is read as such by a detector, but to a completion the
table has no granularity. -/
theorem no_length_is_none :
    parse "PT0S" = .ok zero ∧
    (Placeholder.timeGroup.expand millisScope ["ts", "EPOCH_MILLIS", "PT0S"]).run .empty =
      .ok ("ts", (groupedTable "P0D").properties) ∧
    Operator.DetectParams.granularityFor { detector := "threshold" } (groupedTable "P0D") = some zero ∧
    TimeIndex.granularityFor {} (groupedTable "P0D") = none :=
  ⟨Outcome.ok_of_toOption (by decide +kernel), Outcome.ok_of_toOption (by decide +kernel),
    by decide +kernel, by decide +kernel⟩

end DetectionPlan.Period
