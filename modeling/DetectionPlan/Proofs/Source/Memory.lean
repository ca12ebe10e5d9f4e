/-
Tables in memory as a data source. Of a query for the rows of a table within an interval
the source only sees the column and the bounds that were recorded when the query was
prepared, not the filter that it is sent (`fetched_rows_satisfy_filter_iff`).
-/
import DetectionPlan.Operator.Builtin
import DetectionPlan.Proofs.Expansion.TimeQuery
import DetectionPlan.Proofs.Period.Neighbour

namespace DetectionPlan

open Outcome (bind_ok_iff)
open Sql (Expr Ident Query)

/-! ## Recorded bounds -/

namespace TimeBounds

/-- The bounds that a placeholder has recorded are read back. -/
theorem ofProperties?_withBounds {column : String} {bounds : Interval} (start : fitsInt64 bounds.start)
    (stop : fitsInt64 bounds.stop) : ofProperties? (Placeholder.withBounds .empty column bounds) =
      some ⟨column, bounds.start, bounds.stop⟩ := by
  have name : (Placeholder.withBounds .empty column bounds).find? .timeColumn = some column := by
    unfold Placeholder.withBounds Properties.find? Properties.put
    rw [Keyed.get?_insert, if_neg (by decide), Keyed.get?_insert, if_neg (by decide), Keyed.get?_insert,
      if_pos BEq.rfl]
  obtain ⟨minimum, maximum⟩ := Placeholder.find?_withBounds .empty column bounds
  simp only [ofProperties?, name, minimum, maximum, readInt64?_toString start, readInt64?_toString stop,
    Option.bind_eq_bind, Option.bind_some]
  rfl

end TimeBounds

/-! ## Rows -/

namespace DataTable

variable {t : DataTable} {column : Ident}

/-- The numbers of a row. A name stands for the column that is called so, whether it is
quoted or not. -/
def numbers (t : DataTable) (row : Row) : NumberRow
  | [i] => match (t.columnIndex i.text).map (cellOf row) with
    | .ok (.long n) => some n
    | _ => none
  | _ => none

/-- Whether a condition is true of a row. -/
def satisfies (t : DataTable) (filter : Expr) (row : Row) : Bool :=
  (t.numbers row).valuation.truth filter = .true

theorem filter_eq_filter_iff {p q : Row → Bool} {rows : List Row} :
    rows.filter p = rows.filter q ↔ ∀ row ∈ rows, (p row ↔ q row) := by
  constructor
  · intro same row hr
    have mem : row ∈ rows.filter p ↔ row ∈ rows.filter q := by rw [same]
    simpa [List.mem_filter, hr] using mem
  · exact fun same => List.filter_congr fun row hr => Bool.eq_iff_iff.mpr (same row hr)

/-- The rows within some bounds are those that satisfy a condition when the two agree on every
row. The bounds are about the column whose name is exactly the recorded text; if there is
none, every row is within. -/
theorem within_eq_filter_iff {b : TimeBounds} {p : Row → Bool} :
    (t.within b).rows = t.rows.filter p ↔ ∀ row ∈ t.rows, (p row ↔
      ∀ i, t.columnIndex b.column = .ok i →
        ∃ n, (cellOf row i).asLong = some n ∧ b.start ≤ n ∧ n < b.stop) := by
  unfold within
  cases t.columnIndex b.column with
  | error e => simp [eq_comm (a := t.rows), List.filter_eq_self]
  | ok i =>
    rw [filter_eq_filter_iff]
    refine forall₂_congr fun row _ => ?_
    have admitted : b.admits (cellOf row i) ↔
        ∃ n, (cellOf row i).asLong = some n ∧ b.start ≤ n ∧ n < b.stop := by
      simp [TimeBounds.admits, Option.any_eq_true]
    simpa [admitted] using iff_comm

variable {t : DataTable} {column : Ident} {unit : EpochUnit} {bounds : Interval} {place : Nat}

/-- The filter of a query for the rows within some bounds is true of an integer exactly when
the instant it stands for is within them. -/
theorem satisfies_boundsFilter_iff {row : Row} {v : Int} (there : t.columnIndex column.text = .ok place)
    (long : cellOf row place = .long v) : t.satisfies (Expansion.boundsFilter column unit bounds) row ↔
      bounds.start ≤ v * unit.millis ∧ v * unit.millis < bounds.stop := by
  have value : t.numbers row [column] = some (v : ℚ) := by
    simp [numbers, there, Except.map, long]
  have nested (e : Expr) : (t.numbers row).valuation.truth (.nested e) = (t.numbers row).valuation.truth e := by
    rw [Valuation.truth]
  rw [satisfies, decide_eq_true_iff, Expansion.boundsFilter, nested, Sql.truth_within value,
    TimeFormat.ceilDiv_le_iff unit.millis_pos, TimeFormat.lt_ceilDiv_iff unit.millis_pos]

end DataTable

/-! ## What is fetched -/

/-- The dataset that a query is about, if it names one. -/
def Operator.FetchParams.target (p : Operator.FetchParams) (source : DataSource) : Option Dataset :=
  p.dataset.map fun name => (source.dataset? name).getD { name }

theorem fetchFrom_of_found {source name : String} {tables : Keyed String DataTable}
    {request : PreparedRequest} {table : DataTable} {b : TimeBounds} (named : request.table = some name)
    (found : tables.get? name = some table) (bounded : TimeBounds.ofProperties? request.properties = some b) :
    fetchFrom source tables request = .ok (table.within b) := by
  rw [fetchFrom, named]
  simp only [found, bounded]

/-- The rows that a source in memory yields for a query within an interval. -/
theorem fetch_timeQuery {p : Operator.FetchParams} {task : Task} {name : String} {d : Sql.DialectSettings}
    {expressions : TimeExpressions} {tables : Keyed String DataTable} {datasets : List Dataset}
    {q : TimeQuery} {column : Ident} {unit : EpochUnit} {bounds : Interval} {table : DataTable}
    (plain : p.predicates = []) (read : d.parser.parseStatement p.query = .ok (.query q.query))
    (within : q.Within ((DataSource.inMemory name d expressions tables datasets).expansion task.interval
      (p.target (.inMemory name d expressions tables datasets)) task.scope.strict) column unit bounds)
    (found : tables.get? ((p.target (.inMemory name d expressions tables datasets)).elim q.source (·.name)) =
      some table) :
    let source := DataSource.inMemory name d expressions tables datasets
    let sent := Query.allWhere q.source (Expansion.boundsFilter column unit bounds)
    ∃ fetched, fetched.rows = (table.within ⟨column.quoted, bounds.start, bounds.stop⟩).rows ∧
      (p.job source task).outcome = .ok [("currentData", .table fetched)] ∧
      (p.job source task).sent = [⟨name, sent.text⟩] ∧
      d.parser.parseStatement sent.text = .ok (.query sent) := by
  intro source sent
  let request : PreparedRequest := {
    sql := sent.text
    table := some ((p.target source).elim q.source (·.name))
    properties := Placeholder.withBounds .empty column.quoted bounds }
  let yielded := table.within ⟨column.quoted, bounds.start, bounds.stop⟩
  let fetched : DataTable :=
    { yielded with properties := yielded.properties.insertAll request.properties.entries }
  obtain ⟨expanded, again⟩ := Expansion.prepare_timeQuery read within
  have prepared : source.prepare task.interval (p.target source) task.scope.strict p.query p.predicates =
      .ok request := by
    rw [plain]
    exact bind_ok_iff.mpr ⟨request, expanded, rfl⟩
  obtain ⟨back, back', -, -, moved⟩ := within.moved
  obtain ⟨start, stop⟩ := Placeholder.withLookback_ok moved
  -- The bounds that the properties carry are those of the filter, so the source keeps the same rows.
  have bounded : TimeBounds.ofProperties? request.properties = some ⟨column.quoted, bounds.start, bounds.stop⟩ :=
    TimeBounds.ofProperties?_withBounds (fitsInt64_of_hasDate (Period.hasDate_of_subtractFrom start))
      (fitsInt64_of_hasDate (Period.hasDate_of_subtractFrom stop))
  have answered : Operator.fetchTable source request = .ok fetched := by
    refine bind_ok_iff.mpr ⟨yielded, ?_, rfl⟩
    exact fetchFrom_of_found rfl found bounded
  have job : p.job source task = {
      sent := [⟨name, sent.text⟩]
      outcome := .ok [("currentData", .table fetched)] } := by
    have asked : source.prepare task.interval (p.dataset.map fun name => (source.dataset? name).getD { name })
        task.scope.strict p.query p.predicates = .ok request := prepared
    unfold Operator.FetchParams.job
    simp only [asked, answered]
    rfl
  exact ⟨fetched, rfl, by rw [job], by rw [job], again⟩

/-- **Tables in memory and the filter they are sent.** A query for the rows of a table within
an interval is sent with a filter that is true of a row exactly when the instant in its column
is within the interval. The rows that a source in memory yields are those instead whose number
in the column, in whatever unit it is, is within the interval in milliseconds, and all rows if
no column is called like the text of the name, quotes included. So they are the rows that
satisfy the filter exactly when the two conditions agree on every row, which they do for a
plain name of a column in milliseconds. -/
theorem fetched_rows_satisfy_filter_iff {p : Operator.FetchParams} {task : Task} {source : DataSource}
    {name : String} {d : Sql.DialectSettings} {expressions : TimeExpressions}
    {tables : Keyed String DataTable} {datasets : List Dataset} {q : TimeQuery} {column : Ident}
    {unit : EpochUnit} {bounds : Interval} {table : DataTable} {place : Nat}
    (memory : source = .inMemory name d expressions tables datasets) (plain : p.predicates = [])
    (read : d.parser.parseStatement p.query = .ok (.query q.query))
    (within : q.Within (source.expansion task.interval (p.target source) task.scope.strict) column unit bounds)
    (found : tables.get? ((p.target source).elim q.source (·.name)) = some table)
    (there : table.columnIndex column.text = .ok place)
    (longs : ∀ row ∈ table.rows, ∃ v, DataTable.cellOf row place = .long v) :
    ∃ sql filter fetched,
      (p.job source task).sent = [⟨name, sql⟩] ∧
      (p.job source task).outcome = .ok [("currentData", .table fetched)] ∧
      d.parser.parseStatement sql = .ok (.query (.allWhere q.source filter)) ∧
      (∀ row ∈ table.rows, ∀ v, DataTable.cellOf row place = .long v → (table.satisfies filter row ↔
        bounds.start ≤ v * unit.millis ∧ v * unit.millis < bounds.stop)) ∧
      (fetched.rows = table.rows.filter (table.satisfies filter) ↔
        ∀ row ∈ table.rows, ∀ v, DataTable.cellOf row place = .long v →
          ((bounds.start ≤ v * unit.millis ∧ v * unit.millis < bounds.stop) ↔
            ∀ i, table.columnIndex column.quoted = .ok i →
              ∃ w, (DataTable.cellOf row i).asLong = some w ∧ bounds.start ≤ w ∧ w < bounds.stop)) ∧
      (column.quoted = column.text → unit = .milliseconds →
        fetched.rows = table.rows.filter (table.satisfies filter)) := by
  subst memory
  let recorded : TimeBounds := ⟨column.quoted, bounds.start, bounds.stop⟩
  let filter := Expansion.boundsFilter column unit bounds
  obtain ⟨fetched, fetchedRows, outcome, sent, again⟩ := fetch_timeQuery plain read within found
  have satisfied : ∀ row ∈ table.rows, ∀ v, DataTable.cellOf row place = .long v →
      (table.satisfies filter row ↔ bounds.start ≤ v * unit.millis ∧ v * unit.millis < bounds.stop) :=
    fun row _ v long => DataTable.satisfies_boundsFilter_iff there long
  have kept : fetched.rows = table.rows.filter (table.satisfies filter) ↔
      ∀ row ∈ table.rows, ∀ v, DataTable.cellOf row place = .long v →
        ((bounds.start ≤ v * unit.millis ∧ v * unit.millis < bounds.stop) ↔
          ∀ i, table.columnIndex column.quoted = .ok i →
            ∃ w, (DataTable.cellOf row i).asLong = some w ∧ bounds.start ≤ w ∧ w < bounds.stop) := by
    rw [fetchedRows, DataTable.within_eq_filter_iff]
    refine forall₂_congr fun row hr => ?_
    obtain ⟨v, long⟩ := longs row hr
    rw [satisfied row hr v long]
    constructor
    · intro agree w long'
      obtain rfl := Cell.long.inj (long.symm.trans long')
      exact agree
    · exact fun agree => agree v long
  refine ⟨_, filter, fetched, sent, outcome, again, satisfied, kept, fun same millis => ?_⟩
  refine kept.mpr fun row _ v long => ?_
  have here : ∀ i, table.columnIndex column.quoted = .ok i ↔ i = place := fun i => by
    rw [same, there, Except.ok.injEq, eq_comm]
  simp [here, millis, EpochUnit.millis, long, Cell.asLong]

/-- A query for the rows of a table within two seconds. -/
def twoSeconds : TimeQuery := { source := "t", argument := .name [⟨"ts", none⟩] }

/-- A table that counts seconds. -/
def secondsTable : DataTable :=
  { columns := ["ts"], types := [.long], rows := [[.long 1], [.long 2], [.long 5000]] }

def secondsSource : DataSource :=
  .inMemory "db" {} (.ansi (.epoch .seconds)) (.ofList [("t", secondsTable)])

def fetchTwoSeconds : Operator.FetchParams :=
  { source := "db", query := "SELECT * FROM t WHERE __timeFilter(ts)" }

def secondsTask : Task :=
  { node := { name := "fetch", type := "DataFetcher" }, interval := ⟨1000, 3000, by decide⟩ }

theorem fetched_rows_satisfy_filter_iff_seconds :
    ({} : Sql.DialectSettings).parser.parseStatement fetchTwoSeconds.query = .ok (.query twoSeconds.query) ∧
    twoSeconds.Within (secondsSource.expansion secondsTask.interval (fetchTwoSeconds.target secondsSource) false)
      ⟨"ts", none⟩ .seconds ⟨1000, 3000, by decide⟩ ∧
    ∃ sql filter fetched,
      (fetchTwoSeconds.job secondsSource secondsTask).sent = [⟨"db", sql⟩] ∧
      (fetchTwoSeconds.job secondsSource secondsTask).outcome = .ok [("currentData", .table fetched)] ∧
      ({} : Sql.DialectSettings).parser.parseStatement sql = .ok (.query (.allWhere "t" filter)) ∧
      secondsTable.satisfies filter [.long 1] ∧
      fetched.rows ≠ secondsTable.rows.filter (secondsTable.satisfies filter) := by
  let tokens : List Sql.Token := Sql.allWhereTokens "t" ++ [.word ⟨"__timeFilter", none⟩ none,
    .mark .leftParen, .word ⟨"ts", none⟩ none, .mark .rightParen]
  have read : ({} : Sql.DialectSettings).parser.parseStatement fetchTwoSeconds.query =
      .ok (.query twoSeconds.query) := Sql.parseStatement_of_tokens tokens [] (by decide +kernel) rfl
  have within : twoSeconds.Within
      (secondsSource.expansion secondsTask.interval (fetchTwoSeconds.target secondsSource) false)
      ⟨"ts", none⟩ .seconds ⟨1000, 3000, by decide⟩ := {
    builtin := rfl
    source := ⟨by decide +kernel, nofun⟩
    isAtom := .inl ⟨_, rfl⟩
    handed := by decide +kernel
    name := .plain ⟨by decide +kernel, by decide +kernel⟩
    counts := .source rfl (.inl rfl)
    few := by decide
    moved := ⟨.zero, .zero, rfl, rfl, Outcome.ok_of_toOption (by decide +kernel)⟩
    room := by decide }
  have there : secondsTable.columnIndex "ts" = .ok 0 := rfl
  have longs : ∀ row ∈ secondsTable.rows, ∃ v, DataTable.cellOf row 0 = .long v := by
    simp [secondsTable, DataTable.cellOf]
  obtain ⟨sql, filter, fetched, sent, outcome, again, satisfied, kept, -⟩ :=
    fetched_rows_satisfy_filter_iff rfl rfl read within rfl there longs
  have first : [Cell.long 1] ∈ secondsTable.rows := List.mem_cons_self
  refine ⟨read, within, sql, filter, fetched, sent, outcome, again, ?_, fun same => ?_⟩
  · exact (satisfied _ first 1 rfl).mpr (by decide)
  · obtain ⟨w, value, low, -⟩ := (kept.mp same _ first 1 rfl).mp (by decide) 0 rfl
    obtain rfl : 1 = w := Option.some.inj value
    exact absurd low (by decide)

end DetectionPlan
