/-
What a configuration is made into once it has been checked. The check of a source resolves its dialect
and reads the format of its time (`validate_ok_iff`), and making the source does both again in the same
way. So nothing but the files of its tables can keep it from being made, whatever they hold and even if
they change in the meantime: a checked configuration either fails for the file of a table or is made
into one source for each of its entries (`load_of_valid`).
-/
import DetectionPlan.Proofs.Keyed
import DetectionPlan.Proofs.Outcome
import DetectionPlan.Proofs.Plan.Wiring
import DetectionPlan.Settings.Configuration

namespace DetectionPlan

open Outcome (bind_ok_iff check_ok_iff discard_ok_iff forM_ok_iff)

/-! ## Work on files -/

/-- Work that fails in some way or results in something of a kind, whatever state it starts from. -/
def Ends {σ ε α : Type} (E : ε → Prop) (P : α → Prop) (w : ExceptT ε (StateM σ) α) : Prop :=
  ∀ s, match (w.run.run s).1 with
    | .error e => E e
    | .ok a => P a

namespace Ends

variable {σ ε α β γ : Type} {E : ε → Prop} {P : α → Prop} {Q : β → Prop}

theorem pure {a : α} (h : P a) : Ends (σ := σ) E P (Pure.pure a) := fun _ => h

theorem throw {e : ε} (h : E e) : Ends (σ := σ) E P (throw e) := fun _ => h

theorem bind {w : ExceptT ε (StateM σ) α} {f : α → ExceptT ε (StateM σ) β} (h : Ends E P w)
    (hf : ∀ a, P a → Ends E Q (f a)) : Ends E Q (w >>= f) := by
  intro s
  have first := h s
  rw [ExceptT.run_bind, StateT.run_bind]
  revert first
  rcases w.run.run s with ⟨e | a, s'⟩
  · exact id
  · exact fun ha => hf a ha s'

/-- A step without a state that is known to succeed. -/
theorem ofExcept {x : Except ε α} {a : α} (h : x = .ok a) :
    Ends (σ := σ) E (· = a) (liftM x : ExceptT ε (StateM σ) α) := by
  subst h
  exact fun _ => rfl

/-- A step that does not fail results in what it results in from some state. -/
theorem ofState (w : StateM σ α) :
    Ends E (fun a => ∃ s, (w.run s).1 = a) (liftM w : ExceptT ε (StateM σ) α) :=
  fun s => ⟨s, rfl⟩

theorem mono {E' : ε → Prop} {w : ExceptT ε (StateM σ) α} (h : Ends E P w) (le : ∀ e, E e → E' e) :
    Ends E' P w := by
  intro s
  have ends := h s
  revert ends
  cases (w.run.run s).1 with
  | error e => exact le e
  | ok a => exact id

/-- Of a list of steps one fails, or each results in something of its own kind. -/
theorem mapM {R : γ → α → Prop} {f : γ → ExceptT ε (StateM σ) α} {l : List γ}
    (h : ∀ c ∈ l, Ends E (R c) (f c)) : Ends E (List.Forall₂ R l) (l.mapM f) := by
  induction l with
  | nil => exact .pure .nil
  | cons c l ih =>
    rw [List.mapM_cons]
    refine (h c List.mem_cons_self).bind fun a ha => ?_
    refine (ih fun d hd => h d (List.mem_cons_of_mem _ hd)).bind fun as has => ?_
    exact .pure (.cons ha has)

end Ends

/-! ## Checks -/

/-- The limit of a dialect is that of its configuration, if that has one. -/
theorem Sql.DialectConfig.recursionLimit_of_resolve {c : DialectConfig} {d : DialectSettings}
    (h : c.resolve = .ok d) : d.parser.recursionLimit = c.recursionLimit.getD 50 := by
  unfold resolve at h
  split at h
  · cases h
  · obtain ⟨grammar, -, h⟩ := bind_ok_iff.mp h
    dsimp only at h
    split at h
    all_goals
      obtain ⟨lenient, -, h⟩ := bind_ok_iff.mp h
      obtain rfl := Except.ok.inj h
      rfl

namespace SourceSettings

variable {s : SourceSettings} {q : QuerySettings} {dialect : Sql.DialectSettings}

/-- The limit of a source is its own, or else the one of the settings for queries. -/
theorem recursionLimit_of_resolve (h : (s.dialectWith q).resolve = .ok dialect) :
    dialect.parser.recursionLimit = (s.dialect.bind (·.recursionLimit)).getD q.recursionLimit := by
  rw [Sql.DialectConfig.recursionLimit_of_resolve h, dialectWith]
  cases s.dialect <;> rfl

theorem validate_ok_iff : s.validate q = .ok () ↔ s.kind = "memory" ∧
    (∃ dialect, (s.dialectWith q).resolve = .ok dialect) ∧
    (∃ expressions, s.expressions = .ok expressions) ∧ (s.tables.map (·.name)).Nodup := by
  rw [← Plan.firstRepeat?_nil_eq_none_iff, ← discard_ok_iff, ← discard_ok_iff]
  unfold validate
  by_cases memory : s.kind = "memory"
  · simp only [memory, bne_self_eq_false, Bool.false_eq_true, if_false, true_and, check_ok_iff]
    cases Plan.firstRepeat? [] (s.tables.map (·.name)) with
    | none => exact and_congr_right fun _ => and_congr_right fun _ => iff_of_true rfl rfl
    | some table => exact and_congr_right fun _ => and_congr_right fun _ => iff_of_false nofun nofun
  · have other : (s.kind != "memory") = true := bne_iff_ne.mpr memory
    simp only [other, if_true, memory, false_and, iff_false]
    exact nofun

end SourceSettings

namespace Configuration

variable {c : Configuration}

theorem validate_ok_iff : c.validate = .ok () ↔
    (∃ dialect, ({ baseDialect := c.query.defaultDialect } : Sql.DialectConfig).resolve = .ok dialect) ∧
    (c.sources.map (·.name)).Nodup ∧ ∀ s ∈ c.sources, s.validate c.query = .ok () := by
  rw [← Plan.firstRepeat?_nil_eq_none_iff, ← discard_ok_iff, ← forM_ok_iff]
  refine check_ok_iff.trans (and_congr_right fun _ => ?_)
  cases Plan.firstRepeat? [] (c.sources.map (·.name)) with
  | none => exact (and_iff_right rfl).symm
  | some name => exact iff_of_false nofun nofun

end Configuration

/-! ## Making sources -/

/-- Sources of different names are kept under their names in order. -/
theorem DataSources.entries_ofSources {sources : List DataSource} (distinct : (sources.map (·.name)).Nodup) :
    (ofSources sources).entries = sources.map fun d => (d.name, d) := by
  have listed : ofSources sources = Keyed.ofList (sources.map fun d => (d.name, d)) := by
    rw [Keyed.ofList, Keyed.insertAll, List.foldl_map]
    rfl
  rw [listed]
  refine Keyed.entries_ofList_of_nodup ?_
  rw [List.map_map]
  exact distinct

section Files

variable {Files : Type} (read : FileReader (StateM Files)) (directory : String)

/-- What reading the file of a table gives, for some state of the files. -/
def TableFile.Reads (t : TableFile) (r : Except String String) : Prop :=
  ∃ files : Files, ((read (Path.join directory t.path)).run files).1 = r

/-- A table under its name, as its file holds it. -/
structure TableFile.Holds (t : TableFile) (table : String × DataTable) : Prop where
  name : table.1 = t.name
  text : ∃ text, t.Reads read directory (.ok text) ∧ DataTable.ofText text = .ok table.2

/-- The failure for the file of a table: it gives no text, or a text that is none of a table. -/
inductive TableFile.Fault (source : String) (t : TableFile) : Failure → Prop
  | unreadable {reason : String} (h : t.Reads read directory (.error reason)) :
      Fault source t (.dataSource source ("cannot read table '" ++ t.name ++ "' from " ++
        Path.join directory t.path ++ ": " ++ reason))
  | invalid {text reason : String} (h : t.Reads read directory (.ok text))
      (defect : DataTable.ofText text = .error reason) :
      Fault source t (.dataSource source ("invalid table '" ++ t.name ++ "' in " ++
        Path.join directory t.path ++ ": " ++ reason))

/-- A source made as its settings say, with the tables that its files hold. -/
structure SourceSettings.Makes (s : SourceSettings) (q : QuerySettings) (d : DataSource) : Prop where
  dialect : (s.dialectWith q).resolve = .ok d.dialect
  recursionLimit : d.dialect.parser.recursionLimit =
    (s.dialect.bind (·.recursionLimit)).getD q.recursionLimit
  expressions : s.expressions = .ok d.expressions
  inMemory : ∃ tables, List.Forall₂ (TableFile.Holds read directory) s.tables tables ∧
    d = .inMemory s.name d.dialect d.expressions (.ofList tables) s.datasets

/-- What the nodes of a run share, with one source for each entry of a configuration under its name. -/
structure Configuration.Makes (c : Configuration) (scope : RunScope) : Prop where
  distinct : (c.sources.map (·.name)).Nodup
  names : scope.sources.keys = c.sources.map (·.name)
  source : ∀ s ∈ c.sources, ∃ d, scope.sources.get? s.name = some d ∧ s.Makes read directory c.query d
  strict : scope.strict = c.query.strictMacros

variable {read directory}

theorem SourceSettings.Makes.name {s : SourceSettings} {q : QuerySettings} {d : DataSource}
    (made : s.Makes read directory q d) : d.name = s.name := by
  obtain ⟨tables, -, same⟩ := made.inMemory
  rw [same]
  rfl

theorem SourceSettings.ends_readTable (s : SourceSettings) (t : TableFile) :
    Ends (t.Fault read directory s.name) (t.Holds read directory) (s.readTable read directory t) := by
  refine (Ends.ofState (read (Path.join directory t.path))).bind fun r reads => ?_
  cases r with
  | error reason => exact .throw (.unreadable reads)
  | ok text =>
    dsimp only
    cases table : DataTable.ofText text with
    | error reason => exact .throw (.invalid reads table)
    | ok table' => exact .pure ⟨rfl, text, reads, table⟩

/-- A source that passes its check is made unless the file of one of its tables fails. -/
theorem SourceSettings.ends_load {s : SourceSettings} {q : QuerySettings} (valid : s.validate q = .ok ()) :
    Ends (fun e => ∃ t ∈ s.tables, t.Fault read directory s.name e) (s.Makes read directory q)
      (s.load read directory q) := by
  obtain ⟨-, ⟨dialect, resolved⟩, ⟨expressions, known⟩, -⟩ := validate_ok_iff.mp valid
  refine (Ends.ofExcept resolved).bind ?_
  rintro _ rfl
  refine (Ends.ofExcept known).bind ?_
  rintro _ rfl
  refine (Ends.mapM fun t ht => (s.ends_readTable t).mono fun e fault => ⟨t, ht, fault⟩).bind
    fun tables held => ?_
  exact .pure ⟨resolved, recursionLimit_of_resolve resolved, known, tables, held, rfl⟩

/-- Sources that are made of the entries of a configuration are found under the names of the entries. -/
theorem Configuration.makes_ofSources {c : Configuration} {sources : List DataSource}
    (distinct : (c.sources.map (·.name)).Nodup)
    (made : List.Forall₂ (SourceSettings.Makes read directory · c.query) c.sources sources) :
    c.Makes read directory { sources := .ofSources sources, strict := c.query.strictMacros } := by
  have names : sources.map (·.name) = c.sources.map (·.name) :=
    Outcome.map_eq_of_forall₂ made fun _ _ h => h.name
  have entries := DataSources.entries_ofSources (names ▸ distinct)
  have keys : (DataSources.ofSources sources).keys = c.sources.map (·.name) := by
    rw [Keyed.keys, entries, List.map_map, ← names]
    rfl
  refine ⟨distinct, keys, fun s hs => ?_, rfl⟩
  obtain ⟨d, hd, made⟩ := Outcome.exists_mem_of_forall₂ made hs
  refine ⟨d, (Keyed.get?_eq_some_iff (keys ▸ distinct)).mpr ?_, made⟩
  rw [entries, ← made.name]
  exact List.mem_map_of_mem hd

/-- **Making a checked configuration.** Whatever the files are and become, a configuration that passes
its check either fails for the file of a table of one of its sources, which gives no text or none of a
table, or is made into what the nodes of a run share: one source for each entry and no other, with the
dialect that its settings resolve to, the limit of its own or else that for all queries, the time
format it asks for, and its tables. -/
theorem load_of_valid {c : Configuration} (valid : c.validate = .ok ()) (read : FileReader (StateM Files))
    (directory : String) (files : Files) :
    (∃ s ∈ c.sources, ∃ t ∈ s.tables, ∃ e, t.Fault read directory s.name e ∧
      ((c.load read directory).run.run files).1 = .error e) ∨
    ∃ scope, ((c.load read directory).run.run files).1 = .ok scope ∧ c.Makes read directory scope := by
  obtain ⟨-, distinct, checked⟩ := Configuration.validate_ok_iff.mp valid
  have ends : Ends (fun e => ∃ s ∈ c.sources, ∃ t ∈ s.tables, t.Fault read directory s.name e)
      (c.Makes read directory) (c.load read directory) := by
    refine (Ends.mapM fun s hs => ?_).bind fun sources made =>
      .pure (Configuration.makes_ofSources distinct made)
    exact (SourceSettings.ends_load (checked s hs)).mono fun e fault => ⟨s, hs, fault⟩
  have ended := ends files
  revert ended
  cases ((c.load read directory).run.run files).1 with
  | error e => exact fun ⟨s, hs, t, ht, fault⟩ => .inl ⟨s, hs, t, ht, e, fault, rfl⟩
  | ok scope => exact fun made => .inr ⟨scope, rfl, made⟩

end Files

/-- A source with a dialect and a limit of its own, and one without. -/
def countsAndVisits : Configuration where
  query := { recursionLimit := 20 }
  sources := [
    { name := "counts", dialect := some { baseDialect := "mysql", recursionLimit := some 7 }
      tables := [⟨"daily", "daily.json"⟩] },
    { name := "visits", builder := "pinot", timeFormat := some "1:HOURS:EPOCH" }]

/-- Every file holds a table without columns until one has been read. -/
def readOnce : FileReader (StateM Bool) := fun _ read =>
  (if read then .error "gone" else .ok "\x7b\"columns\": [], \"column_types\": []\x7d", true)

theorem load_of_valid_countsAndVisits :
    countsAndVisits.validate = .ok () ∧
    ∃ scope, ((countsAndVisits.load readOnce "plans").run.run false).1 = .ok scope ∧
      scope.sources.keys = ["counts", "visits"] ∧
      ∃ d, scope.sources.get? "visits" = some d ∧ d.dialect.parser.recursionLimit = 20 := by
  obtain ⟨⟨⟩, valid⟩ := Outcome.exists_ok (x := countsAndVisits.validate) (by decide +kernel)
  have isOk : ((countsAndVisits.load readOnce "plans").run.run false).1.isOk = true := by
    decide +kernel
  refine ⟨valid, ?_⟩
  obtain ⟨_, -, _, -, e, -, failed⟩ | ⟨scope, loaded, made⟩ :=
    load_of_valid valid readOnce "plans" false
  · rw [failed] at isOk
    cases isOk
  · obtain ⟨d, found, same⟩ := made.source countsAndVisits.sources[1] (List.getElem_mem _)
    exact ⟨scope, loaded, made.names, d, found, same.recursionLimit⟩

end DetectionPlan
