/-
Two ways of loading the settings of a run from the environment: an empty
settings text that the environment overrides, and the settings of the engine.
Where no profile is chosen both read the same variables. They read counts alike,
but the word "on" sets a flag for the engine only, and an empty name of a
dialect is no name for the engine and the name of no dialect for the override.
`loadsAlike_iff` says that this is all they differ in.
-/
import DetectionPlan.Proofs.Outcome
import DetectionPlan.Settings.Configuration

namespace DetectionPlan

namespace Environment

/-- A flag is set by the word "on", in any case. -/
def SaysOn (env : Environment) (s : Setting) : Prop :=
  ∃ text, env.get? s.variable = some text ∧ asciiLower text = "on"

theorem profiled?_default (env : Environment) (s : Setting) :
    env.profiled? "" s = (env.get? s.variable).filter (!·.isEmpty) := by
  simp [profiled?, nonEmpty?]

theorem filter_nonEmpty {text : String} (h : text ≠ "") :
    (some text).filter (!·.isEmpty) = some text := by
  simp [Option.filter_some, h]

/-- The two lists of words for a set flag differ in one. -/
theorem flag_eq_iff (env : Environment) (s : Setting) :
    ((env.get? s.variable).map (isOneOf ["1", "true", "yes"])).getD false =
        ((env.profiled? "" s).map (isOneOf ["1", "true", "yes", "on"])).getD false ↔
      ¬ env.SaysOn s := by
  rw [profiled?_default, SaysOn]
  cases env.get? s.variable with
  | none => simp
  | some text =>
    by_cases empty : text = ""
    · subst empty
      have : asciiLower "" = "" := by decide +kernel
      simp [isOneOf, this, Option.filter_some]
    · rw [filter_nonEmpty empty]
      by_cases on : asciiLower text = "on" <;> simp [isOneOf, on]

/-- An empty text is no count, with or without being dropped first. -/
theorem count_eq (env : Environment) (s : Setting) (otherwise : Nat) :
    ((env.get? s.variable).bind readSize?).getD otherwise =
      ((env.profiled? "" s).bind readSize?).getD otherwise := by
  rw [profiled?_default]
  cases env.get? s.variable with
  | none => rfl
  | some text =>
    by_cases empty : text = ""
    · subst empty
      rfl
    · rw [filter_nonEmpty empty]

theorem text_eq_iff (env : Environment) (s : Setting) {otherwise : String} (h : otherwise ≠ "") :
    (env.get? s.variable).getD otherwise = (env.profiled? "" s).getD otherwise ↔
      env.get? s.variable ≠ some "" := by
  rw [profiled?_default]
  cases env.get? s.variable with
  | none => simp
  | some text =>
    by_cases empty : text = ""
    · subst empty
      simpa [Option.filter_some] using Ne.symm h
    · simp [filter_nonEmpty empty, empty]

end Environment

/-- A base dialect alone is resolved when it is known. -/
theorem Sql.DialectConfig.resolve_base_ok_iff (name : String) :
    (∃ d, ({ baseDialect := name } : DialectConfig).resolve = .ok d) ↔
      (baseDialect? name).isSome := by
  cases h : baseDialect? name with
  | none => simp [resolve, h]
  | some base => simp [resolve, h, grammarOr, bind, Except.bind]

namespace Configuration

/-- Of a configuration without sources only the dialect is checked. -/
theorem validate_sourceless {c : Configuration} (h : c.sources = []) :
    c.validate = .ok () ↔ (Sql.baseDialect? c.query.defaultDialect).isSome := by
  rw [← Sql.DialectConfig.resolve_base_ok_iff]
  cases resolved : ({ baseDialect := c.query.defaultDialect } : Sql.DialectConfig).resolve with
  | error e => simp [validate, resolved, discard, bind, Except.bind, Functor.mapConst, Except.map]
  | ok d =>
    simp [validate, resolved, h, Plan.firstRepeat?, discard, bind, Except.bind, pure, Except.pure,
      Functor.mapConst, Except.map]

/-- An empty settings text leaves all to the environment. -/
theorem parse_empty_ok_iff (env : Environment) (c : Configuration) :
    parse env "" = .ok c ↔ c = ({} : Configuration).overridden env ∧ c.validate = .ok () := by
  have read : (Toml.parse "").map shape.decode = some (.ok {}) := by rfl
  simp only [parse, read, Outcome.bind_ok_iff, Outcome.pure_ok_iff, Except.ok.injEq]
  constructor
  · rintro ⟨_, rfl, _, valid, rfl⟩
    exact ⟨rfl, valid⟩
  · rintro ⟨rfl, valid⟩
    exact ⟨_, rfl, _, valid, rfl⟩

/-- What the environment says to the engine, as a configuration. -/
def ofEnvironment (env : Environment) : Configuration :=
  ofEngine (ProfileSettings.ofEnvironment env).engine

theorem engine_of_noProfile {env : Environment} (h : env.get? Setting.profile.variable = none) :
    (ProfileSettings.ofEnvironment env).engine = .ofEnvironment env "" := by
  have : toUpperCase "" = "" := by rfl
  simp [ProfileSettings.ofEnvironment, ProfileSettings.ofProfile, h, this]

/-- The override of nothing and the engine's settings differ in the two flags
and the dialect at most. -/
theorem overridden_eq_iff {env : Environment} (h : env.get? Setting.profile.variable = none) :
    ({} : Configuration).overridden env = ofEnvironment env ↔
      (¬ env.SaysOn .parallel ∧ ¬ env.SaysOn .strictMacros) ∧
        env.get? Setting.defaultDialect.variable ≠ some "" := by
  have dialect := env.text_eq_iff .defaultDialect (show "ansi" ≠ "" by decide)
  simp only [ofEnvironment, engine_of_noProfile h, ofEngine, overridden,
    EngineSettings.ofEnvironment, Environment.count_eq, Configuration.mk.injEq, RunSettings.mk.injEq,
    QuerySettings.mk.injEq, Environment.flag_eq_iff, dialect]
  tauto

end Configuration

/-- The two ways of loading accept the environment alike, and then load the same
settings for nodes and for queries. -/
def Environment.LoadsAlike (env : Environment) : Prop :=
  ((∃ c, Configuration.parse env "" = .ok c) ↔
      (Configuration.ofEnvironment env).validate = .ok ()) ∧
    ∀ c, Configuration.parse env "" = .ok c →
      c.run = (Configuration.ofEnvironment env).run ∧
      c.query = (Configuration.ofEnvironment env).query

/-- As neither of them has sources, they are then the same as a whole. -/
theorem Environment.loadsAlike_iff_overridden (env : Environment) :
    env.LoadsAlike ↔
      ((({} : Configuration).overridden env).validate = .ok () ↔
        (Configuration.ofEnvironment env).validate = .ok ()) ∧
      ((({} : Configuration).overridden env).validate = .ok () →
        ({} : Configuration).overridden env = Configuration.ofEnvironment env) := by
  simp only [LoadsAlike, Configuration.parse_empty_ok_iff, exists_eq_left, and_imp, forall_eq]
  refine and_congr_right fun _ => forall_congr' fun _ => ⟨fun ⟨run, query⟩ => ?_, fun e => ?_⟩
  · exact (Configuration.mk.injEq ..).mpr ⟨run, query, rfl⟩
  · rw [e]
    exact ⟨rfl, rfl⟩

/-- Without a profile the two ways of loading agree unless the name of the
dialect is set to nothing, or it is known and one of the flags says "on". -/
theorem loadsAlike_iff {env : Environment} (h : env.get? Setting.profile.variable = none) :
    env.LoadsAlike ↔
      env.get? Setting.defaultDialect.variable ≠ some "" ∧
        ((Sql.baseDialect? ((env.get? Setting.defaultDialect.variable).getD "ansi")).isSome →
          ¬ env.SaysOn .parallel ∧ ¬ env.SaysOn .strictMacros) := by
  have overriding : (({} : Configuration).overridden env).validate = .ok () ↔
      (Sql.baseDialect? ((env.get? Setting.defaultDialect.variable).getD "ansi")).isSome :=
    Configuration.validate_sourceless rfl
  have engine : (Configuration.ofEnvironment env).validate = .ok () ↔
      (Sql.baseDialect? ((env.profiled? "" .defaultDialect).getD "ansi")).isSome := by
    rw [Configuration.validate_sourceless rfl, Configuration.ofEnvironment,
      Configuration.engine_of_noProfile h]
    rfl
  rw [env.loadsAlike_iff_overridden, overriding, engine, Configuration.overridden_eq_iff h]
  by_cases empty : env.get? Setting.defaultDialect.variable = some ""
  · -- the override asks for a dialect without a name, the engine for the standard one
    have unset : env.profiled? "" .defaultDialect = none := by
      rw [Environment.profiled?_default, empty]
      rfl
    have unknown : Sql.baseDialect? "" = none := by decide +kernel
    have known : (Sql.baseDialect? "ansi").isSome := by decide +kernel
    simp [empty, unset, unknown, known]
  · rw [← (env.text_eq_iff .defaultDialect (show "ansi" ≠ "" by decide)).mpr empty]
    simp [empty]

/-- A flag that says "on", in whatever case, with the standard dialect. -/
theorem loadsAlike_iff_on :
    let env : Environment := .ofList [("TRIPWIRE_PARALLEL", "On"), ("TRIPWIRE_STRICT_MACROS", "")]
    env.get? Setting.profile.variable = none ∧ ¬ env.LoadsAlike := by
  intro env
  have unset : env.get? Setting.profile.variable = none := by decide +kernel
  have dialect : (env.get? Setting.defaultDialect.variable).getD "ansi" = "ansi" := by decide +kernel
  have known : (Sql.baseDialect? "ansi").isSome := by decide +kernel
  refine ⟨unset, fun alike => ?_⟩
  obtain ⟨-, silent⟩ := (loadsAlike_iff unset).mp alike
  rw [dialect] at silent
  exact (silent known).1 ⟨"On", by decide +kernel, by decide +kernel⟩

end DetectionPlan
