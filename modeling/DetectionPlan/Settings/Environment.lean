/-
Settings from the variables of the environment. A profile, when one is chosen,
has variables of its own that go before the common ones; an empty variable
counts as none.
-/
import DetectionPlan.Json.Basic
import DetectionPlan.Keyed
import DetectionPlan.Text.Casing
import DetectionPlan.Text.Number

namespace DetectionPlan

/-- The variables of the environment. -/
abbrev Environment := Keyed String String

/-- What can be set by a variable. -/
inductive Setting where
  | profile | strictMacros | parallel | maxParallelism | defaultDialect | recursionLimit | config
deriving DecidableEq, Repr

/-- The variable of a setting. -/
def Setting.variable (s : Setting) : String := "TRIPWIRE_" ++ match s with
  | profile => "PROFILE"
  | strictMacros => "STRICT_MACROS"
  | parallel => "PARALLEL"
  | maxParallelism => "MAX_PARALLELISM"
  | defaultDialect => "DEFAULT_DIALECT"
  | recursionLimit => "RECURSION_LIMIT"
  | config => "CONFIG"

namespace Environment

/-- The text of a variable that is not empty. -/
def nonEmpty? (env : Environment) (name : String) : Option String :=
  (env.get? name).filter (!·.isEmpty)

/-- The text of a setting under a profile: that of the profile's own variable,
or else that of the common one. -/
def profiled? (env : Environment) (profile : String) (s : Setting) : Option String :=
  if profile.isEmpty then env.nonEmpty? s.variable
  else (env.nonEmpty? (profile ++ "_" ++ s.variable)).orElse fun _ => env.nonEmpty? s.variable

end Environment

/-- Whether a text is one of some words, in any case. -/
def isOneOf (words : List String) (text : String) : Bool := words.contains (asciiLower text)

/-- What plans run with unless something else is said. -/
structure EngineSettings where
  strictMacros : Bool := false
  parallel : Bool := false
  maxParallelism : Nat := 0
  defaultDialect : String := "ansi"
  recursionLimit : Nat := 50
deriving DecidableEq, Repr

/-- The settings of a profile. -/
structure ProfileSettings where
  profile : String
  engine : EngineSettings
deriving DecidableEq, Repr

namespace EngineSettings

/-- The settings in the environment. Text that is no count is ignored. -/
def ofEnvironment (env : Environment) (profile : String) : EngineSettings :=
  let standard : EngineSettings := {}
  let flag (s : Setting) (otherwise : Bool) : Bool :=
    ((env.profiled? profile s).map (isOneOf ["1", "true", "yes", "on"])).getD otherwise
  let count (s : Setting) (otherwise : Nat) : Nat :=
    ((env.profiled? profile s).bind readSize?).getD otherwise
  { strictMacros := flag .strictMacros standard.strictMacros
    parallel := flag .parallel standard.parallel
    maxParallelism := count .maxParallelism standard.maxParallelism
    defaultDialect := (env.profiled? profile .defaultDialect).getD standard.defaultDialect
    recursionLimit := count .recursionLimit standard.recursionLimit }

def toJson (e : EngineSettings) : Json :=
  .object [("strict_macros", .bool e.strictMacros), ("parallel", .bool e.parallel),
    ("max_parallelism", .int e.maxParallelism), ("default_dialect", .string e.defaultDialect),
    ("recursion_limit", .int e.recursionLimit)]

end EngineSettings

namespace ProfileSettings

/-- The settings of a profile, whose name is taken in capitals. -/
def ofProfile (env : Environment) (profile : String) : ProfileSettings :=
  let profile := toUpperCase profile
  { profile, engine := .ofEnvironment env profile }

/-- The settings of the profile that the environment chooses. -/
def ofEnvironment (env : Environment) : ProfileSettings :=
  ofProfile env (toUpperCase ((env.get? Setting.profile.variable).getD ""))

/-- The profile as messages call it. -/
def label (p : ProfileSettings) : String := if p.profile.isEmpty then "default" else p.profile

def toJson (p : ProfileSettings) : Json :=
  .object [("profile", .string p.profile), ("engine", p.engine.toJson)]

end ProfileSettings

end DetectionPlan
