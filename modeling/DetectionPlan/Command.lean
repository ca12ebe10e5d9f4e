/-
The command that runs a plan: what its arguments mean, and what it prints. It
reads the configuration and makes the data sources before it reads the plan, so
that is the order in which their failures are noticed.
-/
import DetectionPlan.Calendar.Reading
import DetectionPlan.Json.Writer
import DetectionPlan.Settings.Configuration

namespace DetectionPlan

/-! ## Arguments -/

/-- The arguments of the command. -/
structure Arguments where
  plan : String
  config : Option String
  start : String
  stop : String
  dryRun : Bool
  parallel : Bool
  maxParallelism : Option Nat
  strictMacros : Bool
  pretty : Bool
deriving DecidableEq, Repr

/-- What arguments lead to when they do not ask for a plan. -/
inductive Aside where
  | help
  | version
  /-- They make no sense. -/
  | usage
deriving DecidableEq, Repr

/-- An option of the command as its help describes it. -/
structure OptionHelp where
  name : String
  /-- What the value of the option is called; none for one that stands alone. -/
  value : Option String := none
  meaning : String

namespace Arguments

/-- The options that ask for a plan, in the order of the help. -/
def options : List OptionHelp := [
  { name := "plan", value := some "PLAN"
    meaning := "Plan file (.json, anything else is read as TOML)" },
  { name := "config", value := some "CONFIG"
    meaning := "Executor config declaring datasources (TOML) [env: " ++
      Setting.config.variable ++ "=]" },
  { name := "start", value := some "START"
    meaning := "Detection interval start: RFC 3339 or epoch millis" },
  { name := "end", value := some "END"
    meaning := "Detection interval end (exclusive): RFC 3339 or epoch millis" },
  { name := "dry-run", meaning := "Compile only and print the execution order" },
  { name := "parallel", meaning := "Run independent nodes concurrently" },
  { name := "max-parallelism", value := some "MAX_PARALLELISM"
    meaning := "Thread pool size for --parallel (0 = one per core)" },
  { name := "strict-macros", meaning := "Fail fetches whose macros cannot be expanded cleanly" },
  { name := "pretty", meaning := "Pretty-print the JSON output" }]

/-- How the command is called. -/
def usageText : String :=
  "Usage: tripwire-plan [OPTIONS] --plan <PLAN> --start <START> --end <END>"

/-- The name and version of the command. -/
def versionText : String := "tripwire-plan 0.1.0"

/-- What the command does and how it is called. -/
def helpText : String :=
  let line (option meaning : String) : String :=
    "  " ++ option ++ "".pushn ' ' (41 - option.length) ++ meaning
  let ofOption (o : OptionHelp) : String :=
    line ("    --" ++ o.name ++ ((o.value.map fun v => " <" ++ v ++ ">").getD "")) o.meaning
  String.intercalate "\n" <|
    ["Compile and execute an anomaly detection plan", "", usageText, "", "Options:"] ++
    options.map ofOption ++ [line "-h, --help" "Print help", line "-V, --version" "Print version"]

/-- Whether an argument asks for the help or the version. The letters that stand
for them may have others behind them. -/
def aside? (arg : String) : Option Aside :=
  match arg.toList with
  | '-' :: 'h' :: _ => some .help
  | '-' :: 'V' :: _ => some .version
  | _ => if arg == "--help" then some .help else if arg == "--version" then some .version else none

/-- The name of an option and the value after an equals sign. -/
def option? (arg : String) : Option (String × Option String) :=
  match arg.toList with
  | '-' :: '-' :: rest =>
    match cutAt? ['='] rest with
    | some (name, value) => some (String.ofList name, some (String.ofList value))
    | none => some (String.ofList rest, none)
  | _ => none

/-- Whether an argument can be the value of the option before it. -/
def isValue (arg : String) : Bool := arg == "-" || arg.toList.head? != some '-'

/-- Whether an option takes a value: files have names, and a count is a number. -/
def accepts (name value : String) : Bool :=
  if name == "plan" || name == "config" then !value.isEmpty
  else if name == "max-parallelism" then (readSize? value).isSome
  else true

/-- Options with their values. Unknown or repeated options, values that are
missing or not taken, and anything beside options make no sense. What comes
first decides. -/
def collect (given : Keyed String String) : List String → Except Aside (Keyed String String)
  | [] => .ok given
  | "--" :: rest => if rest.isEmpty then .ok given else .error .usage
  | arg :: rest =>
    match aside? arg, option? arg with
    | some aside, _ => .error aside
    | none, none => .error .usage
    | none, some (name, attached) =>
      let put (value : String) : Except Aside (Keyed String String) :=
        if !given.contains name && accepts name value then .ok (given.insert name value)
        else .error .usage
      match (options.find? (·.name == name)).map (·.value.isSome), attached with
      | some false, none => do collect (← put "") rest
      | some true, some value => do collect (← put value) rest
      | some true, none =>
        match rest with
        | value :: rest => if isValue value then do collect (← put value) rest else .error .usage
        | [] => .error .usage
      | _, _ => .error .usage

/-- The arguments that options stand for; none if one is missing. The
environment may name the configuration. -/
def ofOptions? (env : Environment) (given : Keyed String String) : Option Arguments := do
  let config := (given.get? "config").orElse fun _ => env.get? Setting.config.variable
  if config.any (·.isEmpty) then failure
  return {
    plan := ← given.get? "plan"
    config
    start := ← given.get? "start"
    stop := ← given.get? "end"
    dryRun := given.contains "dry-run"
    parallel := given.contains "parallel"
    maxParallelism := (given.get? "max-parallelism").bind readSize?
    strictMacros := given.contains "strict-macros"
    pretty := given.contains "pretty" }

/-- Read the arguments. -/
def parse (env : Environment) (args : List String) : Except Aside Arguments := do
  match ofOptions? env (← collect .empty args) with
  | some a => return a
  | none => throw .usage

end Arguments

/-! ## Running -/

/-- What the command could not do, and why if more is known. -/
structure Mishap where
  attempt : String
  cause : Option Failure := none

/-- How the command ends. -/
inductive Ending where
  | aside (a : Aside)
  | done (output : Json) (pretty : Bool)
  | failed (output : Option Json) (pretty : Bool) (mishap : Mishap)

namespace Ending

/-- The exit code. -/
def exitCode : Ending → UInt8
  | aside .usage => 2
  | aside _ | done .. => 0
  | failed .. => 1

/-- The document that is printed. -/
def output? : Ending → Option Json
  | aside _ => none
  | done j _ => some j
  | failed j _ _ => j

/-- The text that is printed. -/
def printed? : Ending → Option String
  | aside .help => some Arguments.helpText
  | aside .version => some Arguments.versionText
  | aside .usage => none
  | done j pretty => some (layout pretty j)
  | failed j pretty _ => j.map (layout pretty)
where
  layout (pretty : Bool) (j : Json) : String := if pretty then j.pretty else j.text

/-- What is said about a failure. -/
def mishap? : Ending → Option Mishap
  | failed _ _ m => some m
  | _ => none

end Ending

/-- What a compiled plan looks like without being run. -/
def CompiledPlan.outline (p : CompiledPlan) : Json :=
  let names (nodes : List CompiledNode) : Json := .array (nodes.map fun n => .string n.spec.name)
  .object [("order", names p.order), ("levels", .array (p.levels.map names))]

/-- Everything that a run leaves behind. -/
def Execution.toJson (x : Execution) : Json :=
  .object [("report", x.report.toJson),
    ("results", .object (x.results.entries.map fun e => (e.1.text, e.2.toJson)))]

namespace Command

/-- Work of the command, which ends with the first mishap. -/
abbrev Work (m : Type → Type) := ExceptT Mishap m

/-- Name the attempt in which a failure happens. -/
def attempting [Monad m] (attempt : String) (work : ExceptT Failure m α) : Work m α :=
  ExceptT.adapt (fun e => ⟨attempt, some e⟩) work

/-- An instant in milliseconds or as date and time. -/
def readInstant [Monad m] (text : String) : Work m Int :=
  match (readInt64? text).orElse fun _ => Calendar.readInstant? text with
  | some t => return t
  | none => throw ⟨"'" ++ text ++ "' is neither epoch millis nor RFC 3339", none⟩

/-- The window that the arguments name, which must not be empty. -/
def readWindow [Monad m] (a : Arguments) : Work m Interval := do
  let start ← readInstant a.start
  let stop ← readInstant a.stop
  if h : stop ≤ start then throw ⟨"--end must be after --start", none⟩
  else return ⟨start, stop, by omega⟩

/-- The configuration with what the arguments set in its place. -/
def adjust (a : Arguments) (c : Configuration) : Configuration :=
  { c with
    run := {
      parallel := a.parallel || c.run.parallel
      maxParallelism := a.maxParallelism.getD c.run.maxParallelism }
    query := { c.query with strictMacros := a.strictMacros || c.query.strictMacros } }

/-- The configuration, and the directory that its tables are in. -/
def readConfiguration [Monad m] (read : FileReader m) (env : Environment) (a : Arguments) :
    Work m (Configuration × String) :=
  match a.config with
  | none => return (adjust a (.ofEngine (ProfileSettings.ofEnvironment env).engine), "")
  | some path =>
    attempting ("loading config " ++ path) do
      match ← read path with
      | .error reason => throw (.unreadable reason)
      | .ok text => return (adjust a (← Configuration.parse env text), Path.parent path)

/-- The plan of a file. -/
def readPlan [Monad m] (read : FileReader m) (path : String) : ExceptT Failure m Plan := do
  match ← read path with
  | .error reason => throw (.unreadable reason)
  | .ok text => Plan.ofFile path text

/-- Make ready what the arguments ask for. -/
def prepare [Monad m] (read : FileReader m) (env : Environment) (a : Arguments) :
    Work m Execution := do
  let interval ← readWindow a
  let (c, directory) ← readConfiguration read env a
  let scope ← attempting "building datasources" (c.load read directory)
  let plan ← attempting ("reading plan " ++ a.plan) (readPlan read a.plan)
  let plan ← attempting "compiling plan" (Plan.compile .builtin plan.nodes)
  return { plan, interval, scope, settings := c.run }

/-- Run what has been made ready, or only outline it. -/
def finish (a : Arguments) (x : Execution) : Ending :=
  if a.dryRun then .done x.plan.outline a.pretty
  else
    match x.execute with
    | (.ok _, x) => .done x.toJson a.pretty
    | (.error e, x) => .failed (some x.toJson) a.pretty ⟨"executing plan", some e⟩

/-- Run the command. -/
def run [Monad m] (read : FileReader m) (env : Environment) (args : List String) : m Ending :=
  match Arguments.parse env args with
  | .error aside => return .aside aside
  | .ok a => do
    match ← (prepare read env a).run with
    | .ok x => return finish a x
    | .error mishap => return .failed none a.pretty mishap

end Command

end DetectionPlan
