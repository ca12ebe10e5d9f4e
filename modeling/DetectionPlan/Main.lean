/-
The command line: files, the environment and the standard streams around
`Command.run`.
-/
import DetectionPlan.Command
import DetectionPlan.Settings.EnvFile

namespace DetectionPlan.Main

/-- Read a file. -/
def readFile : FileReader IO := fun path => do
  try
    return .ok (← IO.FS.readFile path)
  catch
    | .noFileOrDirectory .. => return .error "No such file or directory (os error 2)"
    | e => return .error (toString e)

/-- The variables of some names. -/
def environmentOf (names : List String) : IO Environment :=
  names.foldlM (fun env name => do
    match ← IO.getEnv name with
    | some text => return env.insert name text
    | none => return env) .empty

/-- The names that a text may mention. -/
def mentioned (text : String) : List String :=
  let isNameChar (c : Char) : Bool := c.isAlphanum || c == '_' || c == '.'
  (text.map fun c => if isNameChar c then c else ' ').splitOn " " |>.filter (!·.isEmpty)

/-- The settings that have variables. -/
def settings : List Setting :=
  [.profile, .strictMacros, .parallel, .maxParallelism, .defaultDialect, .recursionLimit, .config]

/-- The environment with the variables of the file `.env` added. -/
def environment : IO Environment := do
  let text := (← readFile ".env").toOption.getD ""
  let common := settings.map Setting.variable
  let env := (← environmentOf (common ++ mentioned text)).withFile text
  let profile := toUpperCase ((env.get? Setting.profile.variable).getD "")
  let own ← environmentOf (common.map fun name => profile ++ "_" ++ name)
  return env.insertAll own.entries

/-- What is said about a mishap. -/
def report (m : Mishap) : IO Unit := do
  IO.eprintln ("Error: " ++ m.attempt)
  if let some cause := m.cause then
    IO.eprintln ("\nCaused by:\n    " ++ cause.message)

end DetectionPlan.Main

open DetectionPlan in
/-- Run a plan. -/
def main (args : List String) : IO UInt32 := do
  let ending ← Command.run Main.readFile (← Main.environment) args
  if let some text := ending.printed? then IO.println text
  if let some mishap := ending.mishap? then Main.report mishap
  if let .aside .usage := ending then IO.eprintln Arguments.usageText
  return ending.exitCode.toUInt32
