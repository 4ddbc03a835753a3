import RecordRules.Command.Arguments
import RecordRules.Command.Run
import RecordRules.Config
import RecordRules.Json.Write

/-!
The program: it loads its configuration, runs the command that its arguments give, and
prints the answer.
-/

namespace RecordRules.Main

def usage : String := "\n".intercalate [
  "Usage: record-rules [-l LEVEL] COMMAND",
  "",
  "  eval -r RULE... -d RECORD [-t]",
  "  resolve -p PATH -d RECORD",
  "  compare --left RECORD --right RECORD",
  "  schema -d RECORD",
  "  explain -r RULE",
  "",
  "A record is a JSON object, or @ and the name of a file that holds one."]

/-- The variables that have a say in the configuration. -/
def variableNames : List String := [
  "RULES_ENV", "RULES_SERVICE_NAME", "RULES_ENVIRONMENT",
  "RULES_OBSERVABILITY__LOG_LEVEL", "RULES_OBSERVABILITY__JSON_LOGS",
  "RULES_ENGINE__STRING_ORDERING", "RULES_ENGINE__MAX_NESTING_DEPTH", "RULES_ENGINE__DEBUG_TRACE"]

/-- The text of a file, if it can be read. -/
def readFile? (name : String) : IO (Option String) :=
  try return some (← IO.FS.readFile name) catch _ => return none

/-- The texts of those of the files that can be read. -/
def readFiles (names : List String) : IO (List (String × String)) :=
  names.filterMapM fun name => return (← readFile? name).map fun text => (name, text)

def loadConfig : IO Config := do
  let given ← variableNames.filterMapM fun name =>
    return (← IO.getEnv name).map fun value => (name, value)
  let directory := (← IO.getEnv "CONFIG_DIR").getD "config"
  let environment := Config.environmentOf given
  let service := "record-rules"
  let names := ["default", environment, service].map (· ++ ".toml")
  let texts ← readFiles (names.map fun name => directory ++ "/" ++ name)
  let file (name : String) := texts.lookup (directory ++ "/" ++ name)
  match Config.load service environment file given with
  | some config => return config
  | none =>
    IO.eprintln "Failed to load config, using defaults"
    return {}

def run (command : Command) : IO UInt32 := do
  match Engine.ofSettings (← loadConfig).engine with
  | .error e =>
    IO.eprintln e.message
    return 1
  | .ok engine =>
    let texts ← readFiles command.files
    match (command.run (texts.lookup ·) engine).1 with
    | .ok answer =>
      IO.println answer.text
      return 0
    | .error failure =>
      IO.eprintln failure.message
      return 1

end RecordRules.Main

def main (args : List String) : IO UInt32 := do
  match RecordRules.Invocation.ofArguments args with
  | .ok invocation => RecordRules.Main.run invocation.command
  | .error .help =>
    IO.println RecordRules.Main.usage
    return 0
  | .error .version =>
    IO.println "record-rules 0.1.0"
    return 0
  | .error fault =>
    IO.eprintln (fault.name ++ "\n\n" ++ RecordRules.Main.usage)
    return 2
