import RecordRules.Config.Toml
import RecordRules.Engine.Options

/-!
The configuration of a service, in layers of which the later ones count: the names of the
service and its environment, the common file, the file of the environment, the file of the
service, and variables. A file that is missing says nothing. The variables that count are
those whose names start with `RULES_`; two underscores part the names on the way to a
setting.
-/

namespace RecordRules

structure Config where
  serviceName : String := ""
  environment : String := ""
  logLevel : String := "info"
  jsonLogs : Bool := false
  engine : Engine.Settings := {}
deriving DecidableEq, Repr

namespace Config

def isProduction (c : Config) : Bool := c.environment == "production"

/-- The setting under a name, read in some way; `default` where there is none. Nothing if
there is one that cannot be read so. -/
def field {α : Type} (es : List (String × Setting)) (name : String) (default : α)
    (readAs : Scalar → Option α) : Option α :=
  match es.lookup name with
  | none => some default
  | some (.scalar s) => readAs s
  | some (.table _) => none

/-- The table under a name, empty where there is nothing. -/
def section? (es : List (String × Setting)) (name : String) : Option (List (String × Setting)) :=
  match es.lookup name with
  | none => some []
  | some (.table es) => some es
  | some (.scalar _) => none

def ofEntries (es : List (String × Setting)) : Option Config := do
  let defaults : Config := {}
  let observability ← section? es "observability"
  let engine ← section? es "engine"
  let e := defaults.engine
  return {
    serviceName := ← field es "service_name" defaults.serviceName (some ·.text)
    environment := ← field es "environment" defaults.environment (some ·.text)
    logLevel := ← field observability "log_level" defaults.logLevel (some ·.text)
    jsonLogs := ← field observability "json_logs" defaults.jsonLogs Scalar.truth?
    engine := {
      stringOrdering := ← field engine "string_ordering" e.stringOrdering (some ·.text)
      maxDepth := ← field engine "max_nesting_depth" e.maxDepth fun s => s.count?.map some
      traced := ← field engine "debug_trace" e.traced Scalar.truth? } }

/-- The parts of a text between double underscores and points. -/
def nameParts (part : List Char) : List Char → List String
  | [] => [String.ofList part]
  | '_' :: '_' :: cs => String.ofList part :: nameParts [] cs
  | '.' :: cs => String.ofList part :: nameParts [] cs
  | c :: cs => nameParts (part ++ [c]) cs

/-- The way to a setting that the name of a variable spells. -/
def variablePath (name : String) : Option (List String) :=
  let small := (Text.lowercase name).toList
  let start := "rules_".toList
  if start.isPrefixOf small then some (nameParts [] (small.drop start.length)) else none

/-- The layer of the variables, in their order. -/
def ofVariables (given : List (String × String)) : List Setting :=
  given.filterMap fun (name, value) =>
    (variablePath name).map fun path => Setting.under path (Scalar.ofVariable value)

/-- The layer of a file; one without a name before its ending is never read. -/
def ofFile (file : String → Option String) (name : String) : Option (List Setting) :=
  if name = "" then some []
  else match file (name ++ ".toml") with
    | none => some []
    | some text => (Toml.read text).map fun es => [.table es]

/-- The configuration of a service in an environment; `file` has the texts of the files
that are there. -/
def load (service environment : String) (file : String → Option String)
    (given : List (String × String)) : Option Config := do
  let names : Setting := .table [
    ("service_name", .scalar (.str service)), ("environment", .scalar (.str environment))]
  let common ← ofFile file "default"
  let ofEnvironment ← ofFile file environment
  let ofService ← ofFile file service
  let layers := names :: common ++ ofEnvironment ++ ofService ++ ofVariables given
  ofEntries (layers.foldl (fun old s => s.onto (some old)) (Setting.table [])).entries

/-- The environment that the variables name. -/
def environmentOf (given : List (String × String)) : String :=
  (given.lookup "RULES_ENV").getD "development"

end Config

end RecordRules
