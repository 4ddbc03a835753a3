import RecordRules.Command
import RecordRules.Engine
import RecordRules.Json.Read
import RecordRules.Record.Json
import RecordRules.Rule.Json
import RecordRules.Value.Json

/-!
Running commands on an engine. A command answers with JSON, or fails because one of its
records cannot be loaded; what is wrong with a rule or a path is part of the answer.
-/

namespace RecordRules.Command

inductive Failure where
  | unreadableFile (name : String)
  | malformedJson
  | notAnObject (json : Json)
  | incomparable (error : RuleError)

namespace Failure

def message : Failure → String
  | unreadableFile name => "读取记录文件失败: " ++ name
  | malformedJson => "解析 JSON 记录失败"
  | notAnObject json => "记录必须是 JSON 对象，实际为: " ++ json.kindName
  | incomparable _ => "记录比较失败"

end Failure

/-- The name of the file that holds a record, if it is not given by its text. -/
def fileName? (record : String) : Option String :=
  match record.toList with
  | '@' :: name => some (String.ofList name)
  | _ => none

/-- The files that a command needs. -/
def files : Command → List String
  | eval _ record _ => (fileName? record).toList
  | resolve _ record => (fileName? record).toList
  | compare left right => (fileName? left).toList ++ (fileName? right).toList
  | schema record => (fileName? record).toList
  | explain _ => []

/-- The record of an argument; `file` has the texts of the files that can be read. -/
def load (file : String → Option String) (record : String) : Except Failure Record :=
  let text : Except Failure String := match fileName? record with
    | none => .ok record
    | some name => match file name with
      | some text => .ok text
      | none => .error (.unreadableFile name)
  match text with
  | .error e => .error e
  | .ok text =>
    match Json.read text with
    | none => .error .malformedJson
    | some (.object members) => .ok (Json.toRecord members)
    | some json => .error (.notAnObject json)

def strings (ss : List String) : Json := .array (ss.map .string)

def evaluationJson (rule : String) (e : Evaluation) : Json :=
  .object ([
    ("rule", .string rule),
    ("matched", .bool e.matched),
    ("error_code", .nat e.code),
    ("cache_hit", .bool e.cacheHit)]
    ++ (match e.error? with
      | some error => [("error", .string error.message)]
      | none => [])
    ++ (if e.trace.isEmpty then [] else [("trace", strings e.trace)]))

/-- The evaluations of rules on one record, one after the other. -/
def evaluateAll (engine : Engine) (record : Record) (traced : Bool) :
    List String → List Json × Engine
  | [] => ([], engine)
  | rule :: rules =>
    let (evaluation, engine) := engine.evaluate rule record traced
    let (results, engine) := evaluateAll engine record traced rules
    (evaluationJson rule evaluation :: results, engine)

def runEval (file : String → Option String) (engine : Engine) (rules : List String)
    (record : String) (traced : Bool) : Except Failure Json × Engine :=
  match load file record with
  | .error e => (.error e, engine)
  | .ok record =>
    let (results, engine) := evaluateAll engine record traced rules
    (.ok (.object [
      ("results", .array results),
      ("cache", .object [
        ("hits", .nat engine.cache.hits),
        ("misses", .nat engine.cache.misses),
        ("entries", .nat engine.cache.entries)])]), engine)

def runResolve (file : String → Option String) (path record : String) : Except Failure Json :=
  match load file record with
  | .error e => .error e
  | .ok record =>
    match record.resolve path with
    | .ok value =>
      .ok (.object [
        ("path", .string path),
        ("value", value.toJson),
        ("type", .string value.kind.name),
        ("error_code", .nat 0)])
    | .error error =>
      .ok (.object [
        ("path", .string path),
        ("error_code", .nat error.code),
        ("error", .string error.message)])

def runCompare (file : String → Option String) (left right : String) : Except Failure Json :=
  match load file left with
  | .error e => .error e
  | .ok l =>
    match load file right with
    | .error e => .error e
    | .ok r =>
      match l.compare r with
      | .error e => .error (.incomparable e)
      | .ok c =>
        .ok (.object [("matching", strings c.matching), ("differing", strings c.differing)])

def schemaJson (s : Schema) : Json :=
  .object [
    ("schema_literal", .string s.type),
    ("attribute_types", .object (s.attributes.map fun a => (a.1, .string a.2)))]

def runSchema (file : String → Option String) (record : String) : Except Failure Json :=
  (load file record).map fun record => schemaJson record.describe

def runExplain (engine : Engine) (rule : String) : Json × Engine :=
  match engine.compile rule with
  | (.ok compiled, engine) =>
    (.object [
      ("rule", .string rule),
      ("canonical", .string compiled.root.text),
      ("required_fields", strings compiled.requiredFields),
      ("depth", .nat compiled.root.depth),
      ("tree", compiled.root.toJson),
      ("error_code", .nat 0)], engine)
  | (.error error, engine) =>
    (.object [
      ("rule", .string rule),
      ("error_code", .nat error.code),
      ("error", .string error.message)], engine)

/-- The answer of a command, and the engine after it. -/
def run (file : String → Option String) (engine : Engine) : Command → Except Failure Json × Engine
  | eval rules record traced => runEval file engine rules record traced
  | resolve path record => (runResolve file path record, engine)
  | compare left right => (runCompare file left right, engine)
  | schema record => (runSchema file record, engine)
  | explain rule => let (answer, engine) := runExplain engine rule; (.ok answer, engine)

end RecordRules.Command
