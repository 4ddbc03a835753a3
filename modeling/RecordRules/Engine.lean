import RecordRules.Cache
import RecordRules.Comparison
import RecordRules.Engine.Options
import RecordRules.Evaluate.Run
import RecordRules.Record.Schema

/-!
An engine: options and a cache of its own. What it does to its cache is the only thing
that one call leaves to the next.
-/

namespace RecordRules

structure Engine where
  ordering : StringOrdering := .ordinal
  traced : Bool := false
  cache : Cache := {}

namespace Engine

def ofOptions (o : Options) : Engine := ⟨o.ordering, o.traced, .empty o.maxDepth⟩

def ofSettings (s : Settings) : Except RuleError Engine := s.options.map ofOptions

def options (e : Engine) : Options := ⟨e.ordering, e.cache.compiler.limit, e.traced⟩

/-- The executor of a call, which is traced if the call or the engine asks for it. -/
def executor (e : Engine) (traced : Bool) : Executor := ⟨e.ordering, traced || e.traced⟩

/-- The rule that a text compiles to. -/
def compile (e : Engine) (text : String) : Except RuleError CompiledRule × Engine :=
  let (outcome, cache) := e.cache.fetch text
  (outcome.map Prod.fst, { e with cache })

def evaluate (e : Engine) (text : String) (record : Record) (traced : Bool) :
    Evaluation × Engine :=
  match e.cache.fetch text with
  | (.error err, cache) => (⟨.error err, false, []⟩, { e with cache })
  | (.ok (rule, hit), cache) =>
    ({ (e.executor traced).execute rule.root record with cacheHit := hit }, { e with cache })

/-- Evaluates a rule without a trace of its own. -/
def tryEvaluate (e : Engine) (text : String) (record : Record) : Except RuleError Bool × Engine :=
  let (evaluation, e) := e.evaluate text record false
  (evaluation.outcome, e)

def clear (e : Engine) : Engine := { e with cache := e.cache.clear }

end Engine

end RecordRules
