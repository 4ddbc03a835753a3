import RecordRules.Engine
import Mathlib.Data.List.Forall2

/-!
The calls on one engine, one after the other. What a call leaves to the next is the cache,
and a rule from the cache is what its text compiles to under the limit of the engine, whatever
calls were made in between. So each answer is the one that a new engine gives, but for the
word that the rule was cached and for the number of its compilation.
-/

namespace RecordRules.Calls

inductive Call where
  | evaluate (text : String) (record : Record) (traced : Bool)
  | tryEvaluate (text : String) (record : Record)
  | compile (text : String)
  | resolve (path : String) (record : Record)
  | compare (left right : Record)
  | describe (record : Record)
  | clear

inductive Answer where
  | evaluation (e : Evaluation)
  | outcome (o : Except RuleError Bool)
  | rule (r : Except RuleError CompiledRule)
  | value (v : Except RuleError Value)
  | comparison (c : Except RuleError Comparison)
  | schema (s : Schema)
  | done

/-- The answer of an engine to a call, and the engine after it. -/
def call (e : Engine) : Call → Answer × Engine
  | .evaluate text record traced => Prod.map .evaluation id (e.evaluate text record traced)
  | .tryEvaluate text record => Prod.map .outcome id (e.tryEvaluate text record)
  | .compile text => Prod.map .rule id (e.compile text)
  | .resolve path record => (.value (record.resolve path), e)
  | .compare left right => (.comparison (left.compare right), e)
  | .describe record => (.schema record.describe, e)
  | .clear => (.done, e.clear)

/-- The answers to calls on one engine. -/
def answers (e : Engine) : List Call → List Answer
  | [] => []
  | c :: cs => (call e c).1 :: answers (call e c).2 cs

/-- The same answer, but for what tells whether the rule came from a cache. -/
def Agree : Answer → Answer → Prop
  | .evaluation a, .evaluation b =>
    a.matched = b.matched ∧ a.error? = b.error? ∧ a.trace = b.trace
  | .rule (.ok r), .rule (.ok s) =>
    r.text = s.text ∧ r.root = s.root ∧ r.requiredFields = s.requiredFields
  | a, b => a = b

/-! ### One look into the cache -/

lemma parse_of_get? {c : Cache} {text : String} {r : CompiledRule} (h : c.get? text = some r) :
    r.text = text ∧ Rule.parse c.compiler.limit text = .ok r.root := by
  have ht : r.text = text := by simpa using List.find?_some h
  have hm : r ∈ c.rules := List.mem_of_find?_eq_some h
  refine ⟨ht, ?_⟩
  rw [← ht]
  exact c.sound r hm

/-- What a cache hands out is what the text compiles to, found or not. -/
lemma fetch_cases (c : Cache) (text : String) :
    (∃ e, Rule.parse c.compiler.limit text = .error e ∧ (c.fetch text).1 = .error e) ∨
    ∃ r hit, r.text = text ∧ Rule.parse c.compiler.limit text = .ok r.root ∧
      (c.fetch text).1 = .ok (r, hit) := by
  unfold Cache.fetch
  split
  · next r hr =>
    obtain ⟨ht, hp⟩ := parse_of_get? hr
    exact .inr ⟨r, true, ht, hp, rfl⟩
  · split
    · next e he =>
      refine .inl ⟨e, ?_, rfl⟩
      unfold Compiler.compile at he
      split at he
      · next hp => cases he; exact hp
      · cases he
    · next r hr =>
      obtain ⟨ht, hp⟩ := Compiler.parse_of_compile hr
      exact .inr ⟨r, false, ht, hp, rfl⟩

@[simp] lemma limit_fetch (c : Cache) (text : String) :
    (c.fetch text).2.compiler.limit = c.compiler.limit := by
  unfold Cache.fetch
  split
  · rfl
  · split
    · rfl
    · exact Compiler.limit_compile c.compiler text

/-- Two caches under one limit hand out one rule, or the same error. -/
lemma fetch_agree {c d : Cache} (h : c.compiler.limit = d.compiler.limit) (text : String) :
    (∃ e, (c.fetch text).1 = .error e ∧ (d.fetch text).1 = .error e) ∨
    ∃ r i s j, (c.fetch text).1 = .ok (r, i) ∧ (d.fetch text).1 = .ok (s, j) ∧
      r.text = s.text ∧ r.root = s.root := by
  rcases fetch_cases c text with ⟨e, hp, hc⟩ | ⟨r, i, ht, hp, hc⟩ <;>
    rcases fetch_cases d text with ⟨e', hp', hd⟩ | ⟨s, j, ht', hp', hd⟩ <;>
    rw [h, hp'] at hp
  · have he : e' = e := Except.error.inj hp
    exact .inl ⟨e, hc, he ▸ hd⟩
  · cases hp
  · cases hp
  · have hroot : s.root = r.root := Except.ok.inj hp
    exact .inr ⟨r, i, s, j, hc, hd, ht.trans ht'.symm, hroot.symm⟩

/-! ### One call -/

lemma evaluate_error {e : Engine} {text : String} {err : RuleError}
    (h : (e.cache.fetch text).1 = .error err) (record : Record) (traced : Bool) :
    (e.evaluate text record traced).1 = ⟨.error err, false, []⟩ := by
  have hf : e.cache.fetch text = (.error err, (e.cache.fetch text).2) := Prod.ext h rfl
  unfold Engine.evaluate
  rw [hf]

lemma evaluate_ok {e : Engine} {text : String} {rule : CompiledRule} {hit : Bool}
    (h : (e.cache.fetch text).1 = .ok (rule, hit)) (record : Record) (traced : Bool) :
    (e.evaluate text record traced).1 =
      { (e.executor traced).execute rule.root record with cacheHit := hit } := by
  have hf : e.cache.fetch text = (.ok (rule, hit), (e.cache.fetch text).2) := Prod.ext h rfl
  unfold Engine.evaluate
  rw [hf]

lemma fetch_evaluate (e : Engine) (text : String) (record : Record) (traced : Bool) :
    (e.evaluate text record traced).2 = { e with cache := (e.cache.fetch text).2 } := by
  unfold Engine.evaluate
  split <;> simp_all

/-- No call changes the options. -/
lemma options_call (e : Engine) (c : Call) : (call e c).2.options = e.options := by
  cases c with
  | evaluate text record traced => simp [call, fetch_evaluate, Engine.options]
  | tryEvaluate text record => simp [call, Engine.tryEvaluate, fetch_evaluate, Engine.options]
  | compile text => simp [call, Engine.compile, Engine.options]
  | clear => simp [call, Engine.clear, Engine.options, Cache.clear]
  | resolve | compare | describe => rfl

/-- Engines with the same options evaluate a rule alike, whatever is in their caches. -/
lemma evaluate_agree {d e : Engine} (h : d.options = e.options) (text : String)
    (record : Record) (traced : Bool) :
    (d.evaluate text record traced).1.outcome = (e.evaluate text record traced).1.outcome ∧
      (d.evaluate text record traced).1.trace = (e.evaluate text record traced).1.trace := by
  obtain ⟨ho, hl, ht⟩ : d.ordering = e.ordering ∧
      d.cache.compiler.limit = e.cache.compiler.limit ∧ d.traced = e.traced := by
    simpa [Engine.options] using h
  rcases fetch_agree hl text with ⟨err, hd, he⟩ | ⟨r, i, s, j, hd, he, -, hroot⟩
  · rw [evaluate_error hd, evaluate_error he]
    exact ⟨rfl, rfl⟩
  · have hx : d.executor traced = e.executor traced := by simp [Engine.executor, ho, ht]
    rw [evaluate_ok hd, evaluate_ok he, hx, hroot]
    exact ⟨rfl, rfl⟩

lemma agree_evaluation {a b : Evaluation} (ho : a.outcome = b.outcome)
    (ht : a.trace = b.trace) : Agree (.evaluation a) (.evaluation b) := by
  refine ⟨?_, ?_, ht⟩
  · unfold Evaluation.matched
    rw [ho]
  · unfold Evaluation.error?
    rw [ho]

lemma call_agree {d e : Engine} (h : d.options = e.options) (c : Call) :
    Agree (call d c).1 (call e c).1 := by
  cases c with
  | evaluate text record traced =>
    obtain ⟨ho, ht⟩ := evaluate_agree h text record traced
    exact agree_evaluation ho ht
  | tryEvaluate text record =>
    exact congrArg Answer.outcome (evaluate_agree h text record false).1
  | compile text =>
    have hl : d.cache.compiler.limit = e.cache.compiler.limit := congrArg Engine.Options.maxDepth h
    change Agree (.rule ((d.cache.fetch text).1.map Prod.fst))
      (.rule ((e.cache.fetch text).1.map Prod.fst))
    rcases fetch_agree hl text with ⟨err, hd, he⟩ | ⟨r, i, s, j, hd, he, htext, hroot⟩
    · rw [hd, he]
      rfl
    · rw [hd, he]
      refine ⟨htext, hroot, ?_⟩
      change r.requiredFields = s.requiredFields
      unfold CompiledRule.requiredFields
      rw [hroot]
  | resolve | compare | describe | clear => rfl

/-! ### Calls one after the other -/

lemma answers_agree {d e : Engine} (h : d.options = e.options) (cs : List Call) :
    List.Forall₂ Agree (answers d cs) (cs.map fun c => (call e c).1) := by
  induction cs generalizing d with
  | nil => exact .nil
  | cons c cs ih => exact .cons (call_agree h c) (ih ((options_call d c).trans h))

/-- **Transparency of the cache**: whatever calls are made on one engine, each answer agrees
with the one that a new engine with the same options gives to that call alone. -/
theorem answers_agree_new (o : Engine.Options) (cs : List Call) :
    List.Forall₂ Agree (answers (.ofOptions o) cs) (cs.map fun c => (call (.ofOptions o) c).1) :=
  answers_agree rfl cs

end RecordRules.Calls
