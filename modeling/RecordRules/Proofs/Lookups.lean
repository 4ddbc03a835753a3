import RecordRules.Proofs.Calls

/-!
What looking a text up does to a cache. A text that is there counts as a hit and changes
nothing else. A text that is not there counts as a miss; the rule that it spells is put in
front of the others, under the next number, and a text that spells none leaves no trace.
-/

namespace RecordRules

/-- The text spells a rule whose parentheses are nested no deeper than the limit. -/
def Compiles (limit : Option Nat) (text : String) : Prop :=
  ∃ root, Rule.parse limit text = .ok root

namespace Cache

/-- The text stands under one of the rules. -/
def Has (c : Cache) (text : String) : Prop := text ∈ c.rules.map (·.text)

lemma mem_texts {c : Cache} {text : String} : text ∈ c.texts ↔ c.Has text :=
  Sorted.mem_ofList

lemma get?_eq_none {c : Cache} {text : String} : c.get? text = none ↔ ¬c.Has text := by
  simp [get?, Has]

lemma has_of_get? {c : Cache} {text : String} {r : CompiledRule} (h : c.get? text = some r) :
    c.Has text := by
  by_contra hnot
  rw [get?_eq_none.2 hnot] at h
  cases h

/-- What stands in a cache has been compiled. -/
lemma Has.compiles {c : Cache} {text : String} (h : c.Has text) :
    Compiles c.compiler.limit text := by
  obtain ⟨r, hr, rfl⟩ := List.mem_map.1 h
  exact ⟨r.root, c.sound r hr⟩

/-- What a look-up hands out, and the cache that it leaves. -/
inductive Fetched (c : Cache) (text : String) :
    Except RuleError (CompiledRule × Bool) → Cache → Prop
  | hit (r : CompiledRule) (h : c.get? text = some r) :
      Fetched c text (.ok (r, true)) { c with hits := c.hits + 1 }
  | failed (err : RuleError) (h : ¬c.Has text)
      (hp : Rule.parse c.compiler.limit text = .error err) :
      Fetched c text (.error err) { c with misses := c.misses + 1 }
  | compiled (root : Rule) (d : Cache) (h : ¬c.Has text)
      (hp : Rule.parse c.compiler.limit text = .ok root)
      (hrules : d.rules = ⟨text, root, c.compiler.version + 1⟩ :: c.rules)
      (hcompiler : d.compiler = { c.compiler with version := c.compiler.version + 1 })
      (hhits : d.hits = c.hits) (hmisses : d.misses = c.misses + 1) :
      Fetched c text (.ok (⟨text, root, c.compiler.version + 1⟩, false)) d

lemma fetched (c : Cache) (text : String) :
    c.Fetched text (c.fetch text).1 (c.fetch text).2 := by
  unfold fetch
  split
  · next r hr => exact .hit r hr
  · next hnone =>
    have hnot := get?_eq_none.1 hnone
    -- what compiling the text gives, and the compiler after it, in either case
    have hcompile : (∃ err, Rule.parse c.compiler.limit text = .error err ∧
          c.compiler.compile text = (.error err, c.compiler)) ∨
        ∃ root, Rule.parse c.compiler.limit text = .ok root ∧ c.compiler.compile text =
          (.ok ⟨text, root, c.compiler.version + 1⟩,
            { c.compiler with version := c.compiler.version + 1 }) := by
      unfold Compiler.compile
      cases Rule.parse c.compiler.limit text with
      | error err => exact .inl ⟨err, rfl, rfl⟩
      | ok root => exact .inr ⟨root, rfl, rfl⟩
    rcases hcompile with ⟨err, hp, hc⟩ | ⟨root, hp, hc⟩
    · split
      · next err' herr =>
        rw [hc] at herr
        cases herr
        exact .failed err hnot hp
      · next r hr =>
        rw [hc] at hr
        cases hr
    · split
      · next err herr =>
        rw [hc] at herr
        cases herr
      · next r hr =>
        rw [hc] at hr
        cases hr
        exact .compiled root _ hnot hp rfl (congrArg Prod.snd hc) rfl rfl

variable {c d : Cache} {text : String} {outcome : Except RuleError (CompiledRule × Bool)}

/-- The counters tell whether the text was there. -/
lemma Fetched.hits_iff (h : c.Fetched text outcome d) : d.hits = c.hits + 1 ↔ c.Has text := by
  cases h with
  | hit r h => exact iff_of_true rfl (has_of_get? h)
  | failed err h => exact iff_of_false (Nat.succ_ne_self c.hits).symm h
  | compiled root _ h _ _ _ hhits =>
    rw [hhits]
    exact iff_of_false (Nat.succ_ne_self c.hits).symm h

lemma Fetched.misses_iff (h : c.Fetched text outcome d) :
    d.misses = c.misses + 1 ↔ ¬c.Has text := by
  cases h with
  | hit r h =>
    exact iff_of_false (Nat.succ_ne_self c.misses).symm (not_not_intro (has_of_get? h))
  | failed err h => exact iff_of_true rfl h
  | compiled root _ h _ _ _ _ hmisses => exact iff_of_true hmisses h

/-- A text that spells no rule leaves the rules as they were. -/
lemma Fetched.rules_eq (h : c.Fetched text outcome d) (hnot : ¬Compiles c.compiler.limit text) :
    d.rules = c.rules := by
  cases h with
  | hit r h => rfl
  | failed err h => rfl
  | compiled root _ h hp => exact absurd ⟨root, hp⟩ hnot

end Cache

namespace Calls

/-- The text of the rule that a call looks up. -/
def Call.text? : Call → Option String
  | .evaluate text _ _ | .tryEvaluate text _ | .compile text => some text
  | .resolve _ _ | .compare _ _ | .describe _ | .clear => none

/-- A call looks one text up, clears the cache, or leaves it as it is. -/
lemma call_cases (e : Engine) (c : Call) :
    (∃ text, c.text? = some text ∧ (call e c).2.cache = (e.cache.fetch text).2) ∨
    (c = .clear ∧ (call e c).2.cache = e.cache.clear) ∨
    (c.text? = none ∧ c ≠ .clear ∧ (call e c).2 = e) := by
  cases c with
  | evaluate text record traced =>
    exact .inl ⟨text, rfl, congrArg Engine.cache (fetch_evaluate e text record traced)⟩
  | tryEvaluate text record =>
    exact .inl ⟨text, rfl, congrArg Engine.cache (fetch_evaluate e text record false)⟩
  | compile text => exact .inl ⟨text, rfl, rfl⟩
  | clear => exact .inr (.inl ⟨rfl, rfl⟩)
  | resolve | compare | describe => exact .inr (.inr ⟨rfl, nofun, rfl⟩)

end Calls

end RecordRules
