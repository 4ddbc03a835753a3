import RecordRules.Rule.Compile

/-!
A cache of compiled rules.

A rule is found by its exact text. Each entry is what its text compiles to under the limit
of the cache, so that a rule from the cache does what compiling it anew would do. What
does not compile leaves no entry.
-/

namespace RecordRules

structure Cache where
  compiler : Compiler := {}
  rules : List CompiledRule := []
  hits : Nat := 0
  misses : Nat := 0
  sound : ∀ r ∈ rules, Rule.parse compiler.limit r.text = .ok r.root := by simp

namespace Cache

/-- An empty cache for rules with parentheses nested no deeper than the limit. -/
def empty (limit : Option Nat) : Cache := { compiler := { limit } }

def get? (c : Cache) (text : String) : Option CompiledRule := c.rules.find? (·.text == text)

def contains (c : Cache) (text : String) : Bool := (c.get? text).isSome

def entries (c : Cache) : Nat := c.rules.length

/-- The cached texts in ascending order. -/
def texts (c : Cache) : List String := Sorted.ofList (c.rules.map (·.text))

/-- The rule that a text compiles to, and whether it was in the cache. -/
def fetch (c : Cache) (text : String) : Except RuleError (CompiledRule × Bool) × Cache :=
  match c.get? text with
  | some r => (.ok (r, true), { c with hits := c.hits + 1 })
  | none =>
    match h : (c.compiler.compile text).1 with
    | .error e => (.error e, { c with misses := c.misses + 1 })
    | .ok r =>
      (.ok (r, false), {
        compiler := (c.compiler.compile text).2
        rules := r :: c.rules
        hits := c.hits
        misses := c.misses + 1
        sound := by
          have ⟨ht, hp⟩ := Compiler.parse_of_compile h
          simpa [ht, hp] using c.sound })

/-- Forgets the rules and goes on counting. -/
def clear (c : Cache) : Cache := { c with rules := [], sound := by simp }

end Cache

end RecordRules
