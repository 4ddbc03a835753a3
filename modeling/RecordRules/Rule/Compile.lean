import RecordRules.Rule.Parse
import RecordRules.Sorted

/-!
Compiling rules: the tree of a text together with the number of its compilation. Only
compilations that succeed are counted.
-/

namespace RecordRules

structure CompiledRule where
  text : String
  root : Rule
  version : Nat

namespace CompiledRule

/-- The texts of all paths of the rule, in ascending order. -/
def requiredFields (r : CompiledRule) : List String := Sorted.ofList (r.root.paths.map Path.text)

/-- The attributes at the front of all paths of the rule, in ascending order. -/
def requiredRoots (r : CompiledRule) : List String := Sorted.ofList (r.root.paths.map Path.root)

end CompiledRule

/-- The limit on nested parentheses, and the number of the last compilation. -/
structure Compiler where
  limit : Option Nat := none
  version : Nat := 0
deriving DecidableEq, Repr

namespace Compiler

def compile (c : Compiler) (text : String) : Except RuleError CompiledRule × Compiler :=
  match Rule.parse c.limit text with
  | .error e => (.error e, c)
  | .ok root => (.ok ⟨text, root, c.version + 1⟩, { c with version := c.version + 1 })

@[simp] theorem limit_compile (c : Compiler) (text : String) :
    (c.compile text).2.limit = c.limit := by
  simp only [compile]
  split <;> rfl

theorem parse_of_compile {c : Compiler} {text : String} {r : CompiledRule}
    (h : (c.compile text).1 = .ok r) : r.text = text ∧ Rule.parse c.limit text = .ok r.root := by
  simp only [compile] at h
  split at h
  · cases h
  · next hp =>
    cases h
    exact ⟨rfl, hp⟩

end Compiler

end RecordRules
