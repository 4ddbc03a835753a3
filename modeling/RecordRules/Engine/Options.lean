import RecordRules.Error
import RecordRules.StringOrdering

/-!
The options of an engine, and the settings they are made from. In the settings the order
of strings is known by a name.
-/

namespace RecordRules

structure Engine.Settings where
  stringOrdering : String := "ordinal"
  maxDepth : Option Nat := none
  traced : Bool := false
deriving DecidableEq, Repr

structure Engine.Options where
  ordering : StringOrdering := .ordinal
  maxDepth : Option Nat := none
  traced : Bool := false
deriving DecidableEq, Repr

def Engine.Settings.options (s : Engine.Settings) : Except RuleError Engine.Options :=
  match StringOrdering.ofName? s.stringOrdering with
  | some ordering => .ok ⟨ordering, s.maxDepth, s.traced⟩
  | none => .error (.unknownOrdering s.stringOrdering)

end RecordRules
