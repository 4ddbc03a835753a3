import RecordRules.Text.Escaped
import RecordRules.Text.Quoted
import RecordRules.Value.Json
import RecordRules.Value.Show

/-!
Literals of rules.

The canonical text of a string literal escapes the double quote and the backslash alone,
which is what reading it undoes.
-/

namespace RecordRules

inductive Literal where
  | str (s : String)
  | int (i : Int64)
  | float (x : Float)
  | bool (b : Bool)
deriving DecidableEq, Repr

namespace Literal

def value : Literal → Value
  | str s => .str s
  | int i => .int i
  | float x => .float x
  | bool b => .bool b

def text : Literal → List Char
  | str s => Text.Quoted.write '"' s.toList
  | int i => Number.intDigits i.toInt
  | float x => Number.floatDigits x
  | bool b => (Value.showBool b).toList

def toJson (l : Literal) : Json := l.value.toJson

/-- Equality that compares floating-point numbers as numbers. -/
def same : Literal → Literal → Bool
  | str a, str b => a == b
  | int a, int b => a == b
  | float a, float b => a == b
  | bool a, bool b => a == b
  | _, _ => false

end Literal

end RecordRules
