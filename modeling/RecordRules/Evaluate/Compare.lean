import RecordRules.Error
import RecordRules.StringOrdering
import RecordRules.Value.Same

/-!
Comparing two values.

Integers are compared exactly, other numbers after widening; what is not a number is
different from everything. Strings have an order, which an option chooses, and an
equality, which it does not touch. Other values of one kind have equality alone.
-/

namespace RecordRules.Evaluate

def compareInts (a b : Int64) : Ordering :=
  if a.toInt < b.toInt then .lt else if a.toInt = b.toInt then .eq else .gt

def compareFloats (op : Relation) (x y : Float) : Bool :=
  match Number.order? x y with
  | some o => op.holds o
  | none => op == .ne

def compareStrings (ordering : StringOrdering) (op : Relation) (a b : String) : Bool :=
  if op.isEquality then (a == b) == (op == .eq) else op.holds (ordering.compare a b)

def compare (ordering : StringOrdering) (left : Value) (op : Relation) (right : Value) :
    Except RuleError Bool :=
  match left, right with
  | .int a, .int b => .ok (op.holds (compareInts a b))
  | .int a, .float b => .ok (compareFloats op (Number.widen a) b)
  | .float a, .int b => .ok (compareFloats op a (Number.widen b))
  | .float a, .float b => .ok (compareFloats op a b)
  | .str a, .str b => .ok (compareStrings ordering op a b)
  | a, b =>
    if a.kind = b.kind then
      if op.isEquality then .ok (a.same b == (op == .eq))
      else .error (.invalidOperator (.relation op) a.kind)
    else .error (.typeMismatch (.relation op) (.kind a.kind) b.kind)

end RecordRules.Evaluate
