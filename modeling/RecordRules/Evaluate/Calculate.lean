import RecordRules.Error
import RecordRules.Value

/-!
Arithmetic of values.

Two integers give the exact integer result, division rounding toward zero, if 64 bits
hold it; a remainder also needs 64 bits for its quotient. Other numbers are widened and
may not give an infinity. No number is divided by zero.
-/

namespace RecordRules

namespace Arithmetic

/-- The result over all integers. -/
def exact : Arithmetic → Int → Int → Int
  | add, a, b => a + b
  | sub, a, b => a - b
  | mul, a, b => a * b
  | div, a, b => a.tdiv b
  | rem, a, b => a.tmod b

def onInts (op : Arithmetic) (a b : Int64) : Option Int64 :=
  match op with
  | rem => (Number.int64? (exact div a.toInt b.toInt)).bind fun _ =>
      Number.int64? (exact rem a.toInt b.toInt)
  | op => Number.int64? (op.exact a.toInt b.toInt)

def onFloats : Arithmetic → Float → Float → Float
  | add, x, y => x + y
  | sub, x, y => x - y
  | mul, x, y => x * y
  | div, x, y => x / y
  | rem, x, y => Number.remainder x y

end Arithmetic

namespace Evaluate

def calculateInts (op : Arithmetic) (a b : Int64) : Except RuleError Value :=
  if op.divides && b == 0 then .error (.divisionByZero op)
  else match op.onInts a b with
    | some n => .ok (.int n)
    | none => .error (.arithmeticOverflow op)

def calculateFloats (op : Arithmetic) (x y : Float) : Except RuleError Value :=
  if op.divides && y == 0.0 then .error (.divisionByZero op)
  else
    let z := op.onFloats x y
    if z.isInf then .error (.arithmeticOverflow op) else .ok (.float z)

def calculate (left : Value) (op : Arithmetic) (right : Value) : Except RuleError Value :=
  match left, right with
  | .int a, .int b => calculateInts op a b
  | .int a, .float b => calculateFloats op (Number.widen a) b
  | .float a, .int b => calculateFloats op a (Number.widen b)
  | .float a, .float b => calculateFloats op a b
  | a, b =>
    if a.kind = b.kind then .error (.invalidOperator (.arithmetic op) a.kind)
    else
      let offending := if a.kind.isNumeric then b else a
      .error (.typeMismatch (.arithmetic op) .numeric offending.kind)

end Evaluate

end RecordRules
