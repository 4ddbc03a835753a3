import RecordRules.Entries
import RecordRules.Number.FloatText
import RecordRules.Number.Int64
import RecordRules.Text.Lowercase

/-!
Settings: scalars, and tables of settings under names. A setting is read as a text, a
truth value or a count, whichever of them it was written as, as far as that makes sense.
-/

namespace RecordRules.Config

inductive Scalar where
  | bool (b : Bool)
  | int (i : Int64)
  | float (x : Float)
  | str (s : String)

inductive Setting where
  | scalar (s : Scalar)
  | table (entries : List (String × Setting))

namespace Scalar

/-- The digits of a number, positionally and without a point where there is no fraction. -/
def plainDigits (d : Number.Decimal) : List Char :=
  if d.exponent < 0 then
    ['0', '.'] ++ List.replicate (-d.exponent - 1).toNat '0' ++ d.digits
  else
    let n := d.exponent.toNat + 1
    let whole := d.digits.take n ++ List.replicate (n - d.digits.length) '0'
    if d.digits.length ≤ n then whole else whole ++ '.' :: d.digits.drop n

def plainFloat (x : Float) : String :=
  match Number.Binary.ofFloat? x with
  | none => Number.showFloat x
  | some b =>
    let text := if b.mantissa = 0 then ['0'] else plainDigits b.shortest
    String.ofList (if b.negative then '-' :: text else text)

def text : Scalar → String
  | bool b => if b then "true" else "false"
  | int i => Number.showInt64 i
  | float x => plainFloat x
  | str s => s

def yes : List String := ["true", "on", "yes"]

def no : List String := ["false", "off", "no"]

def truth? : Scalar → Option Bool
  | bool b => some b
  | int i => some (i != 0)
  | float x => some (x != 0.0)
  | str s =>
    let word := Text.lowercase s
    if word = "1" ∨ word ∈ yes then some true
    else if word = "0" ∨ word ∈ no then some false
    else none

/-- A whole number of 64 bits without a sign of its own. -/
def natural? (text : List Char) : Option Nat :=
  let digits := match text with
    | '+' :: ds => ds
    | ds => ds
  (Number.natural? digits).filter (· < UInt64.size)

/-- A count; a fraction is rounded and brought into the range of 64 bits. -/
def count? : Scalar → Option Nat
  | bool b => some (if b then 1 else 0)
  | int i => if i < 0 then none else some i.toInt.toNat
  | float x => some x.round.toUInt64.toNat
  | str s =>
    let word := Text.lowercase s
    if word ∈ yes then some 1 else if word ∈ no then some 0 else natural? s.toList

/-- A signed integer of 64 bits. -/
def integer? (text : List Char) : Option Int64 :=
  match text with
  | '+' :: ds => (Number.natural? ds).bind fun n => Number.int64? n
  | _ => Number.readInt64? text

/-- What the text of a variable is taken for: a truth value, an integer, a number or just
a text. -/
def ofVariable (text : String) : Scalar :=
  let word := Text.lowercase text
  if word = "true" then .bool true
  else if word = "false" then .bool false
  else match integer? text.toList with
    | some i => .int i
    | none => match Number.readFloat? text.toList with
      | some x => .float x
      | none => .str text

end Scalar

namespace Setting

def entries : Setting → List (String × Setting)
  | table es => es
  | scalar _ => []

mutual

/-- A setting laid over another one: tables are joined name by name, and an empty one
leaves what is there; a scalar takes its place. -/
def onto (old : Option Setting) : Setting → Setting
  | .scalar s => .scalar s
  | .table [] => old.getD (.table [])
  | .table (e :: es) => .table (ontoAll ((old.getD (.table [])).entries) (e :: es))
termination_by structural s => s

def ontoAll (old : List (String × Setting)) : List (String × Setting) → List (String × Setting)
  | [] => old
  | (n, s) :: es => ontoAll (Entries.insert n (onto (old.lookup n) s) old) es
termination_by structural es => es

end

/-- A scalar in tables along a path of names. -/
def under : List String → Scalar → Setting
  | [], s => .scalar s
  | n :: ns, s => .table [(n, under ns s)]

end Setting

end RecordRules.Config
