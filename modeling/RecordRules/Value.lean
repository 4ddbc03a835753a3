import RecordRules.Number.Int64
import RecordRules.Number.FloatText

/-!
The values that rules are about, and the records that hold them.

A record shows itself through what it answers: the names of its attributes in order, the
type it states for a name, and the value it has under a name. Nothing ties the three
together here; the kinds of records that are built elsewhere do so.
-/

namespace RecordRules

/-- What a value is, as types spell it. -/
inductive Kind where
  | bool | int | float | str | set | list | map | record
deriving DecidableEq, Repr

namespace Kind

def name : Kind → String
  | bool => "boolean"
  | int => "int64"
  | float => "float64"
  | str => "rstring"
  | set => "set"
  | list => "list"
  | map => "map"
  | record => "tuple"

def isNumeric : Kind → Bool
  | int | float => true
  | _ => false

def isCollection : Kind → Bool
  | set | list | map => true
  | _ => false

end Kind

mutual

inductive Value where
  | bool (b : Bool)
  | int (i : Int64)
  | float (x : Float)
  | str (s : String)
  | set (items : List Value)
  | list (items : List Value)
  | map (entries : List (Value × Value))
  | record (r : Record)

inductive Record where
  | mk (names : List String) (typeOf : String → Option String) (read : String → Option Value)

end

namespace Record

def names : Record → List String
  | mk names _ _ => names

def typeOf : Record → String → Option String
  | mk _ typeOf _ => typeOf

def read : Record → String → Option Value
  | mk _ _ read => read

/-- The type of a record with these names, attribute by attribute. -/
def typeText (names : List String) (typeOf : String → Option String) : String :=
  "tuple<" ++ ",".intercalate (names.map fun n => (typeOf n).getD "unknown" ++ " " ++ n) ++ ">"

def schema (r : Record) : String := typeText r.names r.typeOf

/-- A record that answers from lists, by the first entry with a name. -/
def listed (names : List String) (types : List (String × String))
    (values : List (String × Value)) : Record :=
  mk names (types.lookup ·) (values.lookup ·)

end Record

namespace Value

def kind : Value → Kind
  | bool _ => .bool
  | int _ => .int
  | float _ => .float
  | str _ => .str
  | set _ => .set
  | list _ => .list
  | map _ => .map
  | record _ => .record

/-- A number widened to floating point. -/
def toFloat? : Value → Option Float
  | int i => some (Number.widen i)
  | float x => some x
  | _ => none

def toStr? : Value → Option String
  | str s => some s
  | _ => none

/-- How many elements or entries a collection has. -/
def cardinality? : Value → Option Nat
  | set items | list items => some items.length
  | map entries => some entries.length
  | _ => none

end Value

end RecordRules
