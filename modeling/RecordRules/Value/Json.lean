import RecordRules.Json
import RecordRules.Value

/-!
Values written as JSON.

Sets and lists become arrays. A map becomes an object when all its keys are strings, and
otherwise an array of pairs. A record becomes an object of the attributes that can be
read. What is not a finite number has no JSON form and becomes null.
-/

namespace RecordRules.Value

def hasStrKeys (entries : List (Value × Value)) : Bool := entries.all fun e => e.1.kind == .str

mutual

def toJson : Value → Json
  | .bool b => .bool b
  | .int i => .int i.toInt
  | .float x => if x.isFinite then .number (.decimal x) else .null
  | .str s => .string s
  | .set items => .array (toJsons items)
  | .list items => .array (toJsons items)
  | .map entries =>
    if hasStrKeys entries then .ofMembers (keyedJsons entries) else .array (pairJsons entries)
  | .record r => recordToJson r
termination_by structural v => v

def toJsons : List Value → List Json
  | [] => []
  | v :: vs => toJson v :: toJsons vs
termination_by structural vs => vs

/-- The members for the entries that have a string as their key. -/
def keyedJsons : List (Value × Value) → List (String × Json)
  | [] => []
  | (.str k, v) :: es => (k, toJson v) :: keyedJsons es
  | _ :: es => keyedJsons es
termination_by structural es => es

def pairJsons : List (Value × Value) → List Json
  | [] => []
  | (k, v) :: es => .array [toJson k, toJson v] :: pairJsons es
termination_by structural es => es

def recordToJson : Record → Json
  | .mk names _ read =>
    .ofMembers (names.filterMap fun n => (readToJson (read n)).map fun j => (n, j))
termination_by structural r => r

def readToJson : Option Value → Option Json
  | some v => some (toJson v)
  | none => none
termination_by structural o => o

end

end RecordRules.Value
