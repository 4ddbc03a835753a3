import RecordRules.Entries

/-!
JSON values. The members of an object keep the order in which they were written, and each
name stands once.
-/

namespace RecordRules

/-- A number without a fraction or exponent, or a floating-point one. -/
inductive Json.Number where
  | integer (n : Int)
  | decimal (x : Float)

inductive Json where
  | null
  | bool (b : Bool)
  | number (n : Json.Number)
  | string (s : String)
  | array (items : List Json)
  | object (members : List (String × Json))

namespace Json

def kindName : Json → String
  | null => "null"
  | bool _ => "boolean"
  | number _ => "number"
  | string _ => "string"
  | array _ => "array"
  | object _ => "object"

def nat (n : Nat) : Json := number (.integer n)

def int (i : Int) : Json := number (.integer i)

/-- The object with these members; of two with one name the later value counts. -/
def ofMembers (ms : List (String × Json)) : Json := object (Entries.ofList ms)

end Json

end RecordRules
