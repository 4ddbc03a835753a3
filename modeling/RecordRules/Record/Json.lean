import RecordRules.Json
import RecordRules.Value

/-!
JSON objects as records.

Booleans, strings and arrays stand for the values of their kind, and objects for nested
records. A number without a fraction is an integer where 64 bits hold it and otherwise a
floating-point number. Null cannot be read, nor can an array that holds something
unreadable, so that no index is displaced; an object can always be read and leaves its
unreadable members out.
-/

namespace RecordRules.Json

def Number.value : Number → Value
  | .integer n =>
    match RecordRules.Number.int64? n with
    | some i => .int i
    | none => .float (Float.ofInt n)
  | .decimal x => .float x

mutual

/-- The value can be read. -/
def readable : Json → Bool
  | .null => false
  | .array items => allReadable items
  | _ => true
termination_by structural j => j

def allReadable : List Json → Bool
  | [] => true
  | j :: js => readable j && allReadable js
termination_by structural js => js

end

/-- The names of the members that can be read. -/
def readableNames (ms : List (String × Json)) : List String :=
  (ms.filter fun m => readable m.2).map Prod.fst

mutual

/-- The type of what a value is read as. The elements of an array have the type of the
first one. -/
def typeName : Json → Option String
  | .null => none
  | .bool _ => some Kind.bool.name
  | .number n => some n.value.kind.name
  | .string _ => some Kind.str.name
  | .array items =>
    if allReadable items then some ("list<" ++ (firstType items).getD "unknown" ++ ">") else none
  | .object ms =>
    let types := memberTypes ms
    some (Record.typeText (readableNames ms) fun n => (types.lookup n).join)
termination_by structural j => j

def firstType : List Json → Option String
  | [] => none
  | j :: js => (typeName j).or (firstType js)
termination_by structural js => js

def memberTypes : List (String × Json) → List (String × Option String)
  | [] => []
  | (n, j) :: ms => (n, typeName j) :: memberTypes ms
termination_by structural ms => ms

end

mutual

/-- What a value is read as, if it can be read. -/
def view : Json → Option Value
  | .null => none
  | .bool b => some (.bool b)
  | .number n => some n.value
  | .string s => some (.str s)
  | .array items => (views items).map .list
  | .object ms =>
    let types := memberTypes ms
    let values := memberViews ms
    some (.record (.mk (readableNames ms) (fun n => (types.lookup n).join)
      fun n => (values.lookup n).join))
termination_by structural j => j

def views : List Json → Option (List Value)
  | [] => some []
  | j :: js =>
    match view j, views js with
    | some v, some vs => some (v :: vs)
    | _, _ => none
termination_by structural js => js

def memberViews : List (String × Json) → List (String × Option Value)
  | [] => []
  | (n, j) :: ms => (n, view j) :: memberViews ms
termination_by structural ms => ms

end

/-- The record of an object with these members. -/
def toRecord (ms : List (String × Json)) : Record :=
  let types := memberTypes ms
  let values := memberViews ms
  .mk (readableNames ms) (fun n => (types.lookup n).join) fun n => (values.lookup n).join

theorem view_object (ms : List (String × Json)) :
    view (.object ms) = some (.record (toRecord ms)) := rfl

end RecordRules.Json
