import RecordRules.Value

/-!
Structural equality of values.

Numbers are compared once both are widened, lists in order, sets as collections without
order, maps by looking each key of the left one up in the right one. Records are the same
when they name equally many attributes and have the same value under each name of the
left one.
-/

namespace RecordRules.Value

mutual

def same : Value → Value → Bool
  | .bool a, .bool b => a == b
  | .int a, .int b => a == b
  | .int a, .float b => Number.widen a == b
  | .float a, .int b => a == Number.widen b
  | .float a, .float b => a == b
  | .str a, .str b => a == b
  | .list a, .list b => sameLists a b
  | .set a, .set b => a.length == b.length && eachIn a b && b.all fun y => memberOf a y
  | .map a, .map b => a.length == b.length && eachEntryIn a b
  | .record a, .record b => sameRecords a b
  | _, _ => false
termination_by structural v => v

def sameLists : List Value → List Value → Bool
  | [], [] => true
  | x :: xs, y :: ys => same x y && sameLists xs ys
  | _, _ => false
termination_by structural vs => vs

/-- Every element of the first list is the same as some element of the second. -/
def eachIn : List Value → List Value → Bool
  | [], _ => true
  | x :: xs, ys => (ys.any fun y => same x y) && eachIn xs ys
termination_by structural vs => vs

/-- Some element of the list is the same as the value. -/
def memberOf : List Value → Value → Bool
  | [], _ => false
  | x :: xs, y => same x y || memberOf xs y
termination_by structural vs => vs

/-- Every entry of the first map is the same as the entry that its key finds. -/
def eachEntryIn : List (Value × Value) → List (Value × Value) → Bool
  | [], _ => true
  | (k, v) :: es, fs =>
    (match fs.find? fun f => same k f.1 with
      | some f => same v f.2
      | none => false) && eachEntryIn es fs
termination_by structural es => es

def sameRecords : Record → Record → Bool
  | .mk names _ read, r =>
    names.length == r.names.length && names.all fun n => sameReads (read n) (r.read n)
termination_by structural r => r

def sameReads : Option Value → Option Value → Bool
  | some x, some y => same x y
  | _, _ => false
termination_by structural o => o

end

theorem memberOf_eq_any (xs : List Value) (y : Value) :
    memberOf xs y = xs.any fun x => same x y := by
  induction xs with
  | nil => rfl
  | cons x xs ih => simp [memberOf, ih]

theorem eachIn_eq_all (xs ys : List Value) :
    eachIn xs ys = xs.all fun x => ys.any fun y => same x y := by
  induction xs with
  | nil => rfl
  | cons x xs ih => simp [eachIn, ih]

end RecordRules.Value
