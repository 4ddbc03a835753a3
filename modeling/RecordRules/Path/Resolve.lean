import RecordRules.Error
import RecordRules.Value.Same

/-!
Following a path through a record.

An identifier enters a nested record, an integer takes an element of a list by its
position, and any index takes the value of the first entry of a map whose key is the
same. Everything else fails with the kind of the value that the step met.
-/

namespace RecordRules

def Key.value : Key → Value
  | .int i => .int i
  | .str s => .str s

namespace Path

/-- One step; `path` is the text of the path, for the error. -/
def step (path : String) : Segment → Value → Except RuleError Value
  | .attr name, .record r =>
    match r.read name with
    | some v => .ok v
    | none => .error (.attributeNotFound path name)
  | .index (.int i), .list items =>
    if i.toInt < 0 then .error (.indexOutOfRange path i items.length)
    else match items[i.toInt.toNat]? with
      | some v => .ok v
      | none => .error (.indexOutOfRange path i items.length)
  | .index key, .map entries =>
    match entries.find? fun e => e.1.same key.value with
    | some e => .ok e.2
    | none => .error (.keyNotFound path key)
  | segment, v => .error (.indexTypeMismatch path segment v.kind)

/-- The steps one after the other. -/
def follow (path : String) : List Segment → Value → Except RuleError Value
  | [], v => .ok v
  | s :: ss, v =>
    match step path s v with
    | .error e => .error e
    | .ok w => follow path ss w

def resolve (p : Path) (r : Record) : Except RuleError Value :=
  follow p.text p.segments (.record r)

/-- The path that a text spells, read on its own. -/
def parse (text : String) : Except RuleError Path :=
  match read text with
  | .ok p => .ok p
  | .error (fault, offset) => .error (.parseAt text (.ofPath text fault) offset)

end Path

/-- The value at the path that a text spells. -/
def Record.resolve (r : Record) (path : String) : Except RuleError Value :=
  match Path.parse path with
  | .error e => .error e
  | .ok p => p.resolve r

end RecordRules
