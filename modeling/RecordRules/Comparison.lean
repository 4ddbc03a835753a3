import RecordRules.Error
import RecordRules.Value.Same

/-!
Comparing two records attribute by attribute.

Records on both sides are compared in turn, and their attributes have the path to them
before their names; all other values are compared as a whole. The attributes come in the
order of the left record, followed by those that only the right one has.
-/

namespace RecordRules

/-- A path, and whether both records have the same value there. -/
structure Finding where
  path : String
  agrees : Bool
deriving DecidableEq, Repr

/-- The results in order, or the first error. -/
def Finding.gather : List (Except RuleError (List Finding)) → Except RuleError (List Finding)
  | [] => .ok []
  | .error e :: _ => .error e
  | .ok fs :: rs =>
    match gather rs with
    | .error e => .error e
    | .ok gs => .ok (fs ++ gs)

/-- The names that only the right record has. -/
def Finding.onlyRight (above : String) (names : List String) (right : Record) : List Finding :=
  (right.names.filter fun n => !names.contains n).map fun n => ⟨above ++ n, false⟩

mutual

/-- The findings on two records that are found under `above`. -/
def Record.findings (above : String) : Record → Record → Except RuleError (List Finding)
  | .mk names _ read, right =>
    let each := names.map fun n => Value.findings (above ++ n) (read n) (right.read n)
    match Finding.gather each with
    | .error e => .error e
    | .ok fs => .ok (fs ++ Finding.onlyRight above names right)
termination_by structural left => left

/-- The findings on two values at a path. A value that the left record names must be there;
one that the right record lacks differs. -/
def Value.findings (path : String) : Option Value → Option Value → Except RuleError (List Finding)
  | none, _ => .error (.unreadableAttribute path)
  | some (.record l), some (.record r) => Record.findings (path ++ ".") l r
  | some v, some w => .ok [⟨path, v.same w⟩]
  | some _, none => .ok [⟨path, false⟩]
termination_by structural left => left

end

/-- The paths at which two records agree, and those at which they do not. -/
structure Comparison where
  matching : List String
  differing : List String
deriving DecidableEq, Repr

namespace Comparison

def ofFindings (fs : List Finding) : Comparison :=
  ⟨(fs.filter (·.agrees)).map (·.path), (fs.filter (!·.agrees)).map (·.path)⟩

def isIdentical (c : Comparison) : Bool := c.differing.isEmpty

end Comparison

def Record.compare (left right : Record) : Except RuleError Comparison :=
  (left.findings "" right).map .ofFindings

end RecordRules
