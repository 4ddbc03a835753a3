import RecordRules.Text.Lowercase
import RecordRules.Value

/-!
Values in small letters, for the verbs that ignore case: strings and all that collections
hold, at any depth. Records are left as they are.
-/

namespace RecordRules.Value

mutual

def foldCase : Value → Value
  | .str s => .str (Text.lowercase s)
  | .set items => .set (foldCases items)
  | .list items => .list (foldCases items)
  | .map entries => .map (foldEntries entries)
  | v => v
termination_by structural v => v

def foldCases : List Value → List Value
  | [] => []
  | v :: vs => foldCase v :: foldCases vs
termination_by structural vs => vs

def foldEntries : List (Value × Value) → List (Value × Value)
  | [] => []
  | (k, v) :: es => (foldCase k, foldCase v) :: foldEntries es
termination_by structural es => es

end

theorem kind_foldCase (v : Value) : v.foldCase.kind = v.kind := by
  cases v <;> rfl

end RecordRules.Value
