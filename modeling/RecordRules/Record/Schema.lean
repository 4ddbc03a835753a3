import RecordRules.Sorted
import RecordRules.Value

/-!
The schema of a record: its type, and the type of each attribute and of those in the
records it holds, under the path that leads there.
-/

namespace RecordRules

mutual

/-- The types of the attributes of a record found under `above`, each before those inside. -/
def Record.types (above : String) : Record → List (String × String)
  | .mk names typeOf read =>
    (names.map fun n =>
      (above ++ n, (typeOf n).getD "unknown") :: Value.types (above ++ n) (read n)).flatten
termination_by structural r => r

def Value.types (path : String) : Option Value → List (String × String)
  | some (.record r) => Record.types (path ++ ".") r
  | _ => []
termination_by structural o => o

end

structure Schema where
  type : String
  attributes : List (String × String)
deriving DecidableEq, Repr

namespace Schema

def typeOf? (s : Schema) (path : String) : Option String := s.attributes.lookup path

end Schema

/-- The paths of the schema are in ascending order; of two types under one path the later
counts. -/
def Record.describe (r : Record) : Schema := ⟨r.schema, Sorted.ofEntries (r.types "")⟩

end RecordRules
