import RecordRules.Text.Lowercase

/-!
How strings are ordered: by their code points, or by those of their small forms. Equality
of strings is exact under either.
-/

namespace RecordRules

inductive StringOrdering where
  | ordinal
  | caseInsensitive
deriving DecidableEq, Repr

namespace StringOrdering

def name : StringOrdering → String
  | ordinal => "Ordinal"
  | caseInsensitive => "CaseInsensitive"

def ofName? (name : String) : Option StringOrdering :=
  if name = "ordinal" ∨ name = "byte" ∨ name = "bytewise" then some ordinal
  else if name = "case_insensitive" ∨ name = "ci" then some caseInsensitive
  else none

/-- The order of the code points, which is that of the bytes. -/
def byCodePoint (a b : String) : Ordering :=
  if a < b then .lt else if a = b then .eq else .gt

def compare : StringOrdering → String → String → Ordering
  | ordinal, a, b => byCodePoint a b
  | caseInsensitive, a, b => byCodePoint (Text.lowercase a) (Text.lowercase b)

end StringOrdering

end RecordRules
