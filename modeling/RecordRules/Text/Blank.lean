import RecordRules.Text.CharSet

/-!
Blanks: the characters with the Unicode property `White_Space`.
-/

namespace RecordRules.Text

def blanks : CharSet where
  bounds := [
    9, 14, 32, 33, 133, 134, 160, 161, 5760, 5761, 8192, 8203, 8232, 8234, 8239, 8240, 8287,
    8288, 12288, 12289]

def isBlank (c : Char) : Bool := blanks.contains c

/-- Drops the blanks at the front. -/
def skipBlanks (cs : List Char) : List Char := cs.dropWhile isBlank

theorem length_skipBlanks_le (cs : List Char) : (skipBlanks cs).length ≤ cs.length :=
  (List.dropWhile_sublist _).length_le

end RecordRules.Text
