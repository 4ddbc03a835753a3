/-!
Finding one text in another.
-/

namespace RecordRules.Text

/-- The text `t` stands somewhere in the other one. -/
def occursIn (t : List Char) : List Char → Bool
  | [] => t.isEmpty
  | c :: cs => t.isPrefixOf (c :: cs) || occursIn t cs

theorem occursIn_iff {t s : List Char} : occursIn t s = true ↔ t <:+: s := by
  induction s with
  | nil => simp [occursIn]
  | cons c cs ih => simp [occursIn, ih, List.infix_cons_iff]

def contains (s t : String) : Bool := occursIn t.toList s.toList

def startsWith (s t : String) : Bool := t.toList.isPrefixOf s.toList

def endsWith (s t : String) : Bool := t.toList.isSuffixOf s.toList

end RecordRules.Text
