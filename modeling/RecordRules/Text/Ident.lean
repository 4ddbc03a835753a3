import RecordRules.Text.Letter

/-!
Identifiers: a letter or an underscore, then letters, numerals and underscores.
-/

namespace RecordRules.Text

def isIdentStart (c : Char) : Bool := isLetter c || c == '_'

def isIdentPart (c : Char) : Bool := isLetter c || isNumeral c || c == '_'

def isIdent : List Char → Bool
  | [] => false
  | c :: cs => isIdentStart c && cs.all isIdentPart

theorem isIdentPart_of_isIdentStart {c : Char} (h : isIdentStart c = true) :
    isIdentPart c = true := by
  simp only [isIdentStart, isIdentPart, Bool.or_eq_true] at h ⊢
  rcases h with h | h
  · exact .inl (.inl h)
  · exact .inr h

end RecordRules.Text
