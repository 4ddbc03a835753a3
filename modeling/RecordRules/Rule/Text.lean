import RecordRules.Rule

/-!
The canonical text of a rule.

Every arithmetic expression and every group stands in parentheses, so that the text says
the whole shape of the tree.
-/

namespace RecordRules

def Operand.chars : Operand → List Char
  | path p => p.text.toList
  | literal l => l.text
  | arithmetic left op right =>
    '(' :: left.chars ++ ' ' :: op.symbol.toList ++ ' ' :: right.chars ++ [')']

/-- Literals with a comma and a space between them. -/
def Literal.listChars : List Literal → List Char
  | [] => []
  | [l] => l.text
  | l :: ls => l.text ++ ',' :: ' ' :: listChars ls

def Argument.chars : Argument → List Char
  | operand e => e.chars
  | list items => '[' :: Literal.listChars items ++ [']']

namespace Rule

mutual

def chars : Rule → List Char
  | .comparison left relation right =>
    left.chars ++ ' ' :: relation.symbol.toList ++ ' ' :: right.chars
  | .predicate subject verb argument =>
    subject.chars ++ ' ' :: verb.keyword.toList ++ ' ' :: argument.chars
  | .group connective children => '(' :: childChars connective children ++ [')']
termination_by structural r => r

/-- The children with the connective between them. -/
def childChars (connective : Connective) : List Rule → List Char
  | [] => []
  | r :: rs => chars r ++ moreChars connective rs
termination_by structural rs => rs

/-- The children, each after a connective. -/
def moreChars (connective : Connective) : List Rule → List Char
  | [] => []
  | r :: rs => ' ' :: connective.symbol.toList ++ ' ' :: chars r ++ moreChars connective rs
termination_by structural rs => rs

end

def text (r : Rule) : String := String.ofList r.chars

end Rule

end RecordRules
