import RecordRules.Literal
import RecordRules.Verb

/-!
The tokens of a rule. A path, with its points and indices, is one token.
-/

namespace RecordRules

/-- What a token says. -/
inductive Lexeme where
  | path (text : String)
  | literal (l : Literal)
  | relation (r : Relation)
  | connective (c : Connective)
  | arithmetic (a : Arithmetic)
  | verb (v : Verb)
  | openParen
  | closeParen
  | openBracket
  | closeBracket
  | comma
deriving DecidableEq, Repr

namespace Lexeme

/-- An operand can end here, so that a minus that follows takes a difference. -/
def endsOperand : Lexeme → Bool
  | path _ | literal _ | closeParen | closeBracket => true
  | _ => false

/-- A parenthesised operand can be followed by this, and a parenthesised condition not. -/
def followsOperand : Lexeme → Bool
  | arithmetic _ | relation _ | verb _ => true
  | _ => false

/-- The lexeme as messages name it. -/
def label : Lexeme → String
  | path text => "'" ++ text ++ "'"
  | literal (.str s) => Text.escaped s
  | literal l => String.ofList l.text
  | relation r => "'" ++ r.symbol ++ "'"
  | connective c => "'" ++ c.symbol ++ "'"
  | arithmetic a => "'" ++ a.symbol ++ "'"
  | verb v => "'" ++ v.keyword ++ "'"
  | openParen => "'('"
  | closeParen => "')'"
  | openBracket => "'['"
  | closeBracket => "']'"
  | comma => "','"

end Lexeme

/-- A lexeme and the byte at which it begins. -/
structure Token where
  lexeme : Lexeme
  offset : Nat
deriving DecidableEq, Repr

end RecordRules
