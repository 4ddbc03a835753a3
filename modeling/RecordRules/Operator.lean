/-!
The operators of rules: relations between values, connectives between conditions and the
arithmetic of operands.
-/

namespace RecordRules

inductive Relation where
  | eq | ne | lt | le | gt | ge
deriving DecidableEq, Repr

namespace Relation

def all : List Relation := [.eq, .ne, .lt, .le, .gt, .ge]

def symbol : Relation → String
  | eq => "==" | ne => "!=" | lt => "<" | le => "<=" | gt => ">" | ge => ">="

def name : Relation → String
  | eq => "eq" | ne => "ne" | lt => "lt" | le => "le" | gt => "gt" | ge => "ge"

/-- Whether the relation holds of two values that lie so to each other. -/
def holds : Relation → Ordering → Bool
  | eq, o => o == .eq
  | ne, o => o != .eq
  | lt, o => o == .lt
  | le, o => o != .gt
  | gt, o => o == .gt
  | ge, o => o != .lt

/-- The relation asks about equality alone. -/
def isEquality : Relation → Bool
  | eq | ne => true
  | _ => false

end Relation

inductive Connective where
  | and | or
deriving DecidableEq, Repr

namespace Connective

def symbol : Connective → String
  | and => "&&" | or => "||"

def name : Connective → String
  | and => "AND" | or => "OR"

/-- The answer of one child that settles the whole group. -/
def decisive : Connective → Bool
  | and => false | or => true

end Connective

inductive Arithmetic where
  | add | sub | mul | div | rem
deriving DecidableEq, Repr

namespace Arithmetic

def all : List Arithmetic := [.add, .sub, .mul, .div, .rem]

def symbol : Arithmetic → String
  | add => "+" | sub => "-" | mul => "*" | div => "/" | rem => "%"

def name : Arithmetic → String
  | add => "add" | sub => "sub" | mul => "mul" | div => "div" | rem => "rem"

/-- Products bind their operands more tightly than sums. -/
def isMultiplicative : Arithmetic → Bool
  | mul | div | rem => true
  | add | sub => false

/-- The operator has no answer when its right operand is zero. -/
def divides : Arithmetic → Bool
  | div | rem => true
  | _ => false

end Arithmetic

end RecordRules
