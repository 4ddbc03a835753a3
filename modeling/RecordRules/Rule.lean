import RecordRules.Literal
import RecordRules.Path
import RecordRules.Verb

/-!
Rules as trees.

A leaf compares two operands or applies a verb to a subject and an argument; a group
joins its children with one connective. An operand is a path, a literal or an arithmetic
expression of operands.
-/

namespace RecordRules

inductive Operand where
  | path (p : Path)
  | literal (l : Literal)
  | arithmetic (left : Operand) (op : Arithmetic) (right : Operand)
deriving DecidableEq

/-- The argument of a verb: an operand, or a list written out. -/
inductive Argument where
  | operand (e : Operand)
  | list (items : List Literal)
deriving DecidableEq

inductive Rule where
  | comparison (left : Operand) (relation : Relation) (right : Operand)
  | predicate (subject : Operand) (verb : Verb) (argument : Argument)
  | group (connective : Connective) (children : List Rule)

/-- The paths of an operand from left to right. -/
def Operand.paths : Operand → List Path
  | path p => [p]
  | literal _ => []
  | arithmetic left _ right => left.paths ++ right.paths

def Argument.paths : Argument → List Path
  | operand e => e.paths
  | list _ => []

namespace Rule

mutual

/-- The paths of a rule from left to right, with repetitions. -/
def paths : Rule → List Path
  | .comparison left _ right => left.paths ++ right.paths
  | .predicate subject _ argument => subject.paths ++ argument.paths
  | .group _ children => childPaths children
termination_by structural r => r

def childPaths : List Rule → List Path
  | [] => []
  | r :: rs => paths r ++ childPaths rs
termination_by structural rs => rs

end

mutual

/-- How many comparisons and predicates a rule has. -/
def leafCount : Rule → Nat
  | .comparison _ _ _ => 1
  | .predicate _ _ _ => 1
  | .group _ children => childLeafCount children
termination_by structural r => r

def childLeafCount : List Rule → Nat
  | [] => 0
  | r :: rs => leafCount r + childLeafCount rs
termination_by structural rs => rs

end

mutual

/-- How deep groups are nested in each other. -/
def depth : Rule → Nat
  | .comparison _ _ _ => 0
  | .predicate _ _ _ => 0
  | .group _ children => 1 + childDepth children
termination_by structural r => r

def childDepth : List Rule → Nat
  | [] => 0
  | r :: rs => max (depth r) (childDepth rs)
termination_by structural rs => rs

end

end Rule

/-! ### Equality with floating-point literals compared as numbers -/

def Operand.same : Operand → Operand → Bool
  | path p, path q => p == q
  | literal a, literal b => a.same b
  | arithmetic a op b, arithmetic a' op' b' => a.same a' && op == op' && b.same b'
  | _, _ => false

def sameItems : List Literal → List Literal → Bool
  | [], [] => true
  | a :: as, b :: bs => a.same b && sameItems as bs
  | _, _ => false

def Argument.same : Argument → Argument → Bool
  | operand a, operand b => a.same b
  | list as, list bs => sameItems as bs
  | _, _ => false

namespace Rule

mutual

def same : Rule → Rule → Bool
  | .comparison a r b, .comparison a' r' b' => a.same a' && r == r' && b.same b'
  | .predicate s v a, .predicate s' v' a' => s.same s' && v == v' && a.same a'
  | .group c rs, .group c' rs' => c == c' && sameChildren rs rs'
  | _, _ => false
termination_by structural r => r

def sameChildren : List Rule → List Rule → Bool
  | [], [] => true
  | r :: rs, r' :: rs' => same r r' && sameChildren rs rs'
  | _, _ => false
termination_by structural rs => rs

end

end Rule

end RecordRules
