import RecordRules.Evaluate.Apply
import RecordRules.Evaluate.Calculate
import RecordRules.Evaluate.Compare
import RecordRules.Evaluate.Trace
import RecordRules.Path.Resolve

/-!
Evaluating a rule on a record.

Operands are evaluated from left to right, and so are the children of a group until one
of them settles it. An error ends the evaluation at once. The events are gathered along
the way and do not bear on the outcome.
-/

namespace RecordRules

namespace Evaluate

def operand (record : Record) : Operand → Except RuleError Value
  | .path p => p.resolve record
  | .literal l => .ok l.value
  | .arithmetic left op right =>
    match operand record left with
    | .error e => .error e
    | .ok a =>
      match operand record right with
      | .error e => .error e
      | .ok b => calculate a op b

def argument (record : Record) : Argument → Except RuleError Value
  | .operand e => operand record e
  | .list items => .ok (.list (items.map Literal.value))

def comparison (ordering : StringOrdering) (record : Record) (left : Operand) (op : Relation)
    (right : Operand) : Except RuleError Bool :=
  match operand record left with
  | .error e => .error e
  | .ok a =>
    match operand record right with
    | .error e => .error e
    | .ok b => compare ordering a op b

def predicate (record : Record) (subject : Operand) (verb : Verb) (arg : Argument) :
    Except RuleError Bool :=
  match operand record subject with
  | .error e => .error e
  | .ok s =>
    match argument record arg with
    | .error e => .error e
    | .ok a => apply s verb a

mutual

/-- The events and the outcome of the rule at a position. -/
def run (ordering : StringOrdering) (record : Record) (position : List Nat) :
    Rule → List Event × Except RuleError Bool
  | .comparison left op right =>
    let outcome := comparison ordering record left op right
    ([.judged position (.comparison left op right) outcome], outcome)
  | .predicate subject verb arg =>
    let outcome := predicate record subject verb arg
    ([.judged position (.predicate subject verb arg) outcome], outcome)
  | .group connective children =>
    let (events, outcome) := runChildren ordering record position connective 0 children
    (.opened position connective children.length :: events, outcome)
termination_by structural r => r

/-- The children of a group from number `i` on, none before having settled it. -/
def runChildren (ordering : StringOrdering) (record : Record) (position : List Nat)
    (connective : Connective) (i : Nat) : List Rule → List Event × Except RuleError Bool
  | [] => ([.exhausted position connective], .ok (!connective.decisive))
  | r :: rs =>
    match run ordering record (position ++ [i]) r with
    | (events, .error e) => (events, .error e)
    | (events, .ok b) =>
      if b = connective.decisive then (events ++ [.settled position connective i], .ok b)
      else
        let (more, outcome) := runChildren ordering record position connective (i + 1) rs
        (events ++ more, outcome)
termination_by structural rs => rs

end

end Evaluate

/-- How rules are executed: the order of strings, and whether the events are told. -/
structure Executor where
  ordering : StringOrdering := .ordinal
  traced : Bool := false
deriving DecidableEq, Repr

/-- The outcome of an evaluation, whether its rule came from the cache, and the lines of
its trace. -/
structure Evaluation where
  outcome : Except RuleError Bool
  cacheHit : Bool
  trace : List String

namespace Evaluation

/-- The rule matched; a failed evaluation counts as no match. -/
def matched (e : Evaluation) : Bool :=
  match e.outcome with
  | .ok b => b
  | .error _ => false

def error? (e : Evaluation) : Option RuleError :=
  match e.outcome with
  | .ok _ => none
  | .error err => some err

/-- The code of the error, or zero. -/
def code (e : Evaluation) : Nat :=
  match e.outcome with
  | .ok _ => 0
  | .error err => err.code

def isSuccess (e : Evaluation) : Bool := e.error?.isNone

end Evaluation

namespace Executor

def withTrace (x : Executor) : Executor := { x with traced := true }

def evaluate (x : Executor) (rule : Rule) (record : Record) : Except RuleError Bool :=
  (Evaluate.run x.ordering record [] rule).2

def execute (x : Executor) (rule : Rule) (record : Record) : Evaluation :=
  let (events, outcome) := Evaluate.run x.ordering record [] rule
  ⟨outcome, false, if x.traced then events.map Event.line else []⟩

end Executor

end RecordRules
