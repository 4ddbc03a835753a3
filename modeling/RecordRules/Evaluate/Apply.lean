import RecordRules.Error
import RecordRules.Text.Search
import RecordRules.Value.FoldCase
import RecordRules.Value.Same

/-!
Applying a verb to a subject and an argument.

A verb that ignores case sees both in small letters; a negated one turns the answer
around, and not the errors.
-/

namespace RecordRules.Evaluate

/-- The verb met a value of another kind than it takes. -/
def mismatch (verb : Verb) (expected : Kind) (actual : Value) : RuleError :=
  .typeMismatch (.verb verb) (.kind expected) actual.kind

def wantStr (verb : Verb) : Value → Except RuleError String
  | .str s => .ok s
  | v => .error (mismatch verb .str v)

def wantInt (verb : Verb) : Value → Except RuleError Int64
  | .int i => .ok i
  | v => .error (mismatch verb .int v)

/-- A test of two strings; the subject is looked at first. -/
def testStrs (verb : Verb) (test : String → String → Bool) (subject argument : Value) :
    Except RuleError Bool :=
  match wantStr verb subject with
  | .error e => .error e
  | .ok s =>
    match wantStr verb argument with
    | .error e => .error e
    | .ok t => .ok (test s t)

def testContains (verb : Verb) (subject argument : Value) : Except RuleError Bool :=
  match subject with
  | .set items | .list items => .ok (items.any fun v => v.same argument)
  | .map entries => .ok (entries.any fun e => e.1.same argument)
  | v => testStrs verb Text.contains v argument

/-- Collections and records are never members. -/
def testAmong (verb : Verb) (subject argument : Value) : Except RuleError Bool :=
  match argument with
  | .set items | .list items =>
    if subject.kind.isCollection || subject.kind == .record then
      .error (.invalidOperator (.verb verb) subject.kind)
    else .ok (items.any fun v => v.same subject)
  | v => .error (mismatch verb .list v)

def testSize (verb : Verb) (op : Relation) (subject argument : Value) : Except RuleError Bool :=
  match subject.cardinality? with
  | none => .error (mismatch verb .list subject)
  | some n =>
    match wantInt verb argument with
    | .error e => .error e
    | .ok i => .ok (op.holds (Ord.compare (n : Int) i.toInt))

/-- The verb without its negation, on values that are folded where it ignores case. -/
def test (verb : Verb) (subject argument : Value) : Except RuleError Bool :=
  match verb with
  | .contains _ _ => testContains verb subject argument
  | .startsWith _ _ => testStrs verb Text.startsWith subject argument
  | .endsWith _ _ => testStrs verb Text.endsWith subject argument
  | .equals _ => testStrs verb (· == ·) subject argument
  | .among _ _ => testAmong verb subject argument
  | .size op => testSize verb op subject argument

def apply (subject : Value) (verb : Verb) (argument : Value) : Except RuleError Bool :=
  let outcome :=
    if verb.ignoresCase then test verb subject.foldCase argument.foldCase
    else test verb subject argument
  outcome.map (· != verb.isNegated)

end RecordRules.Evaluate
