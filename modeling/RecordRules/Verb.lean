import RecordRules.Operator

/-!
The verbs of rules.

Each verb but the size tests can be negated, and the text and membership verbs can ignore
case. The keyword of a verb spells these choices out.
-/

namespace RecordRules

inductive Verb where
  | contains (negated ignoreCase : Bool)
  | startsWith (negated ignoreCase : Bool)
  | endsWith (negated ignoreCase : Bool)
  | among (negated ignoreCase : Bool)
  | equals (negated : Bool)
  | size (relation : Relation)
deriving DecidableEq, Repr

namespace Verb

def all : List Verb := [
  .contains false false, .contains true false,
  .startsWith false false, .startsWith true false,
  .endsWith false false, .endsWith true false,
  .among false false, .among true false,
  .contains false true, .contains true true,
  .startsWith false true, .startsWith true true,
  .endsWith false true, .endsWith true true,
  .among false true, .among true true,
  .equals false, .equals true,
  .size .eq, .size .ne, .size .lt, .size .le, .size .gt, .size .ge]

def keyword : Verb → String
  | contains false false => "contains"
  | contains true false => "notContains"
  | contains false true => "containsCI"
  | contains true true => "notContainsCI"
  | startsWith false false => "startsWith"
  | startsWith true false => "notStartsWith"
  | startsWith false true => "startsWithCI"
  | startsWith true true => "notStartsWithCI"
  | endsWith false false => "endsWith"
  | endsWith true false => "notEndsWith"
  | endsWith false true => "endsWithCI"
  | endsWith true true => "notEndsWithCI"
  | among false false => "in"
  | among true false => "notIn"
  | among false true => "inCI"
  | among true true => "notInCI"
  | equals false => "equalsCI"
  | equals true => "notEqualsCI"
  | size .eq => "sizeEQ"
  | size .ne => "sizeNE"
  | size .lt => "sizeLT"
  | size .le => "sizeLE"
  | size .gt => "sizeGT"
  | size .ge => "sizeGE"

/-- The verb with a keyword, which is told apart from its other spellings by case. -/
def ofKeyword? (word : String) : Option Verb := all.find? (·.keyword == word)

def isNegated : Verb → Bool
  | contains n _ | startsWith n _ | endsWith n _ | among n _ | equals n => n
  | size _ => false

def ignoresCase : Verb → Bool
  | contains _ i | startsWith _ i | endsWith _ i | among _ i => i
  | equals _ => true
  | size _ => false

/-- The verb asks for membership in a list, which a rule may write out. -/
def isMembership : Verb → Bool
  | among _ _ => true
  | _ => false

theorem mem_all (v : Verb) : v ∈ all := by
  rcases v with ⟨_ | _, _ | _⟩ | ⟨_ | _, _ | _⟩ | ⟨_ | _, _ | _⟩ | ⟨_ | _, _ | _⟩ |
    ⟨_ | _⟩ | ⟨_ | _⟩ <;> decide

theorem ofKeyword?_keyword (v : Verb) : ofKeyword? v.keyword = some v := by
  rcases v with ⟨_ | _, _ | _⟩ | ⟨_ | _, _ | _⟩ | ⟨_ | _, _ | _⟩ | ⟨_ | _, _ | _⟩ |
    ⟨_ | _⟩ | ⟨_ | _⟩ <;> rfl

theorem keyword_of_ofKeyword? {word : String} {v : Verb} (h : ofKeyword? word = some v) :
    v.keyword = word := by
  simpa using List.find?_some h

end Verb

end RecordRules
