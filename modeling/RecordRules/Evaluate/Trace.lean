import RecordRules.Error
import RecordRules.Rule.Text

/-!
What happens while a rule is evaluated, event by event, and the line that tells of each.
A node is known by the indices of the children that lead to it from the root.
-/

namespace RecordRules

inductive Event where
  /-- A group is entered. -/
  | opened (position : List Nat) (connective : Connective) (children : Nat)
  /-- A comparison or predicate has its outcome. -/
  | judged (position : List Nat) (leaf : Rule) (outcome : Except RuleError Bool)
  /-- A child settles its group. -/
  | settled (position : List Nat) (connective : Connective) (child : Nat)
  /-- No child has settled its group. -/
  | exhausted (position : List Nat) (connective : Connective)

namespace Event

def place (position : List Nat) : String :=
  "root" ++ String.join (position.map fun i => ".children[" ++ Number.showNat i ++ "]")

@[simp] theorem place_nil : place [] = "root" := rfl

theorem place_append_singleton (position : List Nat) (i : Nat) :
    place (position ++ [i]) = place position ++ ".children[" ++ toString i ++ "]" := by
  simp [place, Number.showNat_eq, String.append_assoc]

def verdict : Except RuleError Bool → String
  | .ok true => "MATCHED"
  | .ok false => "NOT_MATCHED"
  | .error e => "ERROR " ++ Number.showNat e.code ++ " (" ++ e.message ++ ")"

@[simp] theorem verdict_true : verdict (.ok true) = "MATCHED" := rfl

@[simp] theorem verdict_false : verdict (.ok false) = "NOT_MATCHED" := rfl

@[simp] theorem verdict_error (e : RuleError) :
    verdict (.error e) = "ERROR " ++ toString e.code ++ " (" ++ e.message ++ ")" := rfl

def line : Event → String
  | opened position connective children =>
    place position ++ ": 开始评估 " ++ connective.name ++ " 组 (共 " ++ Number.showNat children
      ++ " 个子节点)"
  | judged position leaf outcome =>
    place position ++ ": " ++ leaf.text ++ " => " ++ verdict outcome
  | settled position connective child =>
    place position ++ ": " ++ connective.name ++ " 短路 - 子节点 " ++ Number.showNat child
      ++ (if connective.decisive then " 匹配" else " 不匹配")
  | exhausted position .and => place position ++ ": AND 组全部匹配"
  | exhausted position .or => place position ++ ": OR 组无匹配"

section Lines

variable (position : List Nat)

theorem line_judged (leaf : Rule) (outcome : Except RuleError Bool) :
    line (.judged position leaf outcome) =
      place position ++ ": " ++ (leaf.text ++ " => " ++ verdict outcome) := by
  simp [line, String.append_assoc]

theorem line_opened (connective : Connective) (children : Nat) :
    line (.opened position connective children) = place position ++ ": " ++
      ("开始评估 " ++ connective.name ++ " 组 (共 " ++ toString children ++ " 个子节点)") := by
  have h : ": 开始评估 " = ": " ++ "开始评估 " := rfl
  simp only [line, Number.showNat_eq, h, String.append_assoc]

theorem line_settled_and (child : Nat) : line (.settled position .and child) =
    place position ++ ": " ++ ("AND 短路 - 子节点 " ++ toString child ++ " 不匹配") := by
  have h : "AND 短路 - 子节点 " = Connective.name .and ++ " 短路 - 子节点 " := rfl
  simp only [line, Number.showNat_eq, h, String.append_assoc]
  rfl

theorem line_settled_or (child : Nat) : line (.settled position .or child) =
    place position ++ ": " ++ ("OR 短路 - 子节点 " ++ toString child ++ " 匹配") := by
  have h : "OR 短路 - 子节点 " = Connective.name .or ++ " 短路 - 子节点 " := rfl
  simp only [line, Number.showNat_eq, h, String.append_assoc]
  rfl

theorem line_exhausted_and :
    line (.exhausted position .and) = place position ++ ": " ++ "AND 组全部匹配" := by
  rw [String.append_assoc]
  rfl

theorem line_exhausted_or :
    line (.exhausted position .or) = place position ++ ": " ++ "OR 组无匹配" := by
  rw [String.append_assoc]
  rfl

end Lines

end Event

end RecordRules
