import RecordRules.Rule

/-!
Rules written as JSON, for showing how a text was understood.
-/

namespace RecordRules

def Operand.toJson : Operand → Json
  | path p => .object [("path", .string p.text)]
  | literal l => .object [("literal", l.toJson)]
  | arithmetic left op right =>
    .object [("arithmetic", .object [
      ("left", left.toJson), ("operator", .string op.name), ("right", right.toJson)])]

def Argument.toJson : Argument → Json
  | operand e => .object [("expr", e.toJson)]
  | list items => .object [("list", .array (items.map Literal.toJson))]

namespace Rule

mutual

def toJson : Rule → Json
  | .comparison left relation right =>
    .object [("type", .string "comparison"), ("left", left.toJson),
      ("operator", .string relation.name), ("right", right.toJson)]
  | .predicate subject verb argument =>
    .object [("type", .string "special"), ("subject", subject.toJson),
      ("verb", .string verb.keyword), ("argument", argument.toJson)]
  | .group connective children =>
    .object [("type", .string "group"), ("operator", .string connective.name),
      ("children", .array (childJsons children))]
termination_by structural r => r

def childJsons : List Rule → List Json
  | [] => []
  | r :: rs => toJson r :: childJsons rs
termination_by structural rs => rs

end

end Rule

end RecordRules
