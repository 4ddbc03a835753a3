import RecordRules.Lexeme
import RecordRules.Path
import RecordRules.Text.Window

/-!
What can go wrong, with the code, the kind and the wording of each cause.

Codes are grouped by stage: from 101 for the lexical causes, from 201 for the
grammatical ones, from 301 for reading attributes, from 401 for evaluation, and 900 for
what is not the fault of a rule. Zero stands for success.
-/

namespace RecordRules

inductive LexFault where
  | unterminatedString
  | unexpectedChar (c : Char)
  | malformedNumber (text : String)
  | unterminatedIndex
deriving DecidableEq, Repr

namespace LexFault

def code : LexFault → Nat
  | unterminatedString => 101
  | unexpectedChar _ => 102
  | malformedNumber _ => 103
  | unterminatedIndex => 104

def message : LexFault → String
  | unterminatedString => "字符串字面量未闭合"
  | unexpectedChar c => "无法识别的字符 '" ++ String.singleton c ++ "'"
  | malformedNumber text => "无效的数字 '" ++ text ++ "'"
  | unterminatedIndex => "下标括号未闭合"

end LexFault

inductive ParseFault where
  | unbalancedParenthesis
  | mismatchedQuote
  | mixedConnectives (expected found : Connective)
  | unknownOperator (word : String)
  | malformedLiteral (lexeme : Lexeme)
  | emptySubexpression
  | unexpectedToken (lexeme : Lexeme)
  | unexpectedEnd
  | nestingTooDeep (limit : Nat)
  | invalidPath (text : String)
deriving DecidableEq, Repr

namespace ParseFault

def code : ParseFault → Nat
  | unbalancedParenthesis => 201
  | mismatchedQuote => 202
  | mixedConnectives _ _ => 203
  | unknownOperator _ => 204
  | malformedLiteral _ => 205
  | emptySubexpression => 206
  | unexpectedToken _ => 207
  | unexpectedEnd => 208
  | nestingTooDeep _ => 209
  | invalidPath _ => 210

def message : ParseFault → String
  | unbalancedParenthesis => "括号不匹配"
  | mismatchedQuote => "引号不匹配"
  | mixedConnectives expected found =>
    "同一层级混用逻辑操作符: 期望 " ++ expected.symbol ++ ", 实际 " ++ found.symbol
  | unknownOperator word => "未知的操作符 '" ++ word ++ "'"
  | malformedLiteral lexeme => "无效的字面量 " ++ lexeme.label
  | emptySubexpression => "子表达式为空"
  | unexpectedToken lexeme => "意外的记号 " ++ lexeme.label
  | unexpectedEnd => "规则意外结束"
  | nestingTooDeep limit => "嵌套层数超过上限 " ++ Number.showNat limit
  | invalidPath text => "无效的属性路径 '" ++ text ++ "'"

/-- What is wrong with a path, told of the path as a whole. -/
def ofPath (text : String) : PathFault → ParseFault
  | .invalid => invalidPath text
  | .openQuote => mismatchedQuote

end ParseFault

/-- What was to be applied when evaluation failed. -/
inductive Operator where
  | relation (r : Relation)
  | arithmetic (a : Arithmetic)
  | verb (v : Verb)
deriving DecidableEq, Repr

def Operator.symbol : Operator → String
  | relation r => r.symbol
  | arithmetic a => a.symbol
  | verb v => v.keyword

inductive Expected where
  | kind (k : Kind)
  | numeric
deriving DecidableEq, Repr

def Expected.name : Expected → String
  | kind k => k.name
  | numeric => "numeric"

inductive RuleError where
  | lex (fault : LexFault) (offset : Nat)
  | parse (fault : ParseFault) (offset : Nat) (context : String)
  | attributeNotFound (path segment : String)
  | indexOutOfRange (path : String) (index : Int64) (length : Nat)
  | keyNotFound (path : String) (key : Key)
  | indexTypeMismatch (path : String) (segment : Segment) (actual : Kind)
  | typeMismatch (operator : Operator) (expected : Expected) (actual : Kind)
  | invalidOperator (operator : Operator) (kind : Kind)
  | divisionByZero (operator : Arithmetic)
  | arithmeticOverflow (operator : Arithmetic)
  | unknownOrdering (name : String)
  | unreadableAttribute (path : String)
deriving DecidableEq, Repr

namespace RuleError

/-- A grammatical error with the text around it. -/
def parseAt (source : String) (fault : ParseFault) (offset : Nat) : RuleError :=
  parse fault offset (Text.excerpt source offset)

def code : RuleError → Nat
  | lex fault _ => fault.code
  | parse fault _ _ => fault.code
  | attributeNotFound _ _ => 301
  | indexOutOfRange _ _ _ => 302
  | keyNotFound _ _ => 303
  | indexTypeMismatch _ _ _ => 304
  | typeMismatch _ _ _ => 401
  | invalidOperator _ _ => 402
  | divisionByZero _ => 403
  | arithmeticOverflow _ => 404
  | unknownOrdering _ => 900
  | unreadableAttribute _ => 900

def kind : RuleError → String
  | lex _ _ => "LEX_ERROR"
  | parse _ _ _ => "PARSE_ERROR"
  | attributeNotFound _ _ => "ATTRIBUTE_NOT_FOUND"
  | indexOutOfRange _ _ _ => "INDEX_OUT_OF_RANGE"
  | keyNotFound _ _ => "KEY_NOT_FOUND"
  | indexTypeMismatch _ _ _ => "INDEX_TYPE_MISMATCH"
  | typeMismatch _ _ _ => "TYPE_MISMATCH"
  | invalidOperator _ _ => "INVALID_OPERATOR"
  | divisionByZero _ => "DIVISION_BY_ZERO"
  | arithmeticOverflow _ => "ARITHMETIC_OVERFLOW"
  | unknownOrdering _ => "INTERNAL_ERROR"
  | unreadableAttribute _ => "INTERNAL_ERROR"

def message : RuleError → String
  | lex fault offset => "词法错误 (偏移 " ++ Number.showNat offset ++ "): " ++ fault.message
  | parse fault offset context =>
    "语法错误 (偏移 " ++ Number.showNat offset ++ ", 附近 '" ++ context ++ "'): " ++ fault.message
  | attributeNotFound path segment => "属性不存在: " ++ path ++ " (缺失段 '" ++ segment ++ "')"
  | indexOutOfRange path index length =>
    "下标越界: " ++ path ++ " 下标 " ++ Number.showInt64 index ++ ", 长度 " ++ Number.showNat length
  | keyNotFound path key => "键不存在: " ++ path ++ " 键 " ++ key.text
  | indexTypeMismatch path segment actual =>
    "无法访问: " ++ path ++ " 的段 '" ++ segment.text ++ "' 作用于类型 " ++ actual.name
  | typeMismatch operator expected actual =>
    "类型不匹配: " ++ operator.symbol ++ " 期望 " ++ expected.name ++ ", 实际 " ++ actual.name
  | invalidOperator operator kind =>
    "无效的操作符: " ++ operator.symbol ++ " 不支持类型 " ++ kind.name
  | divisionByZero operator => "除零错误: " ++ operator.symbol
  | arithmeticOverflow operator => "算术溢出: " ++ operator.symbol
  | unknownOrdering name => "内部错误: 无效的引擎配置: unknown string ordering '" ++ name ++ "'"
  | unreadableAttribute path => "内部错误: 属性 " ++ path ++ " 已列出但无法读取"

/-- The text of the rule is at fault. -/
def isCompileError : RuleError → Bool
  | lex _ _ | parse _ _ _ => true
  | _ => false

/-- A path could not be followed. -/
def isResolutionError (e : RuleError) : Bool := 301 ≤ e.code && e.code ≤ 304

end RuleError

end RecordRules
