import RecordRules.Text.Escaped
import RecordRules.Value

/-!
Values in text, in two forms: the plain one for reading and the detailed one that also
names the kind of each value. In the detailed form a record is known by its schema.
-/

namespace RecordRules.Value

def showBool (b : Bool) : String := if b then "true" else "false"

mutual

def text : Value → String
  | .bool b => showBool b
  | .int i => Number.showInt64 i
  | .float x => Number.showFloat x
  | .str s => Text.escaped s
  | .set items => "\x7b" ++ ", ".intercalate (texts items) ++ "\x7d"
  | .list items => "[" ++ ", ".intercalate (texts items) ++ "]"
  | .map entries => "\x7b" ++ ", ".intercalate (entryTexts entries) ++ "\x7d"
  | .record r => recordText r
termination_by structural v => v

def texts : List Value → List String
  | [] => []
  | v :: vs => text v :: texts vs
termination_by structural vs => vs

def entryTexts : List (Value × Value) → List String
  | [] => []
  | (k, v) :: es => (text k ++ ": " ++ text v) :: entryTexts es
termination_by structural es => es

def recordText : Record → String
  | .mk names _ read =>
    "\x7b" ++ ", ".intercalate (names.map fun n => n ++ "=" ++ readText (read n)) ++ "\x7d"
termination_by structural r => r

/-- An attribute that is named but cannot be read shows as a question mark. -/
def readText : Option Value → String
  | some v => text v
  | none => "?"
termination_by structural o => o

end

mutual

def detail : Value → String
  | .bool b => "Bool(" ++ showBool b ++ ")"
  | .int i => "Int(" ++ Number.showInt64 i ++ ")"
  | .float x => "Float(" ++ Number.showFloat x ++ ")"
  | .str s => "Str(" ++ Text.escaped s ++ ")"
  | .set items => "Set([" ++ ", ".intercalate (details items) ++ "])"
  | .list items => "List([" ++ ", ".intercalate (details items) ++ "])"
  | .map entries => "Map([" ++ ", ".intercalate (entryDetails entries) ++ "])"
  | .record r => "Record(" ++ Text.escaped r.schema ++ ")"
termination_by structural v => v

def details : List Value → List String
  | [] => []
  | v :: vs => detail v :: details vs
termination_by structural vs => vs

def entryDetails : List (Value × Value) → List String
  | [] => []
  | (k, v) :: es => ("(" ++ detail k ++ ", " ++ detail v ++ ")") :: entryDetails es
termination_by structural es => es

end

end RecordRules.Value
