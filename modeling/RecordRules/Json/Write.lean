import RecordRules.Json
import RecordRules.Number.FloatText

/-!
JSON texts with one item or member to a line, two blanks further in on each level.
-/

namespace RecordRules.Json

/-- A character within quotes. -/
def quotedChar (c : Char) : List Char :=
  match c with
  | '"' => ['\\', '"']
  | '\\' => ['\\', '\\']
  | '\x08' => ['\\', 'b']
  | '\x0c' => ['\\', 'f']
  | '\n' => ['\\', 'n']
  | '\r' => ['\\', 'r']
  | '\t' => ['\\', 't']
  | c =>
    if c < ' ' then
      let digits := Nat.toDigits 16 c.toNat
      ['\\', 'u'] ++ List.replicate (4 - digits.length) '0' ++ digits
    else [c]

def quoted (s : String) : String := "\"" ++ String.ofList (s.toList.flatMap quotedChar) ++ "\""

def Number.text : Number → String
  | integer n => RecordRules.Number.showInt n
  | decimal x => if x.isFinite then RecordRules.Number.showFloat x else "null"

/-- A new line at a level. -/
def newLine (level : Nat) : String := "\n" ++ String.ofList (List.replicate (2 * level) ' ')

/-- Texts between brackets, each on a line of its own. -/
def bracketed (level : Nat) (left right : String) : List String → String
  | [] => left ++ right
  | ts =>
    left ++ newLine (level + 1) ++ ("," ++ newLine (level + 1)).intercalate ts
      ++ newLine level ++ right

mutual

/-- The text of a value on a level. -/
def textAt (level : Nat) : Json → String
  | .null => "null"
  | .bool b => if b then "true" else "false"
  | .number n => n.text
  | .string s => quoted s
  | .array items => bracketed level "[" "]" (itemTexts (level + 1) items)
  | .object members => bracketed level "\x7b" "\x7d" (memberTexts (level + 1) members)
termination_by structural j => j

def itemTexts (level : Nat) : List Json → List String
  | [] => []
  | j :: js => textAt level j :: itemTexts level js
termination_by structural js => js

def memberTexts (level : Nat) : List (String × Json) → List String
  | [] => []
  | (n, j) :: ms => (quoted n ++ ": " ++ textAt level j) :: memberTexts level ms
termination_by structural ms => ms

end

def text (j : Json) : String := textAt 0 j

end RecordRules.Json
