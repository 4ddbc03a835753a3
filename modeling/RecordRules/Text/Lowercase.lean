import RecordRules.Text.Cased
import RecordRules.Text.SmallForm

/-!
Texts in small letters.

Every character takes its small form on its own, but for the capital sigma, which becomes
the final one where a word ends: a cased character comes before it and none after it, the
case-ignorable ones between being passed over.
-/

namespace RecordRules.Text

/-- The first character that is not case-ignorable is cased. -/
def meetsCased (cs : List Char) : Bool :=
  match cs.dropWhile isCaseIgnorable with
  | [] => false
  | c :: _ => isCased c

/-- A capital sigma in small letters; `before` is read backwards from it. -/
def smallSigma (before after : List Char) : Char :=
  if meetsCased before && !meetsCased after then 'ς' else 'σ'

def lowerFrom (before : List Char) : List Char → List Char
  | [] => []
  | c :: cs =>
    (if c = 'Σ' then [smallSigma before cs] else smallForm c) ++ lowerFrom (c :: before) cs

def lowercase (s : String) : String := String.ofList (lowerFrom [] s.toList)

end RecordRules.Text
