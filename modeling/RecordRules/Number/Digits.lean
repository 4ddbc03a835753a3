/-!
Whole numbers in decimal digits.
-/

namespace RecordRules.Number

/-- The number that a run of digits spells. -/
def ofDigits (ds : List Char) : Nat := ds.foldl (fun n d => 10 * n + (d.toNat - 48)) 0

def digits (n : Nat) : List Char := Nat.toDigits 10 n

def natural? (ds : List Char) : Option Nat :=
  if ds ≠ [] ∧ ds.all (·.isDigit) then some (ofDigits ds) else none

def intDigits : Int → List Char
  | .ofNat n => digits n
  | .negSucc n => '-' :: digits (n + 1)

def showNat (n : Nat) : String := String.ofList (digits n)

theorem showNat_eq (n : Nat) : showNat n = toString n := rfl

def showInt (i : Int) : String := String.ofList (intDigits i)

end RecordRules.Number
