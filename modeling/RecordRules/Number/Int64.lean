import RecordRules.Number.Digits

/-!
Integers of 64 bits, and when a number is one.
-/

namespace RecordRules.Number

/-- The integer itself, where 64 bits hold it. -/
def int64? (i : Int) : Option Int64 :=
  if -0x8000000000000000 ≤ i ∧ i < 0x8000000000000000 then some (Int64.ofInt i) else none

theorem toInt_of_int64? {i : Int} {n : Int64} (h : int64? i = some n) : n.toInt = i := by
  simp only [int64?] at h
  split at h
  · next hi =>
    cases h
    exact Int64.toInt_ofInt_of_le (by omega) (by omega)
  · simp at h

theorem int64?_toInt (n : Int64) : int64? n.toInt = some n := by
  have h₁ := n.le_toInt
  have h₂ := n.toInt_lt
  simp only [int64?]
  rw [if_pos ⟨by omega, by omega⟩, Int64.ofInt_toInt]

theorem int64?_eq_some {i : Int} {n : Int64} : int64? i = some n ↔ n.toInt = i :=
  ⟨toInt_of_int64?, fun h => h ▸ int64?_toInt n⟩

/-- The floating-point number nearest to an integer, to which it is widened beside one. -/
def widen (n : Int64) : Float := .ofInt n.toInt

/-- Digits, with a minus before them for a negative number. -/
def readInt64? : List Char → Option Int64
  | '-' :: ds => (natural? ds).bind fun n => int64? (-(n : Int))
  | ds => (natural? ds).bind fun n => int64? (n : Int)

def showInt64 (n : Int64) : String := showInt n.toInt

end RecordRules.Number
