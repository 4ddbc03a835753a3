/-!
Sets of characters as inversion lists.

A set is kept as the ascending list of the code points at which membership changes, the
first being the first member. A character is a member exactly when an odd number of them
lie at or below it.
-/

namespace RecordRules

structure CharSet where
  bounds : List Nat

namespace CharSet

/-- Membership of `n` once the bounds so far have left it at `member`. -/
def odd (n : Nat) (member : Bool) : List Nat → Bool
  | [] => member
  | b :: bs => if b ≤ n then odd n (!member) bs else member

def contains (s : CharSet) (c : Char) : Bool := odd c.toNat false s.bounds

end CharSet

end RecordRules
