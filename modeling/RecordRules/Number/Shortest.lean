import RecordRules.Number.Binary
import RecordRules.Number.Digits

/-!
The fewest decimal digits that read back as the same floating-point number.

A finite number is a whole multiple of a power of ten, and so are the two ends of the
span of reals that round to it. On the grid of the multiples of a power of ten only the
two neighbours of the number can be the nearest point of the span, so the coarsest grid
with a neighbour in the span gives the fewest digits. Of two such neighbours the nearer
is taken, and the upper one of a tie.
-/

namespace RecordRules.Number

/-- The whole numbers between two ends, which belong to it when it is closed. -/
structure Span where
  low : Nat
  high : Nat
  closed : Bool

def Span.has (s : Span) (n : Nat) : Bool :=
  if s.closed then s.low ≤ n && n ≤ s.high else s.low < n && n < s.high

/-- The neighbour of `v` among the multiples of `10 ^ k` that lies in the span, as the
multiplier. -/
def Span.neighbour (s : Span) (v k : Nat) : Option Nat :=
  let g := Nat.pow 10 k
  let t := v / g
  match s.has (t * g), s.has ((t + 1) * g) with
  | true, true => if (2 * t + 1) * g ≤ 2 * v then some (t + 1) else some t
  | true, false => some t
  | false, true => some (t + 1)
  | false, false => none

/-- A number of the span on the coarsest grid up to `10 ^ k`: its multiplier and the
exponent of the grid. -/
def Span.coarsest (s : Span) (v : Nat) : Nat → Nat × Nat
  | 0 => (v, 0)
  | k + 1 =>
    match s.neighbour v (k + 1) with
    | some t => (t, k + 1)
    | none => s.coarsest v k

/-- Decimal digits, the first of which stands at the power `10 ^ exponent`. -/
structure Decimal where
  digits : List Char
  exponent : Int
deriving DecidableEq, Repr

/-- Without the zeros at the end, but for the only one. -/
def trimZeros (ds : List Char) : List Char :=
  match (ds.reverse.dropWhile (· == '0')).reverse with
  | [] => ['0']
  | ds => ds

/-- The shortest digits of a positive finite number. Four times the mantissa keeps the
ends of the span whole, and powers of five turn the power of two into one of ten. -/
def Binary.shortest (b : Binary) : Decimal :=
  let e := b.exponent - 2
  let scale := if 0 ≤ e then 1 <<< e.toNat else Nat.pow 5 (-e).toNat
  let v := 4 * b.mantissa * scale
  let low := (4 * b.mantissa - (if b.lowest then 1 else 2)) * scale
  let high := (4 * b.mantissa + 2) * scale
  let s : Span := ⟨low, high, b.mantissa % 2 == 0⟩
  let (t, k) := s.coarsest v ((digits v).length - 1)
  let ds := digits t
  ⟨trimZeros ds, (ds.length : Int) - 1 + k + min e 0⟩

end RecordRules.Number
