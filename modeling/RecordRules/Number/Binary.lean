/-!
Floating-point numbers as a mantissa and a power of two.
-/

namespace RecordRules.Number

/-- A finite number: `mantissa * 2 ^ exponent`, negated where the sign says so. The
`lowest` of its binade lies half as far from the number below it as from the one above. -/
structure Binary where
  negative : Bool
  mantissa : Nat
  exponent : Int
  lowest : Bool
deriving DecidableEq, Repr

/-- The sign bit, also of zeros and infinities. -/
def isNegative (x : Float) : Bool := 0x8000000000000000 ≤ x.toBits.toNat

namespace Binary

/-- The parts of a number; nothing for the infinities and for what is not a number. -/
def ofFloat? (x : Float) : Option Binary :=
  let bits := x.toBits.toNat
  let biased : Nat := (bits >>> 52) % 0x800
  let fraction : Nat := bits % 0x10000000000000
  if biased = 2047 then none
  else if biased = 0 then some ⟨isNegative x, fraction, -1074, false⟩
  else some {
    negative := isNegative x
    mantissa := 0x10000000000000 + fraction
    exponent := (biased : Int) - 1075
    lowest := fraction == 0 && biased != 1 }

end Binary

/-- The power of two with the given exponent, from `-1074` to `1023`. -/
def twoPow (e : Int) : Float :=
  if -1022 ≤ e then Float.ofBits ((e + 1023).toNat <<< 52).toUInt64
  else Float.ofBits (1 <<< (e + 1074).toNat).toUInt64

/-- The remainder of a division that rounds its quotient toward zero. It has the sign of
the dividend and is exact: on the finer of the two grids it is a remainder of integers. -/
def remainder (x y : Float) : Float :=
  match Binary.ofFloat? x, Binary.ofFloat? y with
  | some a, some b =>
    let e := min a.exponent b.exponent
    let r := (a.mantissa <<< (a.exponent - e).toNat) % (b.mantissa <<< (b.exponent - e).toNat)
    let z := Float.ofNat r * twoPow e
    if b.mantissa = 0 then 0.0 / 0.0 else if a.negative then -z else z
  | some _, none => if y.isInf then x else y
  | none, _ => 0.0 / 0.0

/-- How two numbers lie to each other; nothing where one of them is not a number. -/
def order? (x y : Float) : Option Ordering :=
  if x == y then some .eq else if x < y then some .lt else if y < x then some .gt else none

end RecordRules.Number
