import RecordRules.Json
import RecordRules.Number.Digits

/-!
The numerals of JSON.

A numeral without a point and an exponent stays an integer as long as 64 bits hold it,
with a sign for the negative ones and without one for the others. The rest is floating
point: as many leading digits as fit into 64 bits, widened and then multiplied or divided
by a power of ten. The result can be one step off the nearest number.
-/

namespace RecordRules.Json

/-- A numeral in its parts: digits before the point, digits after it, and the power of ten.
It is integral if it has neither a point nor an exponent. -/
structure Numeral where
  negative : Bool
  whole : List Char
  fraction : List Char
  power : Int
  integral : Bool
deriving DecidableEq, Repr

namespace Numeral

/-- The digits after a point; there must be some. What does not start with a point has
none. -/
def readFraction : List Char → Option (List Char × List Char)
  | '.' :: cs =>
    let ds := cs.takeWhile (·.isDigit)
    if ds = [] then none else some (ds, cs.dropWhile (·.isDigit))
  | cs => some ([], cs)

/-- Whether a minus stands at the front, and what follows the sign if there is one. -/
def readSign : List Char → Bool × List Char
  | [] => (false, [])
  | c :: cs => if c = '+' ∨ c = '-' then (c == '-', cs) else (false, c :: cs)

/-- The exponent with its sign; there must be digits. -/
def readExponent (cs : List Char) : Option (Int × List Char) :=
  let (negative, ds) := readSign cs
  (RecordRules.Number.natural? (ds.takeWhile (·.isDigit))).map fun n =>
    (if negative then -n else n, ds.dropWhile (·.isDigit))

/-- The power of ten after an exponent letter, and zero where there is none. -/
def readPower : List Char → Option (Int × List Char)
  | [] => some (0, [])
  | c :: cs => if c = 'e' ∨ c = 'E' then readExponent cs else some (0, c :: cs)

/-- A zero before other digits. -/
def padded : List Char → Bool
  | '0' :: _ :: _ => true
  | _ => false

/-- The numeral at the front, and what follows it. -/
def read (cs : List Char) : Option (Numeral × List Char) :=
  let negative := cs.head? == some '-'
  let cs := if negative then cs.tail else cs
  let whole := cs.takeWhile (·.isDigit)
  let r := cs.dropWhile (·.isDigit)
  if whole = [] ∨ padded whole then none
  else match readFraction r with
    | none => none
    | some (fraction, r') =>
      match readPower r' with
      | none => none
      | some (power, r'') => some (⟨negative, whole, fraction, power, r.length == r''.length⟩, r'')

/-- The number that digits add to a significand as long as 64 bits hold it, and how many
digits are left out. -/
def gather (significand : Nat) : List Char → Nat × Nat
  | [] => (significand, 0)
  | d :: ds =>
    let next := RecordRules.Number.ofDigits [d] + 10 * significand
    if next < UInt64.size then gather next ds else (significand, ds.length + 1)

/-- A significand times a power of ten, rounded once for each step of `10 ^ 308`. -/
def scale (significand : Nat) (power : Int) : Float :=
  let x := Float.ofNat significand
  let ten (n : Int) : Float := Float.ofScientific 1 false n.toNat
  if 0 ≤ power then (if significand = 0 then 0.0 else x * ten (min power 309))
  else if -308 ≤ power then x / ten (-power)
  else if -616 ≤ power then x / ten 308 / ten (-power - 308)
  else 0.0

/-- The floating-point number of a numeral, if it is not too large for one. -/
def decimal? (n : Numeral) : Option Float :=
  let (s, dropped) := gather 0 n.whole
  let (s, unused) := gather s n.fraction
  let x := scale s (dropped - (n.fraction.length - unused) + n.power)
  if x.isInf then none else some (if n.negative then -x else x)

def number? (n : Numeral) : Option Number :=
  let m := RecordRules.Number.ofDigits n.whole
  if n.integral ∧ m < UInt64.size then
    if n.negative = false then some (.integer m)
    else if m = 0 ∨ 0x8000000000000000 < m then some (.decimal (-(Float.ofNat m)))
    else some (.integer (-m))
  else n.decimal?.map .decimal

theorem length_readFraction {cs ds r : List Char} (h : readFraction cs = some (ds, r)) :
    r.length ≤ cs.length := by
  simp only [readFraction] at h
  split at h
  · next cs' =>
    split at h
    · simp at h
    · have := (List.dropWhile_sublist (·.isDigit) (l := cs')).length_le
      simp only [Option.some.injEq, Prod.mk.injEq] at h
      rw [← h.2, List.length_cons]
      omega
  · simp only [Option.some.injEq, Prod.mk.injEq] at h
    exact h.2 ▸ Nat.le_refl _

theorem length_readSign (cs : List Char) : (readSign cs).2.length ≤ cs.length := by
  cases cs with
  | nil => simp [readSign]
  | cons c cs => simp only [readSign]; split <;> simp

theorem length_readExponent {cs r : List Char} {n : Int} (h : readExponent cs = some (n, r)) :
    r.length ≤ cs.length := by
  obtain ⟨_, _, h⟩ := Option.map_eq_some_iff.1 h
  rw [← (Prod.mk.inj h).2]
  exact Nat.le_trans (List.dropWhile_sublist _).length_le (length_readSign cs)

theorem length_readPower {cs r : List Char} {n : Int} (h : readPower cs = some (n, r)) :
    r.length ≤ cs.length := by
  cases cs with
  | nil => simp only [readPower, Option.some.injEq, Prod.mk.injEq] at h; simp [← h.2]
  | cons c cs =>
    simp only [readPower] at h
    split at h
    · have := length_readExponent h
      simp only [List.length_cons]
      omega
    · simp only [Option.some.injEq, Prod.mk.injEq] at h
      simp [← h.2]

theorem length_read {cs r : List Char} {n : Numeral} (h : read cs = some (n, r)) :
    r.length < cs.length := by
  have hc : (if cs.head? == some '-' then cs.tail else cs).length ≤ cs.length := by
    split <;> simp
  revert hc h
  simp only [read]
  generalize (if cs.head? == some '-' then cs.tail else cs) = ds
  intro h hc
  split at h
  · simp at h
  · next hw =>
    split at h
    · simp at h
    · next hf =>
      split at h
      · simp at h
      · next hp =>
        simp only [Option.some.injEq, Prod.mk.injEq] at h
        have h₁ := length_readFraction hf
        have h₂ := length_readPower hp
        have h₃ := congrArg List.length (ds.takeWhile_append_dropWhile (p := (·.isDigit)))
        have h₄ : (ds.takeWhile (·.isDigit)).length ≠ 0 :=
          fun h => hw (.inl (List.length_eq_zero_iff.1 h))
        rw [List.length_append] at h₃
        rw [← h.2]
        omega

end Numeral

end RecordRules.Json
