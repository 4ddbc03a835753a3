import RecordRules.Number.Shortest

/-!
Floating-point numbers in decimal text.

A number is written with its shortest digits: positionally, with at least one decimal,
from `1e-4` up to but not including `1e16`, and with an exponent outside. What is read
is rounded to the nearest number, and to the even one of two.
-/

namespace RecordRules.Number

def notANumber : Float := 0.0 / 0.0

def infinity : Float := 1.0 / 0.0

/-- The number nearest to `m * 10 ^ e`. The bounds keep the powers of ten small: past
them the answer is infinite, or zero. -/
def nearest (m : Nat) (e : Int) : Float :=
  let width := e + (digits m).length
  if m = 0 then 0.0
  else if 310 < width then infinity
  else if width < -330 then 0.0
  else Float.ofScientific m (e < 0) e.natAbs

/-- A number without its sign: digits with at most one point among or around them, and
an exponent after an `e`. -/
def readMagnitude? (cs : List Char) : Option Float :=
  let whole := cs.takeWhile (·.isDigit)
  let (part, tail) : List Char × List Char :=
    match cs.dropWhile (·.isDigit) with
    | '.' :: r => (r.takeWhile (·.isDigit), r.dropWhile (·.isDigit))
    | r => ([], r)
  let m := ofDigits (whole ++ part)
  let e : Int := -(part.length : Int)
  if whole = [] ∧ part = [] then none
  else match tail with
    | [] => some (nearest m e)
    | c :: r =>
      if c = 'e' ∨ c = 'E' then
        match r with
        | '-' :: ds => (natural? ds).map fun x => nearest m (e - x)
        | '+' :: ds => (natural? ds).map fun x => nearest m (e + x)
        | ds => (natural? ds).map fun x => nearest m (e + x)
      else none

/-- A number without its sign, or one of the words for what has no digits. -/
def readUnsigned? (cs : List Char) : Option Float :=
  let word := cs.map (·.toLower)
  if word = ['i', 'n', 'f'] ∨ word = ['i', 'n', 'f', 'i', 'n', 'i', 't', 'y'] then some infinity
  else if word = ['n', 'a', 'n'] then some notANumber
  else readMagnitude? cs

def readFloat? : List Char → Option Float
  | '-' :: cs => (readUnsigned? cs).map fun x => -x
  | '+' :: cs => readUnsigned? cs
  | cs => readUnsigned? cs

/-- Digits with a point after the first one, where there are more. -/
def pointed : List Char → List Char
  | [] => []
  | [d] => [d]
  | d :: ds => d :: '.' :: ds

def Decimal.text (d : Decimal) : List Char :=
  if d.exponent < -4 ∨ 16 ≤ d.exponent then
    pointed d.digits ++ 'e' :: intDigits d.exponent
  else if d.exponent < 0 then
    ['0', '.'] ++ List.replicate (-d.exponent - 1).toNat '0' ++ d.digits
  else
    let n := d.exponent.toNat + 1
    let whole := d.digits.take n
    let part := d.digits.drop n
    whole ++ List.replicate (n - whole.length) '0' ++ '.' :: (if part = [] then ['0'] else part)

def floatDigits (x : Float) : List Char :=
  match Binary.ofFloat? x with
  | none => if x.isNaN then "NaN".toList else if isNegative x then "-inf".toList else "inf".toList
  | some b =>
    let text := if b.mantissa = 0 then ['0', '.', '0'] else b.shortest.text
    if b.negative then '-' :: text else text

def showFloat (x : Float) : String := String.ofList (floatDigits x)

end RecordRules.Number
