import RecordRules.Text.Bytes

/-!
The excerpt of a text that is quoted beside an error.

It reaches twelve bytes to each side of the error, and further where a bound would fall
inside a character: the first bound moves down to a boundary and the second one up.
-/

namespace RecordRules.Text

/-- The last boundary at or before `n`. -/
def floorBoundary : List Char → Nat → Nat
  | [], _ => 0
  | c :: cs, n => if n < c.utf8Size then 0 else c.utf8Size + floorBoundary cs (n - c.utf8Size)

/-- The first boundary at or past `n`, or the end when there is none. -/
def ceilBoundary : List Char → Nat → Nat
  | [], _ => 0
  | c :: cs, n => if n = 0 then 0 else c.utf8Size + ceilBoundary cs (n - c.utf8Size)

def takeBytes : List Char → Nat → List Char
  | [], _ => []
  | c :: cs, n => if c.utf8Size ≤ n then c :: takeBytes cs (n - c.utf8Size) else []

def dropBytes : List Char → Nat → List Char
  | [], _ => []
  | c :: cs, n => if n = 0 then c :: cs else dropBytes cs (n - c.utf8Size)

/-- The bytes from `start` up to `stop`. -/
structure Window where
  start : Nat
  stop : Nat
deriving DecidableEq, Repr

namespace Window

def radius : Nat := 12

def around (cs : List Char) (offset : Nat) : Window where
  start := floorBoundary cs (offset - radius)
  stop := ceilBoundary cs (min (offset + radius) (bytes cs))

def read (w : Window) (cs : List Char) : List Char :=
  takeBytes (dropBytes cs w.start) (w.stop - w.start)

end Window

/-- The text near `offset`. -/
def excerpt (source : String) (offset : Nat) : String :=
  String.ofList ((Window.around source.toList offset).read source.toList)

end RecordRules.Text
