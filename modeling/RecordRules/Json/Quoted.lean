/-!
The strings of JSON.

A backslash starts an escape: one of the short ones, or `u` with the four hexadecimal
digits of a code unit. Two units that are a surrogate pair stand for one character, and a
surrogate alone is malformed. Control characters must be escaped.
-/

namespace RecordRules.Json

/-- What is left after reading something from `cs`. -/
abbrev Shorter (cs : List Char) := { r : List Char // r.length < cs.length }

namespace Quoted

/-- The short escapes. -/
def escapes : List (Char × Char) := [
  ('"', '"'), ('\\', '\\'), ('/', '/'), ('b', '\x08'), ('f', '\x0c'), ('n', '\n'), ('r', '\r'),
  ('t', '\t')]

def hexDigit? (c : Char) : Option Nat :=
  if '0' ≤ c ∧ c ≤ '9' then some (c.toNat - 48)
  else if 'a' ≤ c ∧ c ≤ 'f' then some (c.toNat - 87)
  else if 'A' ≤ c ∧ c ≤ 'F' then some (c.toNat - 55)
  else none

/-- The code unit that four hexadecimal digits spell. -/
def unit? : List Char → Option Nat
  | [a, b, c, d] =>
    match hexDigit? a, hexDigit? b, hexDigit? c, hexDigit? d with
    | some a, some b, some c, some d => some (((a * 16 + b) * 16 + c) * 16 + d)
    | _, _, _, _ => none
  | _ => none

def isHigh (u : Nat) : Bool := 0xD800 ≤ u && u < 0xDC00

def isLow (u : Nat) : Bool := 0xDC00 ≤ u && u < 0xE000

/-- The character of a surrogate pair. -/
def paired (high low : Nat) : Char :=
  Char.ofNat (0x10000 + (high - 0xD800) * 0x400 + (low - 0xDC00))

/-- The character after `\u`: that of one unit, or of two with another `\u` between. -/
def readUnits (cs : List Char) : Option (Char × List Char) :=
  match unit? (cs.take 4) with
  | none => none
  | some u =>
    if isLow u then none
    else if isHigh u then
      match cs.drop 4 with
      | '\\' :: 'u' :: r =>
        match unit? (r.take 4) with
        | none => none
        | some v =>
          if isLow v then some (paired u v, r.drop 4) else none
      | _ => none
    else some (Char.ofNat u, cs.drop 4)

/-- The character that an escape stands for, after its backslash. -/
def readEscape : List Char → Option (Char × List Char)
  | [] => none
  | c :: cs => if c = 'u' then readUnits cs else (escapes.lookup c).map fun d => (d, cs)

theorem length_readUnits {cs r : List Char} {c : Char} (h : readUnits cs = some (c, r)) :
    r.length ≤ cs.length := by
  simp only [readUnits] at h
  split at h
  · simp at h
  · split at h
    · simp at h
    · split at h
      · split at h
        · next _ r' hr =>
          split at h
          · simp at h
          · split at h
            · have := congrArg List.length hr
              simp only [List.length_drop, List.length_cons] at this
              simp only [Option.some.injEq, Prod.mk.injEq] at h
              rw [← h.2, List.length_drop]
              omega
            · simp at h
        · simp at h
      · simp only [Option.some.injEq, Prod.mk.injEq] at h
        rw [← h.2, List.length_drop]
        omega

theorem length_readEscape {cs r : List Char} {c : Char} (h : readEscape cs = some (c, r)) :
    r.length < cs.length := by
  cases cs with
  | nil => simp [readEscape] at h
  | cons d cs =>
    simp only [readEscape] at h
    split at h
    · have := length_readUnits h
      simp only [List.length_cons]
      omega
    · obtain ⟨_, _, h⟩ := Option.map_eq_some_iff.1 h
      simp only [Prod.mk.injEq] at h
      simp [← h.2]

/-- Reads on from an opening quote to the closing one. -/
def read (cs : List Char) : Option (List Char × Shorter cs) :=
  match cs with
  | [] => none
  | c :: r =>
    if c = '"' then some ([], ⟨r, by simp⟩)
    else if c = '\\' then
      match h : readEscape r with
      | none => none
      | some (d, r₁) =>
        have := length_readEscape h
        match read r₁ with
        | none => none
        | some (t, ⟨r₂, h₂⟩) => some (d :: t, ⟨r₂, by simp only [List.length_cons]; omega⟩)
    else if c < ' ' then none
    else match read r with
      | none => none
      | some (t, ⟨r₂, h₂⟩) => some (c :: t, ⟨r₂, by simp only [List.length_cons]; omega⟩)
termination_by cs.length
decreasing_by all_goals (simp only [List.length_cons]; omega)

end Quoted

end RecordRules.Json
