import RecordRules.Json.Numeral
import RecordRules.Json.Quoted

/-!
Reading JSON texts, strictly: nothing but blanks around the one value, arrays and objects
nested at most 127 deep, and numbers within the range of floating point.
-/

namespace RecordRules.Json

def isBlank (c : Char) : Bool := c == ' ' || c == '\t' || c == '\n' || c == '\r'

/-- Drops the blanks at the front. -/
def skipBlanks (cs : List Char) : List Char := cs.dropWhile isBlank

theorem length_skipBlanks_le (cs : List Char) : (skipBlanks cs).length ≤ cs.length :=
  (List.dropWhile_sublist _).length_le

/-- The words that are values. -/
def words : List (List Char × Json) := [
  (['n', 'u', 'l', 'l'], null),
  (['t', 'r', 'u', 'e'], bool true),
  (['f', 'a', 'l', 's', 'e'], bool false)]

/-- A word that starts with `c`. -/
def readWord (c : Char) (cs : List Char) : Option (Json × Shorter (c :: cs)) :=
  (words.find? fun w => w.1.isPrefixOf (c :: cs)).map fun w =>
    (w.2, ⟨cs.drop (w.1.length - 1), by simp only [List.length_drop, List.length_cons]; omega⟩)

/-- A number that starts with `c`. -/
def readNumber (c : Char) (cs : List Char) : Option (Json × Shorter (c :: cs)) :=
  match h : Numeral.read (c :: cs) with
  | none => none
  | some (n, r) => n.number?.map fun x => (number x, ⟨r, Numeral.length_read h⟩)

mutual

/-- A value with blanks before it, and at most `room` levels inside each other. -/
def readValue (room : Nat) (cs : List Char) : Option (Json × Shorter cs) :=
  have hb := length_skipBlanks_le cs
  match hs : skipBlanks cs with
  | [] => none
  | c :: r =>
    have hr : r.length < cs.length := by rw [hs, List.length_cons] at hb; omega
    if c = '"' then
      match Quoted.read r with
      | none => none
      | some (t, ⟨r', h⟩) => some (string (String.ofList t), ⟨r', by omega⟩)
    else if c = '[' then
      if room = 0 then none
      else match readItems (room - 1) r with
        | none => none
        | some (js, ⟨r', h⟩) => some (array js, ⟨r', by omega⟩)
    else if c = '\x7b' then
      if room = 0 then none
      else match readMembers (room - 1) r with
        | none => none
        | some (ms, ⟨r', h⟩) => some (ofMembers ms, ⟨r', by omega⟩)
    else if c.isDigit ∨ c = '-' then
      (readNumber c r).map fun (j, ⟨r', h⟩) =>
        (j, ⟨r', by simp only [List.length_cons] at h; omega⟩)
    else
      (readWord c r).map fun (j, ⟨r', h⟩) =>
        (j, ⟨r', by simp only [List.length_cons] at h; omega⟩)
termination_by 4 * cs.length

/-- The items of an array after its opening bracket. -/
def readItems (room : Nat) (cs : List Char) : Option (List Json × Shorter cs) :=
  have hb := length_skipBlanks_le cs
  match hs : skipBlanks cs with
  | [] => none
  | c :: r =>
    if c = ']' then some ([], ⟨r, by rw [hs, List.length_cons] at hb; omega⟩)
    else readMoreItems room cs
termination_by 4 * cs.length + 2

/-- One item or more, up to the closing bracket. -/
def readMoreItems (room : Nat) (cs : List Char) : Option (List Json × Shorter cs) :=
  match readValue room cs with
  | none => none
  | some (j, ⟨r, h⟩) =>
    have hb := length_skipBlanks_le r
    match hs : skipBlanks r with
    | [] => none
    | c :: r' =>
      have hr : r'.length < r.length := by rw [hs, List.length_cons] at hb; omega
      if c = ']' then some ([j], ⟨r', by omega⟩)
      else if c = ',' then
        match readMoreItems room r' with
        | none => none
        | some (js, ⟨r'', h'⟩) => some (j :: js, ⟨r'', by omega⟩)
      else none
termination_by 4 * cs.length + 1

/-- The members of an object after its opening brace. -/
def readMembers (room : Nat) (cs : List Char) : Option (List (String × Json) × Shorter cs) :=
  have hb := length_skipBlanks_le cs
  match hs : skipBlanks cs with
  | [] => none
  | c :: r =>
    if c = '\x7d' then some ([], ⟨r, by rw [hs, List.length_cons] at hb; omega⟩)
    else readMoreMembers room cs
termination_by 4 * cs.length + 2

/-- One member or more, up to the closing brace. -/
def readMoreMembers (room : Nat) (cs : List Char) :
    Option (List (String × Json) × Shorter cs) :=
  have hb := length_skipBlanks_le cs
  match hs : skipBlanks cs with
  | [] => none
  | c :: r =>
    have hr : r.length < cs.length := by rw [hs, List.length_cons] at hb; omega
    if c = '"' then
      match Quoted.read r with
      | none => none
      | some (name, ⟨r₁, h₁⟩) =>
        have hb₁ := length_skipBlanks_le r₁
        match hs₁ : skipBlanks r₁ with
        | [] => none
        | d :: r₂ =>
          have hr₂ : r₂.length < r₁.length := by rw [hs₁, List.length_cons] at hb₁; omega
          if d = ':' then
            match readValue room r₂ with
            | none => none
            | some (j, ⟨r₃, h₃⟩) =>
              have hb₃ := length_skipBlanks_le r₃
              match hs₃ : skipBlanks r₃ with
              | [] => none
              | e :: r₄ =>
                have hr₄ : r₄.length < r₃.length := by rw [hs₃, List.length_cons] at hb₃; omega
                if e = '\x7d' then some ([(String.ofList name, j)], ⟨r₄, by omega⟩)
                else if e = ',' then
                  match readMoreMembers room r₄ with
                  | none => none
                  | some (ms, ⟨r₅, h₅⟩) => some ((String.ofList name, j) :: ms, ⟨r₅, by omega⟩)
                else none
          else none
    else none
termination_by 4 * cs.length

end

/-- The value that a text spells. -/
def read (text : String) : Option Json :=
  match readValue 127 text.toList with
  | none => none
  | some (j, ⟨r, _⟩) => if skipBlanks r = [] then some j else none

end RecordRules.Json
