import Mathlib.Data.Nat.Basic
import RecordRules.Text.Window

/-!
Texts and lists by positions. A position of a character is its number, a place in the text
its byte. What is asked for between two of them is there only if both lie inside and in order,
and two bytes also only if they do not split a character. A difference of positions is there
only if it is not negative.
-/

namespace RecordRules.Positions

open Text

/-- The difference of two numbers, unless it is negative. -/
def sub? (a b : ℕ) : Option ℕ := if b ≤ a then some (a - b) else none

lemma sub?_add (a b : ℕ) : sub? (a + b) a = some b := by
  rw [sub?, if_pos (Nat.le_add_right a b), Nat.add_sub_cancel_left]

/-- The elements from one position up to another. -/
def range? {α : Type} (l : List α) (start stop : ℕ) : Option (List α) :=
  if start ≤ stop ∧ stop ≤ l.length then some ((l.drop start).take (stop - start)) else none

lemma range?_append {α : Type} (u w v : List α) :
    range? (u ++ (w ++ v)) u.length (u.length + w.length) = some w := by
  have hle : u.length ≤ u.length + w.length ∧ u.length + w.length ≤ (u ++ (w ++ v)).length := by
    simp only [List.length_append]
    omega
  rw [range?, if_pos hle, List.drop_left, Nat.add_sub_cancel_left, List.take_left]

/-! ### Bytes -/

/-- What follows the first bytes of a text. -/
def dropBytes? : List Char → ℕ → Option (List Char)
  | [], n => if n = 0 then some [] else none
  | c :: cs, n => if n = 0 then some (c :: cs) else (sub? n c.utf8Size).bind (dropBytes? cs)

/-- The first bytes of a text. -/
def takeBytes? : List Char → ℕ → Option (List Char)
  | [], n => if n = 0 then some [] else none
  | c :: cs, n =>
    if n = 0 then some []
    else (sub? n c.utf8Size).bind fun m => (takeBytes? cs m).map (c :: ·)

/-- The text between two bytes. -/
def slice? (cs : List Char) (start stop : ℕ) : Option (List Char) :=
  (sub? stop start).bind fun n => (dropBytes? cs start).bind fun r => takeBytes? r n

lemma bytes_cons_ne_zero (c : Char) (cs : List Char) : bytes (c :: cs) ≠ 0 := by
  have hpos := c.utf8Size_pos
  rw [bytes_cons]
  omega

lemma dropBytes?_append (u v : List Char) : dropBytes? (u ++ v) (bytes u) = some v := by
  induction u with
  | nil => cases v <;> rfl
  | cons c u ih =>
    rw [List.cons_append, dropBytes?, if_neg (bytes_cons_ne_zero c u), bytes_cons, sub?_add]
    exact ih

lemma takeBytes?_append (w v : List Char) : takeBytes? (w ++ v) (bytes w) = some w := by
  induction w with
  | nil => cases v <;> rfl
  | cons c w ih =>
    rw [List.cons_append, takeBytes?, if_neg (bytes_cons_ne_zero c w), bytes_cons, sub?_add,
      Option.bind_some, ih]
    rfl

lemma slice?_append (u w v : List Char) :
    slice? (u ++ (w ++ v)) (bytes u) (bytes u + bytes w) = some w := by
  rw [slice?, sub?_add, Option.bind_some, dropBytes?_append, Option.bind_some,
    takeBytes?_append]

/-! ### Characters -/

/-- The characters of a text with the bytes they begin at. -/
def charIndices (offset : ℕ) : List Char → List (ℕ × Char)
  | [] => []
  | c :: cs => (offset, c) :: charIndices (offset + c.utf8Size) cs

/-- The byte at which a character begins, or the end of the text. -/
def offsetAt (cs : List Char) (pos : ℕ) : ℕ :=
  match (charIndices 0 cs)[pos]? with
  | some e => e.1
  | none => bytes cs

lemma charIndices_append (offset : ℕ) (u v : List Char) :
    charIndices offset (u ++ v) = charIndices offset u ++ charIndices (offset + bytes u) v := by
  induction u generalizing offset with
  | nil => rfl
  | cons c u ih =>
    rw [List.cons_append, charIndices, charIndices, ih, bytes_cons, Nat.add_assoc]
    rfl

lemma length_charIndices (offset : ℕ) (cs : List Char) :
    (charIndices offset cs).length = cs.length := by
  induction cs generalizing offset with
  | nil => rfl
  | cons c cs ih => rw [charIndices, List.length_cons, ih, List.length_cons]

lemma offsetAt_append (u v : List Char) : offsetAt (u ++ v) u.length = bytes u := by
  have hlen : (charIndices 0 u).length ≤ u.length := Nat.le_of_eq (length_charIndices 0 u)
  rw [offsetAt, charIndices_append, List.getElem?_append_right hlen, length_charIndices,
    Nat.sub_self]
  cases v with
  | nil => rw [List.append_nil]; rfl
  | cons c v => exact Nat.zero_add _

/-- The text between two characters. -/
lemma slice?_offsetAt (u w v : List Char) :
    slice? (u ++ (w ++ v)) (offsetAt (u ++ (w ++ v)) u.length)
      (offsetAt (u ++ (w ++ v)) (u.length + w.length)) = some w := by
  have hstop : offsetAt (u ++ (w ++ v)) (u.length + w.length) = bytes u + bytes w := by
    rw [← List.append_assoc, ← List.length_append, offsetAt_append, bytes_append]
  rw [offsetAt_append, hstop, slice?_append]

lemma bytes_suffix {f cs : List Char} (h : f <:+ cs) : bytes f ≤ bytes cs := by
  obtain ⟨w, rfl⟩ := h
  rw [bytes_append]
  exact Nat.le_add_left _ _

/-- Where the rest of a text begins. -/
lemma offsetAt_suffix {f cs : List Char} (h : f <:+ cs) :
    offsetAt cs (cs.length - f.length) = bytes cs - bytes f := by
  obtain ⟨w, rfl⟩ := h
  rw [List.length_append, Nat.add_sub_cancel, offsetAt_append, bytes_append,
    Nat.add_sub_cancel]

end RecordRules.Positions
