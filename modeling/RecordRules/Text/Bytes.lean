/-!
Positions in a text, counted in the bytes of its UTF-8 form.
-/

namespace RecordRules.Text

/-- The length of a text in bytes. -/
def bytes : List Char → Nat
  | [] => 0
  | c :: cs => c.utf8Size + bytes cs

@[simp] theorem bytes_nil : bytes [] = 0 := rfl

@[simp] theorem bytes_cons (c : Char) (cs : List Char) :
    bytes (c :: cs) = c.utf8Size + bytes cs := rfl

@[simp] theorem bytes_append (u v : List Char) : bytes (u ++ v) = bytes u + bytes v := by
  induction u with
  | nil => simp
  | cons c cs ih => simp [ih, Nat.add_assoc]

/-- A boundary of a text lies before, between or after its characters. -/
def IsBoundary (cs : List Char) (n : Nat) : Prop := ∃ u v, cs = u ++ v ∧ n = bytes u

theorem isBoundary_zero (cs : List Char) : IsBoundary cs 0 := ⟨[], cs, rfl, rfl⟩

theorem isBoundary_bytes (cs : List Char) : IsBoundary cs (bytes cs) :=
  ⟨cs, [], (List.append_nil cs).symm, rfl⟩

/-- A boundary lies before the first character or is one of the text after it. -/
theorem isBoundary_cons {c : Char} {cs : List Char} {n : Nat} :
    IsBoundary (c :: cs) n ↔ n = 0 ∨ ∃ k, n = c.utf8Size + k ∧ IsBoundary cs k := by
  constructor
  · rintro ⟨_ | ⟨d, u⟩, v, hcs, rfl⟩
    · exact .inl rfl
    · cases hcs
      exact .inr ⟨bytes u, rfl, u, v, rfl, rfl⟩
  · rintro (rfl | ⟨k, rfl, u, v, rfl, rfl⟩)
    · exact isBoundary_zero _
    · exact ⟨c :: u, v, rfl, rfl⟩

theorem le_of_isBoundary {cs : List Char} {n : Nat} (h : IsBoundary cs n) : n ≤ bytes cs := by
  obtain ⟨u, v, rfl, rfl⟩ := h
  rw [bytes_append]
  exact Nat.le_add_right _ _

end RecordRules.Text
