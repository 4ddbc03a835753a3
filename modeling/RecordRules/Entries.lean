/-!
Lists of entries in order of insertion.

Inserting under a key that is there already replaces the value and keeps the place;
otherwise the entry goes to the end. Keys are compared by a given equality.
-/

namespace RecordRules.Entries

variable {κ α : Type} [BEq κ]

def insert (k : κ) (v : α) : List (κ × α) → List (κ × α)
  | [] => [(k, v)]
  | (k', v') :: es => if k' == k then (k', v) :: es else (k', v') :: insert k v es

/-- The entries inserted one after the other. -/
def ofList (es : List (κ × α)) : List (κ × α) := es.foldl (fun acc e => insert e.1 e.2 acc) []

/-- The elements that equal none before them. -/
def distinct (xs : List κ) : List κ :=
  xs.foldl (fun acc x => if acc.any (· == x) then acc else acc ++ [x]) []

theorem keys_insert (k : κ) (v : α) (es : List (κ × α)) :
    (insert k v es).map Prod.fst =
      if (es.map Prod.fst).any (· == k) then es.map Prod.fst else es.map Prod.fst ++ [k] := by
  induction es with
  | nil => rfl
  | cons e es ih =>
    obtain ⟨k', v'⟩ := e
    by_cases h : (k' == k) = true
    · simp [insert, h]
    · rw [insert, if_neg h, List.map_cons, List.map_cons, ih, List.any_cons,
        eq_false_of_ne_true h, Bool.false_or]
      split <;> rfl

theorem lookup_insert [PartialEquivBEq κ] (k k' : κ) (v : α) (es : List (κ × α)) :
    (insert k v es).lookup k' = if k' == k then some v else es.lookup k' := by
  induction es with
  | nil => cases h : k' == k <;> simp [insert, List.lookup_cons, h]
  | cons e es ih =>
    obtain ⟨k₀, v₀⟩ := e
    by_cases h₀ : (k₀ == k) = true
    · rw [insert, if_pos h₀, List.lookup_cons, List.lookup_cons, BEq.congr_right h₀]
      cases k' == k <;> rfl
    · rw [insert, if_neg h₀, List.lookup_cons, List.lookup_cons, ih]
      cases h : k' == k₀ with
      | false => rfl
      | true =>
        exact (if_neg fun hk => h₀ (BEq.trans (BEq.symm h) hk)).symm

end RecordRules.Entries
