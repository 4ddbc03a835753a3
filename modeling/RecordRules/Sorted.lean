/-!
Ascending lists without repetition: sets of strings, and entries under strings. The order
is that of the code points.
-/

namespace RecordRules.Sorted

def insert (s : String) : List String → List String
  | [] => [s]
  | t :: ts => if s < t then s :: t :: ts else if s = t then t :: ts else t :: insert s ts

/-- The strings of a list, each once, in ascending order. -/
def ofList (ss : List String) : List String := ss.foldr insert []

variable {α : Type}

/-- Sets the value under a name. -/
def put (n : String) (v : α) : List (String × α) → List (String × α)
  | [] => [(n, v)]
  | (m, w) :: es =>
    if n < m then (n, v) :: (m, w) :: es
    else if n = m then (n, v) :: es
    else (m, w) :: put n v es

/-- The entries of a list; of two under one name the later counts. -/
def ofEntries (es : List (String × α)) : List (String × α) :=
  es.foldl (fun acc e => put e.1 e.2 acc) []

theorem mem_insert {s t : String} {ss : List String} : t ∈ insert s ss ↔ t = s ∨ t ∈ ss := by
  induction ss with
  | nil => simp [insert]
  | cons u us ih =>
    simp only [insert]
    split
    · simp
    · split
      · next h => simp [h]
      · simp only [List.mem_cons, ih]
        exact or_left_comm

theorem mem_ofList {t : String} {ss : List String} : t ∈ ofList ss ↔ t ∈ ss := by
  induction ss with
  | nil => simp [ofList]
  | cons s ss ih =>
    rw [show ofList (s :: ss) = insert s (ofList ss) from rfl, mem_insert, ih, List.mem_cons]

theorem lt_of_not_lt_of_ne {s t : String} (h : ¬s < t) (hne : s ≠ t) : t < s := by
  rcases Decidable.em (t < s) with h' | h'
  · exact h'
  · exact absurd (String.le_antisymm h' h) hne

theorem pairwise_insert {s : String} {ss : List String} (h : ss.Pairwise (· < ·)) :
    (insert s ss).Pairwise (· < ·) := by
  induction ss with
  | nil => simp [insert]
  | cons u us ih =>
    obtain ⟨hu, hus⟩ := List.pairwise_cons.1 h
    simp only [insert]
    split
    · next hs =>
      refine List.pairwise_cons.2 ⟨fun t ht => ?_, h⟩
      rcases List.mem_cons.1 ht with rfl | ht
      · exact hs
      · exact String.lt_trans hs (hu t ht)
    · next hs =>
      split
      · exact h
      · next hne =>
        refine List.pairwise_cons.2 ⟨fun t ht => ?_, ih hus⟩
        rcases mem_insert.1 ht with rfl | ht
        · exact lt_of_not_lt_of_ne hs hne
        · exact hu t ht

theorem pairwise_ofList (ss : List String) : (ofList ss).Pairwise (· < ·) := by
  induction ss with
  | nil => exact .nil
  | cons s ss ih => exact pairwise_insert ih

theorem lookup_put (n m : String) (v : α) (es : List (String × α)) :
    (put n v es).lookup m = if m = n then some v else es.lookup m := by
  have ne {a b : String} (h : ¬a = b) : (a == b) = false := by simpa using h
  induction es with
  | nil => by_cases h : m = n <;> simp [put, List.lookup_cons, h, ne]
  | cons e es ih =>
    obtain ⟨k, w⟩ := e
    simp only [put]
    split
    · by_cases h : m = n <;> simp [List.lookup_cons, h, ne]
    · split
      · next _ h =>
        subst h
        by_cases h : m = n <;> simp [List.lookup_cons, h, ne]
      · next _ hne =>
        by_cases h : m = k
        · subst h
          simp [Ne.symm hne]
        · simp only [List.lookup_cons, ne h]
          exact ih

/-- Of the entries under one name the last one stays. -/
theorem lookup_ofEntries (es : List (String × α)) (n : String) :
    (ofEntries es).lookup n = es.reverse.lookup n := by
  have ne {a b : String} (h : ¬a = b) : (a == b) = false := by simpa using h
  have fold (acc : List (String × α)) :
      (es.foldl (fun acc e => put e.1 e.2 acc) acc).lookup n =
        (es.reverse.lookup n).or (acc.lookup n) := by
    induction es generalizing acc with
    | nil => rfl
    | cons e es ih =>
      obtain ⟨m, a⟩ := e
      rw [List.foldl_cons, ih, lookup_put, List.reverse_cons, List.lookup_append, Option.or_assoc]
      by_cases h : n = m <;> simp [List.lookup_cons, h, ne]
  exact (fold []).trans (by simp)

end RecordRules.Sorted
