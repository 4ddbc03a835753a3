import RecordRules.Proofs.Distinct
import RecordRules.Proofs.PartByPart

/-!
What a history of insertions leaves: each key once, in the order in which they were inserted first,
and under it what was inserted last. That holds for the attributes of a tuple and their names, and
for the entries of a map, whose keys are compared part by part. A set keeps of its items the first
of those that are equal.
-/

namespace RecordRules

namespace Entries

variable {κ α β : Type} [BEq κ] {history : List (κ × α)} {k : κ}

/-! ### First occurrences -/

/-- The elements that equal none of those before them. -/
def firsts (xs : List κ) : List κ :=
  (xs.zipIdx.filter fun e => !(xs.take e.2).any (· == e.1)).map Prod.fst

lemma firsts_append (xs : List κ) (x : κ) :
    firsts (xs ++ [x]) = if xs.any (· == x) then firsts xs else firsts xs ++ [x] := by
  have hfront : (xs.zipIdx.filter fun e => !((xs ++ [x]).take e.2).any (· == e.1)) =
      xs.zipIdx.filter fun e => !(xs.take e.2).any (· == e.1) := by
    refine List.filter_congr fun e he => ?_
    have hlt : e.2 < xs.length := by
      simpa using (List.mem_zipIdx he).2.1
    rw [List.take_append_of_le_length hlt.le]
  rw [firsts, firsts, List.zipIdx_append, List.filter_append, List.map_append, hfront]
  cases h : xs.any (· == x) <;> simp [h]

/-- What equals a repetition equals what it repeats, so leaving repetitions out loses nothing. -/
lemma any_firsts [PartialEquivBEq κ] (xs : List κ) (x : κ) :
    (firsts xs).any (· == x) = xs.any (· == x) := by
  induction xs using List.reverseRecOn with
  | nil => rfl
  | append_singleton xs y ih =>
    rw [firsts_append, List.any_append, ← ih, List.any_cons, List.any_nil, Bool.or_false]
    split
    · next hy =>
      have hyx : (y == x) = true → (firsts xs).any (· == x) = true := by
        intro hyx
        obtain ⟨z, hz, hzy⟩ := List.any_eq_true.1 hy
        exact ih.trans (List.any_eq_true.2 ⟨z, hz, BEq.trans hzy hyx⟩)
      cases h : y == x
      · rw [Bool.or_false]
      · rw [hyx h, Bool.true_or]
    · rw [List.any_append, List.any_cons, List.any_nil, Bool.or_false]

lemma apart_firsts [PartialEquivBEq κ] (xs : List κ) :
    (firsts xs).Pairwise fun x y => (x == y) = false := by
  induction xs using List.reverseRecOn with
  | nil => exact .nil
  | append_singleton xs x ih =>
    rw [firsts_append]
    split
    · exact ih
    · next hx =>
      rw [← any_firsts] at hx
      simpa [List.pairwise_append, ih] using hx

lemma distinct_append (xs : List κ) (x : κ) : distinct (xs ++ [x]) =
    if (distinct xs).any (· == x) then distinct xs else distinct xs ++ [x] := by
  rw [distinct, List.foldl_append]
  rfl

/-- An element equals one before it exactly if it equals one that is kept. -/
theorem distinct_eq_firsts [PartialEquivBEq κ] (xs : List κ) : distinct xs = firsts xs := by
  induction xs using List.reverseRecOn with
  | nil => rfl
  | append_singleton xs x ih => rw [distinct_append, firsts_append, ih, any_firsts]

/-! ### Insertions -/

lemma ofList_append (es : List (κ × α)) (e : κ × α) :
    ofList (es ++ [e]) = insert e.1 e.2 (ofList es) := by
  rw [ofList, List.foldl_append]
  rfl

lemma keys_ofList [PartialEquivBEq κ] (es : List (κ × α)) :
    (ofList es).map Prod.fst = firsts (es.map Prod.fst) := by
  induction es using List.reverseRecOn with
  | nil => rfl
  | append_singleton es e ih =>
    rw [ofList_append, keys_insert, ih, any_firsts, List.map_append, List.map_cons, List.map_nil,
      firsts_append]

lemma lookup_ofList [PartialEquivBEq κ] (es : List (κ × α)) (k : κ) :
    (ofList es).lookup k = es.reverse.lookup k := by
  induction es using List.reverseRecOn with
  | nil => rfl
  | append_singleton es e ih =>
    rw [ofList_append, lookup_insert, ih, List.reverse_append, List.reverse_singleton,
      List.singleton_append, List.lookup_cons]
    cases k == e.1 <;> rfl

/-- Keys, and what is found under each, as a history of insertions leaves them. -/
structure Reflects (history : List (κ × α)) (shown : α → β) (keys : List κ)
    (get : κ → Option β) : Prop where
  apart : keys.Pairwise fun k k' => (k == k') = false
  inOrder : keys = firsts (history.map Prod.fst)
  last : ∀ k, get k = (history.reverse.lookup k).map shown
  absent : ∀ k, get k = none ↔ ∀ e ∈ history, (k == e.1) = false
  present : ∀ e ∈ history, get e.1 ≠ none

/-- No key is moved, and nothing is changed under others than `k`. -/
structure ChangesOnly (k : κ) (keys : List κ) (get : κ → Option β) (keys' : List κ)
    (get' : κ → Option β) : Prop where
  places : keys <+: keys'
  values : ∀ k', (k' == k) = false → get' k' = get k'

lemma lookup_reverse_eq_none :
    history.reverse.lookup k = none ↔ ∀ e ∈ history, (k == e.1) = false := by
  simp [List.lookup_eq_none_iff, bne]

/-- A key that does not equal itself is never found again. -/
lemma reflects_ofList [PartialEquivBEq κ] (shown : α → β) (history : List (κ × α))
    (hr : ∀ e ∈ history, (e.1 == e.1) = true) :
    Reflects history shown ((ofList history).map Prod.fst)
      fun k => ((ofList history).lookup k).map shown where
  apart := by
    rw [keys_ofList]
    exact apart_firsts _
  inOrder := keys_ofList history
  last k := by rw [lookup_ofList]
  absent k := by rw [lookup_ofList, Option.map_eq_none_iff, lookup_reverse_eq_none]
  present e he := by
    rw [lookup_ofList, ne_eq, Option.map_eq_none_iff, lookup_reverse_eq_none]
    intro h
    exact Bool.false_ne_true ((h e he).symm.trans (hr e he))

lemma changesOnly_insert [PartialEquivBEq κ] (shown : α → β) (k : κ) (v : α)
    (es : List (κ × α)) :
    ChangesOnly k (es.map Prod.fst) (fun k => (es.lookup k).map shown)
      ((insert k v es).map Prod.fst) fun k' => ((insert k v es).lookup k').map shown where
  places := by
    rw [keys_insert]
    split
    · exact List.prefix_refl _
    · exact List.prefix_append _ _
  values k' hk := by
    rw [lookup_insert, hk]
    rfl

end Entries

/-! ### Tuples, maps and sets -/

namespace Tuple

lemma reflects_ofList (history : List (String × Datum)) :
    Entries.Reflects history Datum.view (ofList history).toRecord.names
      (ofList history).toRecord.read := by
  rw [funext (read_toRecord (ofList history)), names_toRecord]
  simp only [get?, attributes_ofList]
  exact Entries.reflects_ofList Datum.view history fun e _ => beq_self_eq_true e.1

lemma changesOnly_insert (t : Tuple) (n : String) (d : Datum) :
    Entries.ChangesOnly n t.toRecord.names t.toRecord.read (t.insert n d).toRecord.names
      (t.insert n d).toRecord.read := by
  rw [funext (read_toRecord t), funext (read_toRecord (t.insert n d))]
  exact Entries.changesOnly_insert Datum.view n d t.attributes

end Tuple

/-- **Insertions are reflected** by tuples and by maps whose keys are without NaN: no name or key is
there twice, they stand in the order in which they were inserted first, and under each is found what
was inserted last, and nothing under what was never inserted. One more insertion leaves the other
values, and all places, as they are. A set keeps the first of the items that are equal. -/
theorem reflect_insertions :
    (∀ history : List (String × Datum), let t := Tuple.ofList history
      t.toRecord.names.Nodup ∧
      Entries.Reflects history Datum.view t.toRecord.names t.toRecord.read ∧
      ∀ n d, Entries.ChangesOnly n t.toRecord.names t.toRecord.read
        (t.insert n d).toRecord.names (t.insert n d).toRecord.read) ∧
    (∀ history : List (Datum × Datum), (∀ e ∈ history, e.1.Throughout Datum.NoNaN) →
      ∃ es, Datum.ofEntries history = .map es ∧
        Entries.Reflects history id (es.map Prod.fst) (es.lookup ·) ∧
        ∀ k d, ∃ es', Datum.ofEntries (history ++ [(k, d)]) = .map es' ∧
          Entries.ChangesOnly k (es.map Prod.fst) (es.lookup ·)
            (es'.map Prod.fst) (es'.lookup ·)) ∧
    ∀ items : List Datum, Datum.ofItems items = .set (Entries.firsts items) := by
  refine ⟨fun history => ⟨?names, Tuple.reflects_ofList history, Tuple.changesOnly_insert _⟩,
    fun history hn => ⟨Entries.ofList history, rfl, ?entries, fun k d => ⟨_, rfl, ?entry⟩⟩,
    fun items => ?items⟩
  case names => exact (Tuple.reflects_ofList history).apart.imp beq_eq_false_iff_ne.1
  case entries =>
    simpa using Entries.reflects_ofList id history fun e he => Datum.beq_self (hn e he)
  case entry =>
    rw [Entries.ofList_append]
    simpa using Entries.changesOnly_insert id k d (Entries.ofList history)
  case items => rw [Datum.ofItems, Entries.distinct_eq_firsts]

/-- A map to which the key 1.0 is added between two insertions under 1. -/
theorem reflect_insertions_interleaved :
    (∀ e ∈ [(Datum.int 1, Datum.str "a"), (.float 1.0, .str "b"), (.int 1, .str "c")],
      e.1.Throughout Datum.NoNaN) ∧
    ∃ es, Datum.ofEntries [(.int 1, .str "a"), (.float 1.0, .str "b"), (.int 1, .str "c")] =
        .map es ∧
      es.map Prod.fst = [.int 1, .float 1.0] ∧ es.lookup (.int 1) = some (.str "c") ∧
      es.lookup (.str "a") = none := by
  have hnum : (1.0 : Float) ≠ .nan := by decide
  have hn : ∀ e ∈ [(Datum.int 1, Datum.str "a"), (.float 1.0, .str "b"), (.int 1, .str "c")],
      e.1.Throughout Datum.NoNaN := by
    simp [Datum.NoNaN, hnum]
  obtain ⟨es, he, hr, -⟩ := reflect_insertions.2.1 _ hn
  exact ⟨hn, es, he, hr.inOrder.trans rfl, (hr.last _).trans rfl, (hr.last _).trans rfl⟩

end RecordRules
