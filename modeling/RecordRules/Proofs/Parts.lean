import Mathlib.Logic.Relation
import RecordRules.Proofs.Distinct

/-!
The parts of a datum: the elements of a set or a list, the keys and the values of a map, the
values of a tuple. What holds of a datum as soon as it holds of its parts holds of all data.

Data that is built by the constructors that drop duplicates is told from data at large. Its
tuples name each attribute once.
-/

namespace RecordRules.Datum

/-- The data that a datum is made of directly. -/
def parts : Datum → List Datum
  | .set items | .list items => items
  | .map entries => entries.map Prod.fst ++ entries.map Prod.snd
  | .tuple as => as.map Prod.snd
  | _ => []

/-- The property holds of the datum and of all data inside it. -/
def Throughout (P : Datum → Prop) (d : Datum) : Prop :=
  ∀ c, Relation.ReflTransGen (fun d c => c ∈ d.parts) d c → P c

variable {P Q : Datum → Prop} {c d : Datum}

lemma Throughout.self (h : d.Throughout P) : P d := h d .refl

lemma Throughout.part (h : d.Throughout P) (hc : c ∈ d.parts) : c.Throughout P :=
  fun b hb => h b (.head hc hb)

lemma Throughout.intro (self : P d) (parts : ∀ c ∈ d.parts, c.Throughout P) :
    d.Throughout P := by
  intro b hb
  obtain rfl | ⟨c, hc, hcb⟩ := hb.cases_head
  · exact self
  · exact parts c hc b hcb

lemma throughout_iff : d.Throughout P ↔ P d ∧ ∀ c ∈ d.parts, c.Throughout P :=
  ⟨fun h => ⟨h.self, fun _ => h.part⟩, fun h => .intro h.1 h.2⟩

variable {entries : List (Datum × Datum)} {e : Datum × Datum} {as : List (String × Datum)}
  {a : String × Datum} {items : List Datum}

lemma throughout_leaf (h : d.parts = []) : d.Throughout P ↔ P d := by
  rw [throughout_iff, h]
  simp

@[simp] lemma throughout_bool (b : Bool) : (bool b).Throughout P ↔ P (.bool b) :=
  throughout_leaf rfl

@[simp] lemma throughout_int (i : Int64) : (int i).Throughout P ↔ P (.int i) :=
  throughout_leaf rfl

@[simp] lemma throughout_float (x : Float) : (float x).Throughout P ↔ P (.float x) :=
  throughout_leaf rfl

@[simp] lemma throughout_str (s : String) : (str s).Throughout P ↔ P (.str s) :=
  throughout_leaf rfl

@[simp] lemma throughout_set : (set items).Throughout P ↔
    P (.set items) ∧ ∀ c ∈ items, c.Throughout P := throughout_iff

@[simp] lemma throughout_map : (map entries).Throughout P ↔
    P (.map entries) ∧ ∀ e ∈ entries, e.1.Throughout P ∧ e.2.Throughout P := by
  rw [throughout_iff, parts]
  simp only [List.forall_mem_append, List.forall_mem_map, forall_and]

@[simp] lemma throughout_tuple : (tuple as).Throughout P ↔
    P (.tuple as) ∧ ∀ a ∈ as, a.2.Throughout P := by
  rw [throughout_iff, parts, List.forall_mem_map]

lemma key_mem_parts (h : e ∈ entries) : e.1 ∈ (map entries).parts :=
  List.mem_append_left _ (List.mem_map_of_mem h)

lemma value_mem_parts (h : e ∈ entries) : e.2 ∈ (map entries).parts :=
  List.mem_append_right _ (List.mem_map_of_mem h)

lemma attribute_mem_parts (h : a ∈ as) : a.2 ∈ (tuple as).parts :=
  List.mem_map_of_mem h

lemma sizeOf_part (h : c ∈ d.parts) : sizeOf c < sizeOf d := by
  cases d with
  | set items | list items =>
    have hlt : sizeOf c < sizeOf items := List.sizeOf_lt_of_mem h
    simp only [set.sizeOf_spec, list.sizeOf_spec]
    omega
  | map entries =>
    -- a key and a value are both smaller than the entry they stand in
    have inside (k v : Datum) (he : (k, v) ∈ entries) :
        sizeOf k + sizeOf v < sizeOf (map entries) := by
      have hlt : sizeOf (k, v) < sizeOf entries := List.sizeOf_lt_of_mem he
      simp only [Prod.mk.sizeOf_spec, map.sizeOf_spec] at hlt ⊢
      omega
    rcases List.mem_append.1 h with h | h
    · obtain ⟨⟨k, v⟩, he, rfl⟩ := List.mem_map.1 h
      exact Nat.lt_of_le_of_lt (Nat.le_add_right ..) (inside k v he)
    · obtain ⟨⟨k, v⟩, he, rfl⟩ := List.mem_map.1 h
      exact Nat.lt_of_le_of_lt (Nat.le_add_left ..) (inside k v he)
  | tuple as =>
    obtain ⟨⟨n, b⟩, ha, rfl⟩ := List.mem_map.1 h
    have hlt : sizeOf (n, b) < sizeOf as := List.sizeOf_lt_of_mem ha
    simp only [Prod.mk.sizeOf_spec, tuple.sizeOf_spec] at hlt ⊢
    omega
  | bool | int | float | str => cases h

/-- Induction from the parts of a datum to the datum. -/
theorem induct (step : ∀ d, (∀ c ∈ d.parts, P c) → P d) (d : Datum) : P d :=
  step d fun c _ => induct step c
termination_by sizeOf d
decreasing_by exact sizeOf_part ‹_›

/-! ### Views -/

lemma views_eq_map (ds : List Datum) : views ds = ds.map view := by
  induction ds with
  | nil => rfl
  | cons d ds ih => rw [views, ih, List.map_cons]

lemma entryViews_eq_map (es : List (Datum × Datum)) :
    entryViews es = es.map fun e => (e.1.view, e.2.view) := by
  induction es with
  | nil => rfl
  | cons e es ih => rw [entryViews, ih, List.map_cons]

/-! ### Names -/

lemma entriesDistinct_iff : EntriesDistinct entries ↔
    ∀ e ∈ entries, e.1.Distinct ∧ e.2.Distinct := by
  induction entries with
  | nil => simp [EntriesDistinct]
  | cons e es ih => rw [EntriesDistinct, ih, List.forall_mem_cons, and_assoc]

lemma distinct_part (h : d.Distinct) (hc : c ∈ d.parts) : c.Distinct := by
  cases d with
  | set items | list items => exact eachDistinct_iff.1 h c hc
  | map entries =>
    have hall := entriesDistinct_iff.1 h
    rcases List.mem_append.1 hc with hc | hc
    · obtain ⟨e, he, rfl⟩ := List.mem_map.1 hc
      exact (hall e he).1
    · obtain ⟨e, he, rfl⟩ := List.mem_map.1 hc
      exact (hall e he).2
  | tuple as =>
    obtain ⟨a, ha, rfl⟩ := List.mem_map.1 hc
    exact attributesDistinct_iff.1 h.2 a ha
  | bool | int | float | str => cases hc

/-! ### Building data -/

/-- Data made by the constructors: sets and maps drop duplicates, tuples are made by
insertion. -/
inductive Built : Datum → Prop
  | bool (b : Bool) : Built (.bool b)
  | int (i : Int64) : Built (.int i)
  | float (x : Float) : Built (.float x)
  | str (s : String) : Built (.str s)
  | set (items : List Datum) (h : ∀ d ∈ items, Built d) : Built (ofItems items)
  | list (items : List Datum) (h : ∀ d ∈ items, Built d) : Built (.list items)
  | map (entries : List (Datum × Datum)) (hk : ∀ e ∈ entries, Built e.1)
      (hv : ∀ e ∈ entries, Built e.2) : Built (ofEntries entries)
  | tuple (as : List (String × Datum)) (h : ∀ a ∈ as, Built a.2) :
      Built (Tuple.ofList as).toDatum

end RecordRules.Datum

namespace RecordRules.Entries

variable {κ α : Type} [BEq κ]

/-- Nothing stands among the distinct elements that was not given. -/
lemma subset_distinct (xs : List κ) : distinct xs ⊆ xs := by
  have fold (acc : List κ) :
      xs.foldl (fun acc x => if acc.any (· == x) then acc else acc ++ [x]) acc ⊆ acc ++ xs := by
    induction xs generalizing acc with
    | nil => simp
    | cons x xs ih =>
      refine List.Subset.trans (ih _) ?_
      dsimp only
      split
      · exact List.append_subset.2 ⟨List.subset_append_left _ _, by simp⟩
      · simp
  exact fold []

/-- A key and a value that are inserted have the properties of what was there before. -/
lemma insert_forall {P : κ → Prop} {Q : α → Prop} {k : κ} {v : α} {es : List (κ × α)}
    (hk : P k) (hv : Q v) (h : ∀ e ∈ es, P e.1 ∧ Q e.2) : ∀ e ∈ insert k v es, P e.1 ∧ Q e.2 := by
  induction es with
  | nil => exact List.forall_mem_singleton.2 ⟨hk, hv⟩
  | cons e es ih =>
    obtain ⟨k', v'⟩ := e
    rw [List.forall_mem_cons] at h
    unfold insert
    split
    · exact List.forall_mem_cons.2 ⟨⟨h.1.1, hv⟩, h.2⟩
    · exact List.forall_mem_cons.2 ⟨h.1, ih h.2⟩

lemma ofList_forall {P : κ → Prop} {Q : α → Prop} {es : List (κ × α)}
    (h : ∀ e ∈ es, P e.1 ∧ Q e.2) : ∀ e ∈ ofList es, P e.1 ∧ Q e.2 := by
  have fold (acc : List (κ × α)) (hacc : ∀ e ∈ acc, P e.1 ∧ Q e.2) :
      ∀ e ∈ es.foldl (fun acc e => insert e.1 e.2 acc) acc, P e.1 ∧ Q e.2 := by
    induction es generalizing acc with
    | nil => exact hacc
    | cons e es ih =>
      rw [List.forall_mem_cons] at h
      exact ih h.2 _ (insert_forall h.1.1 h.1.2 hacc)
  exact fold [] (by simp)

end RecordRules.Entries

namespace RecordRules.Datum

lemma Built.distinct {d : Datum} (h : d.Built) : d.Distinct := by
  induction h with
  | bool | int | float | str => trivial
  | set items _ ih =>
    exact eachDistinct_iff.2 fun d hd => ih d (Entries.subset_distinct items hd)
  | list items _ ih => exact eachDistinct_iff.2 ih
  | map entries _ _ ihk ihv =>
    exact entriesDistinct_iff.2 (Entries.ofList_forall fun e he => ⟨ihk e he, ihv e he⟩)
  | tuple as _ ih => exact Tuple.distinct_ofList ih

end RecordRules.Datum
