import Mathlib.Data.List.Nodup
import RecordRules.Entries

/-!
Entries under names, looked up by name. Where no name stands twice, the look-up finds
whatever is there, whether the entries are mapped or thinned out. Insertion keeps the names
apart.
-/

namespace RecordRules.Names

variable {α β : Type} {es : List (String × α)} {n : String} {a : α}

lemma lookup_map (f : α → β) (es : List (String × α)) (n : String) :
    (es.map fun e => (e.1, f e.2)).lookup n = (es.lookup n).map f := by
  induction es with
  | nil => rfl
  | cons e es ih =>
    obtain ⟨m, a⟩ := e
    simp only [List.map_cons, List.lookup_cons, ih]
    cases n == m <;> rfl

lemma mem_of_lookup (h : es.lookup n = some a) : (n, a) ∈ es := by
  obtain ⟨before, after, rfl, -⟩ := List.lookup_eq_some_iff.1 h
  simp

lemma lookup_of_mem (hd : (es.map Prod.fst).Nodup) (h : (n, a) ∈ es) :
    es.lookup n = some a := by
  induction es with
  | nil => cases h
  | cons e es ih =>
    obtain ⟨m, b⟩ := e
    rw [List.map_cons, List.nodup_cons] at hd
    rcases List.mem_cons.1 h with he | hm
    · cases he
      simp
    · have hne : n ≠ m := by
        rintro rfl
        exact hd.1 (List.mem_map.2 ⟨_, hm, rfl⟩)
      rw [List.lookup_cons, beq_eq_false_iff_ne.2 hne]
      exact ih hd.2 hm

lemma isSome_lookup : (es.lookup n).isSome = true ↔ n ∈ es.map Prod.fst := by
  simp [List.lookup_isSome_iff]

/-! ### Mapping -/

/-- Entries whose value has no image under `f` are left out. -/
def mapped (f : α → Option β) (es : List (String × α)) : List (String × β) :=
  es.filterMap fun e => (f e.2).map fun b => (e.1, b)

lemma keys_mapped (f : α → Option β) (es : List (String × α)) :
    (mapped f es).map Prod.fst = (es.filter fun e => (f e.2).isSome).map Prod.fst := by
  induction es with
  | nil => rfl
  | cons e es ih =>
    simp only [mapped] at ih ⊢
    cases h : f e.2 <;> simp [h, ih]

lemma mem_mapped {f : α → Option β} {b : β} :
    (n, b) ∈ mapped f es ↔ ∃ a, (n, a) ∈ es ∧ f a = some b := by
  simp [mapped]

lemma nodup_mapped (f : α → Option β) (hd : (es.map Prod.fst).Nodup) :
    ((mapped f es).map Prod.fst).Nodup := by
  rw [keys_mapped]
  exact hd.sublist (List.filter_sublist.map Prod.fst)

lemma lookup_mapped (f : α → Option β) (hd : (es.map Prod.fst).Nodup) :
    (mapped f es).lookup n = (es.lookup n).bind f := by
  ext b
  constructor
  · intro h
    obtain ⟨a, ha, hb⟩ := mem_mapped.1 (mem_of_lookup h)
    rw [lookup_of_mem hd ha]
    exact hb
  · intro h
    obtain ⟨a, ha, hb⟩ := Option.bind_eq_some_iff.1 h
    exact lookup_of_mem (nodup_mapped f hd) (mem_mapped.2 ⟨a, mem_of_lookup ha, hb⟩)

/-! ### Insertion -/

/-- Each name stands once, and each value has the property. -/
def Apart (P : α → Prop) (es : List (String × α)) : Prop :=
  (es.map Prod.fst).Nodup ∧ ∀ e ∈ es, P e.2

variable {P : α → Prop}

lemma Apart.insert (h : Apart P es) (n : String) (ha : P a) : Apart P (Entries.insert n a es) := by
  obtain ⟨hd, hall⟩ := h
  constructor
  · rw [Entries.keys_insert]
    split
    · exact hd
    · next hn =>
      have hnot : n ∉ es.map Prod.fst := by simpa using hn
      exact List.nodup_append_comm.1 (List.nodup_cons.2 ⟨hnot, hd⟩)
  · clear hd
    induction es with
    | nil => exact List.forall_mem_singleton.2 ha
    | cons e es ih =>
      obtain ⟨m, b⟩ := e
      rw [List.forall_mem_cons] at hall
      unfold Entries.insert
      split
      · exact List.forall_mem_cons.2 ⟨ha, hall.2⟩
      · exact List.forall_mem_cons.2 ⟨hall.1, ih hall.2⟩

lemma apart_ofList (h : ∀ e ∈ es, P e.2) : Apart P (Entries.ofList es) := by
  have fold (acc : List (String × α)) (hacc : Apart P acc) :
      Apart P (es.foldl (fun acc e => Entries.insert e.1 e.2 acc) acc) := by
    induction es generalizing acc with
    | nil => exact hacc
    | cons e es ih =>
      rw [List.forall_mem_cons] at h
      exact ih h.2 _ (hacc.insert e.1 h.1)
  exact fold [] ⟨.nil, by simp⟩

end RecordRules.Names
