import Mathlib.Data.List.Perm.Subperm
import RecordRules.Comparison
import RecordRules.Proofs.Stored

/-!
Comparing two records attribute by attribute, and their structural equality. The comparison
finds a name that only one side has where it meets it; the equality counts the names and
looks those of the left record up. On stored records they are one relation.
-/

namespace RecordRules.Comparing

/-- Where no name stands twice and the left names are all on the right, the lists are of one
length exactly when nothing is on the right alone. -/
lemma length_eq_iff {ns ms : List String} (hn : ns.Nodup) (hm : ms.Nodup) (h : ns ⊆ ms) :
    ns.length = ms.length ↔ ms ⊆ ns := by
  constructor
  · intro hlen
    exact ((hn.subperm h).perm_of_length_le (Nat.le_of_eq hlen.symm)).symm.subset
  · intro hs
    exact Nat.le_antisymm (hn.subperm h).length_le (hm.subperm hs).length_le

/-! ### Findings -/

/-- The comparison comes to findings, and they all agree exactly when `p` holds. -/
def Finds (x : Except RuleError (List Finding)) (p : Prop) : Prop :=
  ∃ fs, x = .ok fs ∧ ((∀ f ∈ fs, f.agrees = true) ↔ p)

lemma finds_single (path : String) (b : Bool) : Finds (.ok [⟨path, b⟩]) (b = true) :=
  ⟨_, rfl, by simp⟩

lemma finds_gather {names : List String} {f : String → Except RuleError (List Finding)}
    {p : String → Prop} (h : ∀ n ∈ names, Finds (f n) (p n)) :
    Finds (Finding.gather (names.map f)) (∀ n ∈ names, p n) := by
  induction names with
  | nil => exact ⟨[], rfl, by simp⟩
  | cons n names ih =>
    rw [List.forall_mem_cons] at h
    obtain ⟨fs, hfs, hp⟩ := h.1
    obtain ⟨gs, hgs, hps⟩ := ih h.2
    refine ⟨fs ++ gs, ?_, ?_⟩
    · simp only [List.map_cons, hfs, Finding.gather, hgs]
    · rw [List.forall_mem_append, List.forall_mem_cons, hp, hps]

lemma onlyRight_agrees (above : String) (names : List String) (right : Record) :
    (∀ f ∈ Finding.onlyRight above names right, f.agrees = true) ↔ right.names ⊆ names := by
  simp only [Finding.onlyRight, List.forall_mem_map, List.forall_mem_filter]
  simp [List.subset_def]

/-! ### Records -/

variable {left right : Record}

/-- The findings on records, attribute by attribute. -/
lemma finds_record {above : String} {p : String → Prop}
    (h : ∀ n ∈ left.names, Finds (Value.findings (above ++ n) (left.read n) (right.read n)) (p n)) :
    Finds (left.findings above right) ((∀ n ∈ left.names, p n) ∧ right.names ⊆ left.names) := by
  obtain ⟨fs, hfs, hp⟩ := finds_gather h
  obtain ⟨names, typeOf, read⟩ := left
  refine ⟨fs ++ Finding.onlyRight above names right, ?_, ?_⟩
  · change Finding.gather (names.map fun n => Value.findings (above ++ n) (read n) (right.read n)) =
      .ok fs at hfs
    simp only [Record.findings, hfs]
  · rw [List.forall_mem_append, hp, onlyRight_agrees]
    rfl

lemma sameRecords_iff : Value.sameRecords left right = true ↔
    left.names.length = right.names.length ∧
      ∀ n ∈ left.names, Value.sameReads (left.read n) (right.read n) = true := by
  obtain ⟨names, typeOf, read⟩ := left
  simp [Value.sameRecords, Record.names, Record.read]

lemma exists_of_sameReads {o o' : Option Value} (h : Value.sameReads o o' = true) :
    ∃ v w, o = some v ∧ o' = some w ∧ v.same w = true := by
  cases o <;> cases o' <;> first | cases h | exact ⟨_, _, rfl, rfl, h⟩

/-- Names with equal values are on the right as well. -/
lemma names_subset (hr : right.Lawful)
    (h : ∀ n ∈ left.names, Value.sameReads (left.read n) (right.read n) = true) :
    left.names ⊆ right.names := by
  intro n hn
  obtain ⟨v, w, -, hw, -⟩ := exists_of_sameReads (h n hn)
  rw [← hr.reads, hw]
  rfl

/-- Two records are gone into, all other values are compared as a whole. -/
lemma findings_some (path : String) (v w : Value) :
    (∃ l r, v = .record l ∧ w = .record r ∧
      Value.findings path (some v) (some w) = l.findings (path ++ ".") r) ∨
    Value.findings path (some v) (some w) = .ok [⟨path, v.same w⟩] := by
  cases v <;> cases w <;> first | exact .inr rfl | exact .inl ⟨_, _, rfl, rfl, rfl⟩

lemma finds_value {path : String} {v : Value} {o : Option Value}
    (h : ∀ l r above, v = .record l → o = some (.record r) →
      Finds (Record.findings above l r) (Value.sameRecords l r = true)) :
    Finds (Value.findings path (some v) o) (Value.sameReads (some v) o = true) := by
  cases o with
  | none => cases v <;> exact finds_single path false
  | some w =>
    rcases findings_some path v w with ⟨l, r, rfl, rfl, hf⟩ | hf
    · rw [hf]
      exact h l r _ rfl rfl
    · rw [hf]
      exact finds_single path (v.same w)

/-- Records that hold only lawful ones compare as identical exactly when they are the same. -/
theorem findings_same (hl : left.Throughout Record.Lawful) (hr : right.Throughout Record.Lawful)
    (above : String) :
    Finds (left.findings above right) (Value.sameRecords left right = true) := by
  induction left using Record.induct generalizing right above with
  | step left ih =>
    have each (n : String) (hn : n ∈ left.names) :
        Finds (Value.findings (above ++ n) (left.read n) (right.read n))
          (Value.sameReads (left.read n) (right.read n) = true) := by
      obtain ⟨v, hv⟩ := Option.isSome_iff_exists.1 ((hl.self.reads n).2 hn)
      rw [hv]
      refine finds_value fun l r above' hvl hwr => ?_
      subst hvl
      have hl' : left.Holds l := ⟨n, hn, hv⟩
      have hr' : right.Holds r := ⟨n, (hr.self.reads n).1 (by rw [hwr]; rfl), hwr⟩
      exact ih l hl' (hl.inside hl') (hr.inside hr') above'
    obtain ⟨fs, hfs, hp⟩ := finds_record each
    refine ⟨fs, hfs, ?_⟩
    rw [hp, sameRecords_iff, and_comm]
    refine and_congr_left fun hsame => ?_
    exact (length_eq_iff hl.self.nodup hr.self.nodup (names_subset hr.self hsame)).symm

/-! ### Stored records -/

lemma isIdentical_iff (fs : List Finding) :
    (Comparison.ofFindings fs).isIdentical = true ↔ ∀ f ∈ fs, f.agrees = true := by
  simp [Comparison.isIdentical, Comparison.ofFindings]

/-- **Comparison is equality**: two stored records, tuples or JSON objects in any
combination, can always be compared, and are identical exactly when they are the same value. -/
theorem compare_identical_iff (left right : Record) (hl : left.Stored) (hr : right.Stored) :
    ∃ c, left.compare right = .ok c ∧
      (c.isIdentical = true ↔ (Value.record left).same (.record right) = true) := by
  obtain ⟨fs, hfs, hp⟩ := findings_same hl.throughout hr.throughout ""
  refine ⟨.ofFindings fs, ?_, ?_⟩
  · unfold Record.compare
    rw [hfs]
    rfl
  · rw [isIdentical_iff, hp]
    rfl

/-- A tuple is identical to a JSON object with its attributes in another order and more that
cannot be read. -/
theorem compare_identical_reordered :
    ∃ (t : Tuple) (ms : List (String × Json)), t.toRecord.Stored ∧ (Json.toRecord ms).Stored ∧
      t.toRecord.names = ["a", "b"] ∧ (Json.toRecord ms).names = ["b", "a"] ∧
      ∃ c, t.toRecord.compare (Json.toRecord ms) = .ok c ∧ c.isIdentical = true := by
  let t : Tuple := ⟨[("a", .tuple [("x", .str "s")]), ("b", .list [.bool true])]⟩
  let ms : List (String × Json) := [
    ("b", .array [.bool true]), ("c", .array [.null]), ("a", .object [("x", .string "s")])]
  have ht : t.toRecord.Stored := .tuple t (by
    simp [t, Tuple.toDatum, Datum.Distinct, Datum.AttributesDistinct, Datum.EachDistinct])
  have hms : (Json.toRecord ms).Stored := .json ms (by
    simp [ms, Json.Distinct, Json.MembersDistinct, Json.EachDistinct])
  obtain ⟨c, hc, hi⟩ := compare_identical_iff t.toRecord (Json.toRecord ms) ht hms
  exact ⟨t, ms, ht, hms, rfl, rfl, c, hc, hi.2 (by decide)⟩

end RecordRules.Comparing
