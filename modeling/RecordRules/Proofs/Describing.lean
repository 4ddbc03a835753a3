import RecordRules.Proofs.PathGrammar
import RecordRules.Proofs.Stored
import RecordRules.Record.Schema

/-!
The paths that a schema lists, and those that can be resolved. Where the names of attributes
are identifiers, names with points between them are read as the path along these names; the
schema of a stored record lists exactly the paths of that kind which lead to a value, each
with the type of the value.
-/

namespace RecordRules.Describing

open Text
open PathGrammar (StepText StepsText PathText)

/-! ### Names with points between them -/

/-- The names after the first one, each with its point. -/
def pointed (names : List String) : List Char := names.flatMap fun n => '.' :: n.toList

lemma toList_intercalate (n : String) (names : List String) :
    (".".intercalate (n :: names)).toList = n.toList ++ pointed names := by
  induction names generalizing n with
  | nil => simp [pointed]
  | cons m names ih =>
    rw [String.intercalate_cons_cons, String.toList_append, String.toList_append, ih]
    simp [pointed]

lemma intercalate_cons (n : String) {names : List String} (h : names ≠ []) :
    ".".intercalate (n :: names) = n ++ "." ++ ".".intercalate names := by
  obtain ⟨m, names, rfl⟩ := List.exists_cons_of_ne_nil h
  exact String.intercalate_cons_cons

lemma stepsText_pointed {names : List String} (h : ∀ n ∈ names, isIdent n.toList = true) :
    StepsText (pointed names) (names.map .attr) := by
  induction names with
  | nil => exact .nil
  | cons n names ih =>
    rw [List.forall_mem_cons] at h
    have hpoint : StepText ('.' :: n.toList) (.attr (String.ofList n.toList)) := .point h.1
    rw [String.ofList_toList] at hpoint
    exact .cons hpoint (ih h.2)

/-- Identifiers with points between them are read as the path along them. -/
theorem parse_names {names : List String} (hne : names ≠ [])
    (h : ∀ n ∈ names, isIdent n.toList = true) :
    ∃ p, Path.parse (".".intercalate names) = .ok p ∧ p.segments = names.map .attr := by
  obtain ⟨n, names, rfl⟩ := List.exists_cons_of_ne_nil hne
  rw [List.forall_mem_cons] at h
  rw [PathGrammar.parse_iff, toList_intercalate]
  have hpath := PathText.mk h.1 (stepsText_pointed h.2)
  rwa [String.ofList_toList] at hpath

/-! ### The types of a record -/

lemma mem_types {r : Record} {above path type : String} :
    (path, type) ∈ r.types above ↔ ∃ n ∈ r.names,
      path = above ++ n ∧ type = (r.typeOf n).getD "unknown" ∨
      ∃ s, r.read n = some (.record s) ∧ (path, type) ∈ s.types (above ++ n ++ ".") := by
  have inside (n : String) : (path, type) ∈ Value.types (above ++ n) (r.read n) ↔
      ∃ s, r.read n = some (.record s) ∧ (path, type) ∈ s.types (above ++ n ++ ".") := by
    rcases r.read n with _ | v
    · simp [Value.types]
    · cases v <;> simp [Value.types]
  have htypes : r.types above = (r.names.map fun n =>
      (above ++ n, (r.typeOf n).getD "unknown") :: Value.types (above ++ n) (r.read n)).flatten := by
    cases r
    rfl
  simp [htypes, inside]

lemma follow_attr {text n : String} {ss : List Segment} {r : Record} {v : Value} :
    Path.follow text (.attr n :: ss) (.record r) = .ok v ↔
      ∃ w, r.read n = some w ∧ Path.follow text ss w = .ok v := by
  simp only [Path.follow, Path.step]
  cases r.read n <;> simp

/-- What is listed is a chain of names that leads to a value of the listed type. -/
lemma follow_of_mem_types {r : Record} {P : String → Prop} (hr : r.Throughout Record.Lawful)
    (hn : r.Throughout fun s => ∀ n ∈ s.names, P n) (text : String) {above path type : String}
    (h : (path, type) ∈ r.types above) :
    ∃ names v, names ≠ [] ∧ (∀ n ∈ names, P n) ∧ path = above ++ ".".intercalate names ∧
      Path.follow text (names.map .attr) (.record r) = .ok v ∧ v.TypedBy type := by
  induction r using Record.induct generalizing above with
  | step r ih =>
    -- the attribute itself, or what the record read there lists
    obtain ⟨n, hmem, ⟨rfl, rfl⟩ | ⟨s, hs, hin⟩⟩ := mem_types.1 h
    · obtain ⟨v, hv⟩ := Option.isSome_iff_exists.1 ((hr.self.reads n).2 hmem)
      obtain ⟨type, htype, ht⟩ := hr.self.types n v hv
      refine ⟨[n], v, by simp, by simpa using hn.self n hmem, by simp, ?_, ?_⟩
      · exact follow_attr.2 ⟨v, hv, rfl⟩
      · rw [htype]
        exact ht
    · have hh : r.Holds s := ⟨n, hmem, hs⟩
      obtain ⟨names, v, hne, hp, rfl, hv, ht⟩ := ih s hh (hr.inside hh) (hn.inside hh) hin
      refine ⟨n :: names, v, by simp, List.forall_mem_cons.2 ⟨hn.self n hmem, hp⟩, ?_, ?_, ht⟩
      · rw [intercalate_cons n hne]
        simp only [String.append_assoc]
      · exact follow_attr.2 ⟨.record s, hs, hv⟩

/-- A chain of names that leads to a value is listed. -/
lemma mem_types_of_follow {r : Record} (hr : r.Throughout Record.Lawful) {text : String}
    {names : List String} (hne : names ≠ []) {v : Value}
    (h : Path.follow text (names.map .attr) (.record r) = .ok v) (above : String) :
    ∃ type, (above ++ ".".intercalate names, type) ∈ r.types above := by
  induction names generalizing r above with
  | nil => exact (hne rfl).elim
  | cons n names ih =>
    obtain ⟨w, hw, hv⟩ := follow_attr.1 h
    have hmem : n ∈ r.names := (hr.self.reads n).1 (by rw [hw]; rfl)
    cases names with
    | nil => exact ⟨_, mem_types.2 ⟨n, hmem, .inl ⟨by simp, rfl⟩⟩⟩
    | cons m names =>
      cases w with
      | record s =>
        obtain ⟨type, ht⟩ := ih (hr.inside ⟨n, hmem, hw⟩) (by simp) hv (above ++ n ++ ".")
        refine ⟨type, mem_types.2 ⟨n, hmem, .inr ⟨s, hw, ?_⟩⟩⟩
        rw [intercalate_cons n (by simp)]
        simpa only [String.append_assoc] using ht
      | bool | int | float | str | set | list | map => cases hv

/-! ### The schema -/

lemma mem_types_of_typeOf {r : Record} {text type : String}
    (h : r.describe.typeOf? text = some type) : (text, type) ∈ r.types "" := by
  rw [Schema.typeOf?, Record.describe, Sorted.lookup_ofEntries] at h
  exact List.mem_reverse.1 (Names.mem_of_lookup h)

lemma exists_typeOf {r : Record} {text : String} :
    text ∈ r.describe.attributes.map Prod.fst ↔ ∃ type, r.describe.typeOf? text = some type := by
  rw [← Names.isSome_lookup, Option.isSome_iff_exists]
  rfl

lemma listed_of_mem_types {r : Record} {text type : String} (h : (text, type) ∈ r.types "") :
    text ∈ r.describe.attributes.map Prod.fst := by
  rw [← Names.isSome_lookup, Record.describe, Sorted.lookup_ofEntries, Names.isSome_lookup]
  exact List.mem_map.2 ⟨_, List.mem_reverse.2 h, rfl⟩

/-- What is listed is the text of a path along attributes to a value of the listed type. -/
lemma resolves_of_mem_types {r : Record} (hs : r.Stored)
    (hn : r.Throughout fun s => ∀ n ∈ s.names, isIdent n.toList = true) {text type : String}
    (h : (text, type) ∈ r.types "") :
    ∃ names p v, names ≠ [] ∧ text = ".".intercalate names ∧ Path.parse text = .ok p ∧
      p.segments = names.map .attr ∧ p.resolve r = .ok v ∧ v.TypedBy type := by
  obtain ⟨names, v, hne, hident, rfl, hv, ht⟩ := follow_of_mem_types hs.throughout hn text h
  rw [String.empty_append] at hv ⊢
  obtain ⟨p, hp, hsegs⟩ := parse_names hne hident
  refine ⟨names, p, v, hne, rfl, hp, hsegs, ?_, ht⟩
  rw [Path.resolve, hsegs, PathGrammar.parse_eq_ok.1 hp]
  exact hv

/-- **The schema agrees with the resolver**: the schema of a stored record whose names are
identifiers lists the texts of the paths along attributes that lead to a value, and gives each
the type of the value there. -/
theorem describe_iff_resolves (r : Record) (hs : r.Stored)
    (hn : r.Throughout fun s => ∀ n ∈ s.names, isIdent n.toList = true) :
    (∀ text, text ∈ r.describe.attributes.map Prod.fst ↔
      ∃ names p v, names ≠ [] ∧ text = ".".intercalate names ∧
        Path.parse text = .ok p ∧ p.segments = names.map .attr ∧ p.resolve r = .ok v) ∧
    ∀ text ∈ r.describe.attributes.map Prod.fst, ∃ type p v,
      r.describe.typeOf? text = some type ∧ Path.parse text = .ok p ∧ p.resolve r = .ok v ∧
        v.TypedBy type := by
  refine ⟨fun text => ⟨fun h => ?_, ?_⟩, fun text h => ?_⟩
  · obtain ⟨type, htype⟩ := exists_typeOf.1 h
    obtain ⟨names, p, v, hne, htext, hp, hsegs, hv, -⟩ :=
      resolves_of_mem_types hs hn (mem_types_of_typeOf htype)
    exact ⟨names, p, v, hne, htext, hp, hsegs, hv⟩
  · rintro ⟨names, p, v, hne, rfl, -, hsegs, hv⟩
    rw [Path.resolve, hsegs] at hv
    obtain ⟨type, h⟩ := mem_types_of_follow hs.throughout hne hv ""
    rw [String.empty_append] at h
    exact listed_of_mem_types h
  · obtain ⟨type, htype⟩ := exists_typeOf.1 h
    obtain ⟨_, p, v, -, -, hp, -, hv, ht⟩ :=
      resolves_of_mem_types hs hn (mem_types_of_typeOf htype)
    exact ⟨type, p, v, htype, hp, hv, ht⟩

/-- A list inside a record inside a record. -/
def nested : Tuple := ⟨[("a", .tuple [("b", .list [])])]⟩

theorem describe_iff_resolves_nested :
    ∃ p v, Path.parse "a.b" = .ok p ∧ p.resolve nested.toRecord = .ok v ∧
      v.TypedBy "list<unknown>" := by
  have hs : nested.toRecord.Stored := .tuple nested (by simp [nested, Tuple.toDatum,
    Datum.Distinct, Datum.AttributesDistinct, Datum.EachDistinct])
  have hn : nested.toRecord.Throughout fun s => ∀ n ∈ s.names, isIdent n.toList = true := by
    refine .intro (by decide) ?_
    rintro s ⟨n, hmem, hr⟩
    obtain rfl : n = "a" := List.mem_singleton.1 hmem
    cases hr
    refine .intro (by decide) ?_
    rintro s ⟨n, hmem, hr⟩
    obtain rfl : n = "b" := List.mem_singleton.1 hmem
    cases hr
  obtain ⟨type, p, v, htype, hp, hv, ht⟩ :=
    (describe_iff_resolves nested.toRecord hs hn).2 "a.b" (by decide)
  have hlist : nested.toRecord.describe.typeOf? "a.b" = some "list<unknown>" := by decide
  rw [hlist] at htype
  cases htype
  exact ⟨p, v, hp, hv, ht⟩

end RecordRules.Describing
