import Mathlib.Data.List.Forall2
import RecordRules.Comparison
import RecordRules.Proofs.Describing

/-!
What a comparison of two records reports. It goes into records that both sides have, and stops
at leaves: names under which not both have a record. Each leaf is reported once, under the
chain of names that leads to it, and found to differ where only one side has it. At each level
the names of the left record come first, in their order, then those that only the right one has.
-/

namespace RecordRules

open Describing (parse_names follow_attr)
open Text (isIdent)

namespace Record

/-- The names that are compared, in order. -/
def order (left right : Record) : List String :=
  left.names ++ right.names.filter fun n => !left.names.contains n

end Record

mutual

/-- The chains of names that lead to the leaves of two records, with the verdict on each. -/
def Record.leaves : Record → Record → List (List String × Bool)
  | .mk names typeOf read, right =>
    ((Record.mk names typeOf read).order right).flatMap fun n =>
      Value.leaves n (read n) (right.read n)
termination_by structural left => left

def Value.leaves (n : String) : Option Value → Option Value → List (List String × Bool)
  | some (.record l), some (.record r) => (Record.leaves l r).map fun f => (n :: f.1, f.2)
  | some v, some w => [([n], v.same w)]
  | none, none => []
  | _, _ => [([n], false)]
termination_by structural left => left

end

/-- Both values are records, so that a comparison goes into them. -/
def Value.Nested (v w : Value) : Prop := v.kind = .record ∧ w.kind = .record

/-- The verdict on a leaf, from what the two sides have there. -/
inductive Verdict : Option Value → Option Value → Bool → Prop
  | both (v w : Value) (h : ¬v.Nested w) : Verdict (some v) (some w) (v.same w)
  | left (v : Value) : Verdict (some v) none false
  | right (w : Value) : Verdict none (some w) false

lemma Verdict.unique {o o' : Option Value} {b b' : Bool} (h : Verdict o o' b)
    (h' : Verdict o o' b') : b = b' := by
  cases h <;> cases h' <;> rfl

lemma Verdict.isSome {o o' : Option Value} {b : Bool} (h : Verdict o o' b) :
    o.isSome = true ∨ o'.isSome = true := by
  cases h <;> simp

/-- The chain of names leads from one record into another. -/
inductive Record.Reaches : Record → List String → Record → Prop
  | here (r : Record) : Reaches r [] r
  | inside {r s t : Record} {n : String} {ns : List String} (h : r.read n = some (.record s))
      (hs : Reaches s ns t) : Reaches r (n :: ns) t

namespace Leaves

variable {l r l' r' s : Record} {n : String} {ns ups : List String} {o o' : Option Value} {b : Bool}

/-! ### One name -/

lemma nested_cases (v w : Value) :
    (∃ l r, v = .record l ∧ w = .record r) ∨ ¬v.Nested w := by
  cases v <;> cases w <;>
    first | exact .inl ⟨_, _, rfl, rfl⟩ | exact .inr (by simp [Value.Nested, Value.kind])

/-- Under a name are two records, nothing on either side, or a leaf. -/
lemma sides_cases (o o' : Option Value) :
    (∃ l r, o = some (.record l) ∧ o' = some (.record r)) ∨ (o = none ∧ o' = none) ∨
      ∃ b, Verdict o o' b := by
  cases o with
  | none =>
    cases o' with
    | none => exact .inr (.inl ⟨rfl, rfl⟩)
    | some w => exact .inr (.inr ⟨false, .right w⟩)
  | some v =>
    cases o' with
    | none => exact .inr (.inr ⟨false, .left v⟩)
    | some w =>
      rcases nested_cases v w with ⟨l, r, rfl, rfl⟩ | h
      · exact .inl ⟨l, r, rfl, rfl⟩
      · exact .inr (.inr ⟨_, .both v w h⟩)

lemma not_nested_records (l r : Record) : ¬¬(Value.record l).Nested (.record r) :=
  not_not_intro ⟨rfl, rfl⟩

lemma leaves_of_verdict (h : Verdict o o' b) (n : String) :
    Value.leaves n o o' = [([n], b)] := by
  cases h with
  | both v w h =>
    cases v <;> cases w <;> first | rfl | exact absurd h (not_nested_records _ _)
  | left v => cases v <;> rfl
  | right w => rfl

lemma findings_of_verdict {v : Value} (h : Verdict (some v) o b) (path : String) :
    Value.findings path (some v) o = .ok [⟨path, b⟩] := by
  cases h with
  | both _ w h =>
    cases v <;> cases w <;> first | rfl | exact absurd h (not_nested_records _ _)
  | left => cases v <;> rfl

/-- What is found under a name are the leaves inside two records, or one leaf. -/
lemma mem_value_leaves : (ns, b) ∈ Value.leaves n o o' ↔
    (∃ l r ms, o = some (.record l) ∧ o' = some (.record r) ∧ ns = n :: ms ∧
      (ms, b) ∈ l.leaves r) ∨
    ns = [n] ∧ Verdict o o' b := by
  rcases sides_cases o o' with ⟨l, r, rfl, rfl⟩ | ⟨rfl, rfl⟩ | ⟨b', h⟩
  · constructor
    · intro hmem
      obtain ⟨⟨ms, _⟩, hf, ⟨⟩⟩ := List.mem_map.1 hmem
      exact .inl ⟨l, r, ms, rfl, rfl, rfl, hf⟩
    · rintro (⟨_, _, ms, ⟨⟩, ⟨⟩, rfl, hf⟩ | ⟨-, ⟨⟩⟩)
      · exact List.mem_map.2 ⟨_, hf, rfl⟩
      · exact absurd ‹_› (not_nested_records l r)
  · constructor
    · nofun
    · rintro (⟨_, _, _, ⟨⟩, _⟩ | ⟨-, ⟨⟩⟩)
  · rw [leaves_of_verdict h, List.mem_singleton]
    constructor
    · rintro ⟨⟩
      exact .inr ⟨rfl, h⟩
    · rintro (⟨l, r, _, rfl, rfl, _⟩ | ⟨rfl, h'⟩)
      · cases h
        exact absurd ‹_› (not_nested_records l r)
      · rw [Verdict.unique h h']

/-! ### All names -/

lemma leaves_eq (l r : Record) : l.leaves r =
    (l.order r).flatMap fun n => Value.leaves n (l.read n) (r.read n) := by
  cases l
  rfl

lemma mem_order (hl : l.Lawful) (hr : r.Lawful) :
    n ∈ l.order r ↔ (l.read n).isSome = true ∨ (r.read n).isSome = true := by
  rw [hl.reads, hr.reads, Record.order, List.mem_append, List.mem_filter]
  simp
  tauto

lemma nodup_order (hl : l.Lawful) (hr : r.Lawful) : (l.order r).Nodup := by
  refine List.nodup_append'.2 ⟨hl.nodup, hr.nodup.filter _, fun n hn hm => ?_⟩
  simp [hn] at hm

lemma mem_leaves_step (hl : l.Lawful) (hr : r.Lawful) :
    (ns, b) ∈ l.leaves r ↔ ∃ n, (ns, b) ∈ Value.leaves n (l.read n) (r.read n) := by
  rw [leaves_eq, List.mem_flatMap]
  refine exists_congr fun n => and_iff_right_of_imp fun h => (mem_order hl hr).2 ?_
  cases hleft : l.read n with
  | some v => exact .inl rfl
  | none =>
    cases hright : r.read n with
    | some w => exact .inr rfl
    | none => simp [hleft, hright, Value.leaves] at h

lemma holds_of_read (hl : l.Lawful) (h : l.read n = some (.record s)) : l.Holds s :=
  ⟨n, (hl.reads n).1 (by rw [h]; rfl), h⟩

lemma lawful_read (hl : l.Throughout Record.Lawful) (h : l.read n = some (.record s)) :
    s.Throughout Record.Lawful :=
  hl.inside (holds_of_read hl.self h)

/-- Induction on two records at once: a claim on them may use that it holds for the two records
under a name. -/
theorem induct_both
    {motive : (l r : Record) → l.Throughout Record.Lawful → r.Throughout Record.Lawful → Prop}
    (step : ∀ l r hl hr, (∀ (n : String) (l₁ r₁ : Record) (hleft : l.read n = some (.record l₁))
      (hright : r.read n = some (.record r₁)),
      motive l₁ r₁ (lawful_read hl hleft) (lawful_read hr hright)) → motive l r hl hr)
    (l r : Record) (hl : l.Throughout Record.Lawful) (hr : r.Throughout Record.Lawful) :
    motive l r hl hr := by
  induction l using Record.induct generalizing r with
  | step l ih =>
    refine step l r hl hr fun n l₁ r₁ hleft hright => ?_
    exact ih l₁ (holds_of_read hl.self hleft) r₁ _ _

/-- A leaf lies in two records that the same chain leads to. -/
theorem mem_leaves (hl : l.Throughout Record.Lawful) (hr : r.Throughout Record.Lawful) :
    (ns, b) ∈ l.leaves r ↔ ∃ ups n l' r', ns = ups ++ [n] ∧ l.Reaches ups l' ∧
      r.Reaches ups r' ∧ Verdict (l'.read n) (r'.read n) b := by
  induction l, r, hl, hr using induct_both generalizing ns with
  | step l r hl hr ih =>
    rw [mem_leaves_step hl.self hr.self]
    simp only [mem_value_leaves]
    constructor
    · rintro ⟨n, ⟨l₁, r₁, ms, hleft, hright, rfl, hms⟩ | ⟨rfl, hv⟩⟩
      · obtain ⟨ups, m, l', r', rfl, hl', hr', hv⟩ := (ih n l₁ r₁ hleft hright).1 hms
        exact ⟨n :: ups, m, l', r', rfl, .inside hleft hl', .inside hright hr', hv⟩
      · exact ⟨[], n, l, r, rfl, .here l, .here r, hv⟩
    · rintro ⟨ups, n, l', r', rfl, hl', hr', hv⟩
      cases hl' with
      | here =>
        cases hr'
        exact ⟨n, .inr ⟨rfl, hv⟩⟩
      | @inside _ l₁ _ m ups hleft hl' =>
        cases hr' with
        | @inside _ r₁ _ _ _ hright hr' =>
          refine ⟨m, .inl ⟨l₁, r₁, _, hleft, hright, rfl, ?_⟩⟩
          exact (ih m l₁ r₁ hleft hright).2 ⟨ups, n, l', r', rfl, hl', hr', hv⟩

/-! ### The findings of a comparison -/

/-- What a comparison reports of a leaf. -/
def finding (above : String) (f : List String × Bool) : Finding :=
  ⟨above ++ ".".intercalate f.1, f.2⟩

lemma finding_inside (above n : String) {f : List String × Bool} (h : f.1 ≠ []) :
    finding (above ++ n ++ ".") f = finding above (n :: f.1, f.2) := by
  simp only [finding, Describing.intercalate_cons n h, String.append_assoc]

lemma ne_nil_of_mem_leaves (hl : l.Throughout Record.Lawful) (hr : r.Throughout Record.Lawful)
    {f : List String × Bool} (h : f ∈ l.leaves r) : f.1 ≠ [] := by
  obtain ⟨ns, b⟩ := f
  obtain ⟨ups, n, -, -, rfl, -⟩ := (mem_leaves hl hr).1 h
  simp

lemma gather_eq {f : String → Except RuleError (List Finding)} {g : String → List Finding}
    {names : List String} (h : ∀ n ∈ names, f n = .ok (g n)) :
    Finding.gather (names.map f) = .ok (names.flatMap g) := by
  induction names with
  | nil => rfl
  | cons n names ih =>
    rw [List.forall_mem_cons] at h
    simp only [List.map_cons, h.1, Finding.gather, ih h.2, List.flatMap_cons]

lemma findings_of_each {above : String} {g : String → List Finding}
    (h : ∀ n ∈ l.names, Value.findings (above ++ n) (l.read n) (r.read n) = .ok (g n)) :
    l.findings above r = .ok (l.names.flatMap g ++ Finding.onlyRight above l.names r) := by
  have hgather := gather_eq h
  obtain ⟨names, typeOf, read⟩ := l
  change Finding.gather (names.map fun n => Value.findings (above ++ n) (read n) (r.read n)) =
    .ok (names.flatMap g) at hgather
  simp only [Record.findings, hgather]
  rfl

/-- The names that the right record has alone are leaves of their own. -/
lemma onlyRight_eq (hl : l.Lawful) (hr : r.Lawful) (above : String) :
    Finding.onlyRight above l.names r = (r.names.filter fun n => !l.names.contains n).flatMap
      fun n => (Value.leaves n (l.read n) (r.read n)).map (finding above) := by
  rw [Finding.onlyRight, List.map_eq_flatMap]
  refine List.flatMap_congr fun n hn => ?_
  obtain ⟨hmem, hnot⟩ := List.mem_filter.1 hn
  obtain ⟨w, hw⟩ := Option.isSome_iff_exists.1 ((hr.reads n).2 hmem)
  have hnone : l.read n = none := by
    rw [Option.eq_none_iff_forall_ne_some]
    rintro v hv
    simp [(hl.reads n).1 (by rw [hv]; rfl)] at hnot
  rw [hnone, hw, leaves_of_verdict (.right w)]
  simp [finding]

/-- The comparison succeeds, and reports the leaves. -/
theorem findings_eq (hl : l.Throughout Record.Lawful) (hr : r.Throughout Record.Lawful)
    (above : String) : l.findings above r = .ok ((l.leaves r).map (finding above)) := by
  induction l, r, hl, hr using induct_both generalizing above with
  | step l r hl hr ih =>
    have each (n : String) (hn : n ∈ l.names) :
        Value.findings (above ++ n) (l.read n) (r.read n) =
          .ok ((Value.leaves n (l.read n) (r.read n)).map (finding above)) := by
      obtain ⟨v, hv⟩ := Option.isSome_iff_exists.1 ((hl.self.reads n).2 hn)
      rcases sides_cases (l.read n) (r.read n) with ⟨l₁, r₁, hleft, hright⟩ | ⟨hnone, -⟩ | ⟨b, h⟩
      · rw [hleft, hright]
        refine (ih n l₁ r₁ hleft hright (above ++ n ++ ".")).trans ?_
        rw [Value.leaves, List.map_map]
        refine congrArg Except.ok (List.map_congr_left fun f hf => ?_)
        exact finding_inside above n
          (ne_nil_of_mem_leaves (lawful_read hl hleft) (lawful_read hr hright) hf)
      · cases hv.symm.trans hnone
      · rw [leaves_of_verdict h]
        rw [hv] at h ⊢
        rw [findings_of_verdict h]
        simp [finding]
    rw [findings_of_each each, onlyRight_eq hl.self hr.self, leaves_eq, List.map_flatMap,
      Record.order, List.flatMap_append]

/-! ### The order of the leaves -/

/-- Of two chains the first comes before the second: where they part, its name comes first. -/
inductive Before : Record → Record → List String → List String → Prop
  | here {l r : Record} {m n : String} {ms ns : List String} (h : [m, n].Sublist (l.order r)) :
      Before l r (m :: ms) (n :: ns)
  | inside {l r l' r' : Record} {n : String} {ms ns : List String}
      (hl : l.read n = some (.record l')) (hr : r.read n = some (.record r'))
      (h : Before l' r' ms ns) : Before l r (n :: ms) (n :: ns)

lemma before_irrefl (hl : l.Throughout Record.Lawful) (hr : r.Throughout Record.Lawful) :
    ¬Before l r ns ns := by
  induction ns generalizing l r with
  | nil => nofun
  | cons n ns ih =>
    intro h
    cases h with
    | here h =>
      have htwice := (nodup_order hl.self hr.self).sublist h
      simp at htwice
    | inside hleft hright h =>
      exact ih (lawful_read hl hleft) (lawful_read hr hright) h

lemma exists_tail {f : List String × Bool} (h : f ∈ Value.leaves n o o') :
    ∃ ms, f.1 = n :: ms := by
  obtain ⟨ns, b⟩ := f
  rcases mem_value_leaves.1 h with ⟨-, -, ms, -, -, rfl, -⟩ | ⟨rfl, -⟩
  · exact ⟨ms, rfl⟩
  · exact ⟨[], rfl⟩

theorem leaves_ordered (hl : l.Throughout Record.Lawful) (hr : r.Throughout Record.Lawful) :
    ((l.leaves r).map Prod.fst).Pairwise (Before l r) := by
  induction l, r, hl, hr using induct_both with
  | step l r hl hr ih =>
    rw [leaves_eq, List.map_flatMap, List.pairwise_flatMap]
    constructor
    · intro n _
      rcases sides_cases (l.read n) (r.read n) with ⟨l₁, r₁, hleft, hright⟩ | ⟨hleft, hright⟩ |
        ⟨b, h⟩
      · rw [hleft, hright, Value.leaves, List.map_map, List.pairwise_map]
        have hin := ih n l₁ r₁ hleft hright
        rw [List.pairwise_map] at hin
        exact hin.imp fun h => .inside hleft hright h
      · rw [hleft, hright]
        exact .nil
      · rw [leaves_of_verdict h]
        exact List.pairwise_singleton ..
    · rw [List.pairwise_iff_forall_sublist]
      intro m n hmn x hx y hy
      obtain ⟨f, hf, rfl⟩ := List.mem_map.1 hx
      obtain ⟨g, hg, rfl⟩ := List.mem_map.1 hy
      obtain ⟨ms, hms⟩ := exists_tail hf
      obtain ⟨ns, hns⟩ := exists_tail hg
      rw [hms, hns]
      exact .here hmn

/-! ### Leaves and paths -/

/-- The text spells the path along the names. -/
def Along (text : String) (names : List String) : Prop :=
  names ≠ [] ∧ text = ".".intercalate names ∧
    ∃ p, Path.parse text = .ok p ∧ p.segments = names.map .attr

/-- The path along the names leads to the record; no names lead to the record itself. -/
def At (r : Record) (names : List String) (s : Record) : Prop :=
  names = [] ∧ s = r ∨ ∃ text, Along text names ∧ r.resolve text = .ok (.record s)

variable {text : String} {names : List String} {v : Value}

lemma Along.unique {names' : List String} (h : Along text names) (h' : Along text names') :
    names = names' := by
  obtain ⟨-, -, p, hp, hsegs⟩ := h
  obtain ⟨-, -, p', hp', hsegs'⟩ := h'
  rw [hp] at hp'
  cases hp'
  exact List.map_injective_iff.2 (fun _ _ => Segment.attr.inj) (hsegs.symm.trans hsegs')

lemma along_of_ident (hne : names ≠ []) (h : ∀ n ∈ names, isIdent n.toList = true) :
    Along (".".intercalate names) names :=
  ⟨hne, rfl, parse_names hne h⟩

lemma exists_record {ss : List Segment} {w : Value}
    (h : Path.follow text (.attr n :: ss) w = .ok v) : ∃ s, w = .record s := by
  cases w with
  | record s => exact ⟨s, rfl⟩
  | bool | int | float | str | set | list | map => cases h

lemma follow_names : Path.follow text ((ups ++ [n]).map .attr) (.record r) = .ok v ↔
    ∃ s, r.Reaches ups s ∧ s.read n = some v := by
  induction ups generalizing r with
  | nil =>
    rw [List.nil_append, List.map_singleton, follow_attr]
    constructor
    · rintro ⟨w, hw, ⟨⟩⟩
      exact ⟨r, .here r, hw⟩
    · rintro ⟨s, ⟨⟩, hv⟩
      exact ⟨v, hv, rfl⟩
  | cons m ups ih =>
    rw [List.cons_append, List.map_cons, follow_attr]
    constructor
    · rintro ⟨w, hw, hv⟩
      obtain ⟨k, ss, hk⟩ : ∃ k ss, (ups ++ [n]).map Segment.attr = .attr k :: ss := by
        cases ups <;> exact ⟨_, _, rfl⟩
      obtain ⟨s, rfl⟩ := exists_record (hk ▸ hv)
      obtain ⟨t, ht, hread⟩ := ih.1 hv
      exact ⟨t, .inside hw ht, hread⟩
    · rintro ⟨t, ht, hread⟩
      cases ht with
      | inside hw ht => exact ⟨_, hw, ih.2 ⟨t, ht, hread⟩⟩

lemma resolve_along (h : Along text (ups ++ [n])) :
    r.resolve text = .ok v ↔ ∃ s, r.Reaches ups s ∧ s.read n = some v := by
  obtain ⟨-, -, p, hp, hsegs⟩ := h
  rw [Record.resolve, hp]
  change Path.follow p.text p.segments (.record r) = .ok v ↔ _
  rw [hsegs, follow_names]

lemma reaches_snoc : l.Reaches (ups ++ [n]) s ↔
    ∃ r, l.Reaches ups r ∧ r.read n = some (.record s) := by
  constructor
  · intro h
    induction ups generalizing l with
    | nil =>
      cases h with
      | inside h hs =>
        cases hs
        exact ⟨l, .here l, h⟩
    | cons m ups ih =>
      cases h with
      | inside h hs =>
        obtain ⟨r, hr, hn⟩ := ih hs
        exact ⟨r, .inside h hr, hn⟩
  · rintro ⟨r, h, hn⟩
    induction h with
    | here => exact .inside hn (.here s)
    | inside h _ ih => exact .inside h (ih hn)

lemma Reaches.unique (h : r.Reaches ups s) (h' : r.Reaches ups l) : s = l := by
  induction h with
  | here =>
    cases h'
    rfl
  | inside h _ ih =>
    cases h' with
    | inside h₁ h' =>
      rw [h] at h₁
      cases h₁
      exact ih h'

lemma Reaches.front {rest : List String} (h : r.Reaches (ups ++ rest) s) :
    ∃ t, r.Reaches ups t := by
  induction ups generalizing r with
  | nil => exact ⟨r, .here r⟩
  | cons m ups ih =>
    cases h with
    | inside h hs =>
      obtain ⟨t, ht⟩ := ih hs
      exact ⟨t, .inside h ht⟩

/-- Where two records are reached, a path one name further gives what is read there. -/
lemma resolve_of_reaches (h : Along text (ups ++ [n])) (hs : r.Reaches ups s) :
    r.resolve text = .ok v ↔ s.read n = some v := by
  rw [resolve_along h]
  constructor
  · rintro ⟨t, ht, hv⟩
    rwa [Reaches.unique hs ht]
  · exact fun hv => ⟨s, hs, hv⟩

lemma isOk_resolve (h : Along text (ups ++ [n])) (hs : r.Reaches ups s) :
    (r.resolve text).isOk = (s.read n).isSome := by
  cases hread : s.read n with
  | some v =>
    rw [(resolve_of_reaches h hs).2 hread]
    rfl
  | none =>
    cases hres : r.resolve text with
    | error err => rfl
    | ok v =>
      rw [(resolve_of_reaches h hs).1 hres] at hread
      cases hread

lemma Along.exists_last (h : Along text names) : ∃ ups n, names = ups ++ [n] :=
  ⟨_, _, (List.dropLast_append_getLast h.1).symm⟩

lemma reaches_of_at (h : At r names s) : r.Reaches names s := by
  rcases h with ⟨rfl, rfl⟩ | ⟨text, hal, hs⟩
  · exact .here s
  · obtain ⟨ups, n, rfl⟩ := hal.exists_last
    exact reaches_snoc.2 ((resolve_along hal).1 hs)

/-! ### Identifiers -/

/-- The names of the record are identifiers. -/
def Named (r : Record) : Prop := ∀ n ∈ r.names, isIdent n.toList = true

lemma Reaches.named (hl : r.Throughout Record.Lawful) (hn : r.Throughout Named)
    (h : r.Reaches ups s) : (∀ n ∈ ups, isIdent n.toList = true) ∧ s.Lawful ∧ Named s := by
  induction h with
  | here => exact ⟨by simp, hl.self, hn.self⟩
  | @inside r s _ n _ h _ ih =>
    have hs := holds_of_read hl.self h
    obtain ⟨hups, hlawful, hnamed⟩ := ih (hl.inside hs) (hn.inside hs)
    exact ⟨List.forall_mem_cons.2 ⟨hn.self n ((hl.self.reads n).1 (by rw [h]; rfl)), hups⟩,
      hlawful, hnamed⟩

lemma at_of_reaches (hl : r.Throughout Record.Lawful) (hn : r.Throughout Named)
    (h : r.Reaches names s) : At r names s := by
  by_cases hne : names = []
  · subst hne
    cases h
    exact .inl ⟨rfl, rfl⟩
  · have hal := along_of_ident hne (Reaches.named hl hn h).1
    obtain ⟨ups, n, rfl⟩ := hal.exists_last
    exact .inr ⟨_, hal, (resolve_along hal).2 (reaches_snoc.1 h)⟩

lemma verdict_true : Verdict o o' true ↔
    ∃ v w, o = some v ∧ o' = some w ∧ ¬v.Nested w ∧ v.same w = true := by
  constructor
  · generalize hb : true = b
    rintro (⟨v, w, h⟩ | _ | _)
    · exact ⟨v, w, rfl, rfl, h, rfl⟩
    · cases hb
    · cases hb
  · rintro ⟨v, w, rfl, rfl, h, hsame⟩
    exact hsame ▸ .both v w h

lemma verdict_false : Verdict o o' false ↔ o.isSome ≠ o'.isSome ∨
    ∃ v w, o = some v ∧ o' = some w ∧ ¬v.Nested w ∧ v.same w = false := by
  constructor
  · generalize hb : false = b
    rintro (⟨v, w, h⟩ | v | w)
    · exact .inr ⟨v, w, rfl, rfl, h, rfl⟩
    · exact .inl (by simp)
    · exact .inl (by simp)
  · rintro (h | ⟨v, w, rfl, rfl, h, hsame⟩)
    · cases o <;> cases o' <;> first | exact absurd rfl h | exact .left _ | exact .right _
    · exact hsame ▸ .both v w h

/-! ### Reports -/

/-- The texts of the paths to leaves. -/
def texts (fs : List (List String × Bool)) : List String :=
  fs.map fun f => ".".intercalate f.1

lemma ofFindings_eq (fs : List (List String × Bool)) :
    Comparison.ofFindings (fs.map (finding "")) =
      ⟨texts (fs.filter fun f => f.2), texts (fs.filter fun f => !f.2)⟩ := by
  simp [Comparison.ofFindings, texts, finding, List.filter_map, Function.comp_def]

/-- Paths along chains of which each comes before those after it. -/
def InOrder (l r : Record) (ts : List String) : Prop :=
  ∃ chains, List.Forall₂ Along ts chains ∧ chains.Pairwise (Before l r)

section

variable (hl : l.Throughout Record.Lawful) (hr : r.Throughout Record.Lawful)
  (hln : l.Throughout Named) (hrn : r.Throughout Named)

include hl hr hln hrn

lemma along_leaf (h : (ns, b) ∈ l.leaves r) : Along (".".intercalate ns) ns := by
  obtain ⟨ups, n, l', r', rfl, hl', hr', hv⟩ := (mem_leaves hl hr).1 h
  obtain ⟨hups, hlawful, hnamed⟩ := Reaches.named hl hln hl'
  obtain ⟨-, hlawful', hnamed'⟩ := Reaches.named hr hrn hr'
  have hn : isIdent n.toList = true := hv.isSome.elim
    (fun h => hnamed n ((hlawful.reads n).1 h)) fun h => hnamed' n ((hlawful'.reads n).1 h)
  refine along_of_ident (by simp) (List.forall_mem_append.2 ⟨hups, ?_⟩)
  exact List.forall_mem_singleton.2 hn

/-- The text of a leaf, told by the records in which it lies. -/
lemma mem_texts (p : Bool → Bool) : text ∈ texts ((l.leaves r).filter fun f => p f.2) ↔
    ∃ ups n l' r' b, Along text (ups ++ [n]) ∧ l.Reaches ups l' ∧ r.Reaches ups r' ∧
      Verdict (l'.read n) (r'.read n) b ∧ p b = true := by
  constructor
  · intro h
    obtain ⟨⟨ns, b⟩, hf, rfl⟩ := List.mem_map.1 h
    obtain ⟨hmem, hp⟩ := List.mem_filter.1 hf
    obtain ⟨ups, n, l', r', rfl, hl', hr', hv⟩ := (mem_leaves hl hr).1 hmem
    exact ⟨ups, n, l', r', b, along_leaf hl hr hln hrn hmem, hl', hr', hv, hp⟩
  · rintro ⟨ups, n, l', r', b, hal, hl', hr', hv, hp⟩
    have hmem : (ups ++ [n], b) ∈ l.leaves r :=
      (mem_leaves hl hr).2 ⟨ups, n, l', r', rfl, hl', hr', hv⟩
    exact List.mem_map.2 ⟨_, List.mem_filter.2 ⟨hmem, hp⟩, hal.2.1.symm⟩

lemma mem_matching : text ∈ texts ((l.leaves r).filter fun f => f.2) ↔
    ∃ names v w, Along text names ∧ l.resolve text = .ok v ∧ r.resolve text = .ok w ∧
      ¬v.Nested w ∧ v.same w = true := by
  rw [mem_texts hl hr hln hrn fun b => b]
  constructor
  · rintro ⟨ups, n, l', r', _, hal, hl', hr', hv, rfl⟩
    obtain ⟨v, w, hv, hw, hnested, hsame⟩ := verdict_true.1 hv
    exact ⟨_, v, w, hal, (resolve_of_reaches hal hl').2 hv, (resolve_of_reaches hal hr').2 hw,
      hnested, hsame⟩
  · rintro ⟨names, v, w, hal, hv, hw, hnested, hsame⟩
    obtain ⟨ups, n, rfl⟩ := hal.exists_last
    obtain ⟨l', hl', hv⟩ := (resolve_along hal).1 hv
    obtain ⟨r', hr', hw⟩ := (resolve_along hal).1 hw
    exact ⟨ups, n, l', r', true, hal, hl', hr',
      verdict_true.2 ⟨v, w, hv, hw, hnested, hsame⟩, rfl⟩

lemma mem_differing : text ∈ texts ((l.leaves r).filter fun f => !f.2) ↔
    ∃ names n, Along text (names ++ [n]) ∧
      (∀ ups, ups <+: names → ∃ l' r', At l ups l' ∧ At r ups r') ∧
      ((l.resolve text).isOk ≠ (r.resolve text).isOk ∨
        ∃ v w, l.resolve text = .ok v ∧ r.resolve text = .ok w ∧ ¬v.Nested w ∧
          v.same w = false) := by
  rw [mem_texts hl hr hln hrn fun b => !b]
  constructor
  · rintro ⟨names, n, l', r', b, hal, hl', hr', hv, hb⟩
    obtain rfl : b = false := by simpa using hb
    refine ⟨names, n, hal, ?_, ?_⟩
    · rintro ups ⟨rest, rfl⟩
      obtain ⟨l₁, hl₁⟩ := Reaches.front hl'
      obtain ⟨r₁, hr₁⟩ := Reaches.front hr'
      exact ⟨l₁, r₁, at_of_reaches hl hln hl₁, at_of_reaches hr hrn hr₁⟩
    · rw [isOk_resolve hal hl', isOk_resolve hal hr']
      simp only [resolve_of_reaches hal hl', resolve_of_reaches hal hr']
      exact verdict_false.1 hv
  · rintro ⟨names, n, hal, hups, h⟩
    obtain ⟨l', r', hl', hr'⟩ := hups names (List.prefix_refl names)
    have hl' := reaches_of_at hl'
    have hr' := reaches_of_at hr'
    rw [isOk_resolve hal hl', isOk_resolve hal hr'] at h
    simp only [resolve_of_reaches hal hl', resolve_of_reaches hal hr'] at h
    exact ⟨names, n, l', r', false, hal, hl', hr', verdict_false.2 h, rfl⟩

lemma inOrder_texts (p : List String × Bool → Bool) :
    InOrder l r (texts ((l.leaves r).filter p)) := by
  refine ⟨((l.leaves r).filter p).map Prod.fst, ?_, ?_⟩
  · rw [texts, List.forall₂_map_left_iff, List.forall₂_map_right_iff, List.forall₂_same]
    exact fun f hf => along_leaf hl hr hln hrn (List.mem_filter.1 hf).1
  · exact (leaves_ordered hl hr).sublist (List.filter_sublist.map Prod.fst)

lemma nodup_texts : (texts (l.leaves r)).Nodup := by
  have hordered := leaves_ordered hl hr
  rw [List.pairwise_map] at hordered
  refine List.pairwise_map.2 (hordered.imp_of_mem fun hf hg hbefore heq => ?_)
  have hal := along_leaf hl hr hln hrn hf
  rw [heq] at hal
  rw [Along.unique hal (along_leaf hl hr hln hrn hg)] at hbefore
  exact before_irrefl hl hr hbefore

lemma nodup_report : (texts ((l.leaves r).filter fun f => f.2) ++
    texts ((l.leaves r).filter fun f => !f.2)).Nodup := by
  have hperm := (List.filter_append_perm (fun f => f.2) (l.leaves r)).map fun f : _ × Bool =>
    ".".intercalate f.1
  rw [List.map_append] at hperm
  exact hperm.nodup_iff.2 (nodup_texts hl hr hln hrn)

end

/-- **A comparison reports every leaf once**: two stored records whose names are identifiers can
be compared. What matches are the paths to values on both sides, not both records, that are the
same. What differs are the paths through records on both sides to a name that only one side
has, or under which there are such values that are not the same. No path is reported twice, and
the paths come in the order of the left record, with what only the right one has at the end. -/
theorem compare_reports (l r : Record) (hl : l.Stored) (hr : r.Stored)
    (hln : l.Throughout fun s => ∀ n ∈ s.names, isIdent n.toList = true)
    (hrn : r.Throughout fun s => ∀ n ∈ s.names, isIdent n.toList = true) :
    ∃ c, l.compare r = .ok c ∧ (c.matching ++ c.differing).Nodup ∧
      (∀ text, text ∈ c.matching ↔ ∃ names v w, Along text names ∧ l.resolve text = .ok v ∧
        r.resolve text = .ok w ∧ ¬v.Nested w ∧ v.same w = true) ∧
      (∀ text, text ∈ c.differing ↔ ∃ names n, Along text (names ++ [n]) ∧
        (∀ ups, ups <+: names → ∃ l' r', At l ups l' ∧ At r ups r') ∧
        ((l.resolve text).isOk ≠ (r.resolve text).isOk ∨
          ∃ v w, l.resolve text = .ok v ∧ r.resolve text = .ok w ∧ ¬v.Nested w ∧
            v.same w = false)) ∧
      InOrder l r c.matching ∧ InOrder l r c.differing := by
  have hl' := hl.throughout
  have hr' := hr.throughout
  refine ⟨⟨texts ((l.leaves r).filter fun f => f.2), texts ((l.leaves r).filter fun f => !f.2)⟩,
    ?_, nodup_report hl' hr' hln hrn, fun _ => mem_matching hl' hr' hln hrn,
    fun _ => mem_differing hl' hr' hln hrn, inOrder_texts hl' hr' hln hrn _,
    inOrder_texts hl' hr' hln hrn _⟩
  rw [Record.compare, findings_eq hl' hr' ""]
  exact congrArg Except.ok (ofFindings_eq _)

/-- A record that is stored, and one that is sent to be compared with it. -/
def stored : Tuple := ⟨[("a", .int 1), ("b", .tuple [("x", .str "s"), ("y", .int 2)])]⟩

def sent : List (String × Json) :=
  [("b", .object [("x", .string "s"), ("z", .int 3)]), ("c", .bool true)]

theorem compare_reports_versions :
    stored.toRecord.compare (Json.toRecord sent) = .ok ⟨["b.x"], ["a", "b.y", "b.z", "c"]⟩ ∧
      ∃ chains, List.Forall₂ Along ["a", "b.y", "b.z", "c"] chains ∧
        chains.Pairwise (Before stored.toRecord (Json.toRecord sent)) := by
  have hl : stored.toRecord.Stored := .tuple stored (by
    simp [stored, Tuple.toDatum, Datum.Distinct, Datum.AttributesDistinct])
  have hr : (Json.toRecord sent).Stored := .json sent (by
    simp [sent, Json.int, Json.Distinct, Json.MembersDistinct])
  have hln : stored.toRecord.Throughout fun s => ∀ n ∈ s.names, isIdent n.toList = true := by
    refine .intro (by decide) ?_
    rintro s ⟨n, hmem, hread⟩
    obtain rfl | rfl : n = "a" ∨ n = "b" := List.mem_pair.1 hmem
    · cases hread
    · cases hread
      refine .intro (by decide) ?_
      rintro s ⟨n, hmem, hread⟩
      obtain rfl | rfl : n = "x" ∨ n = "y" := List.mem_pair.1 hmem
      all_goals cases hread
  have hrn : (Json.toRecord sent).Throughout fun s => ∀ n ∈ s.names, isIdent n.toList = true := by
    refine .intro (by decide) ?_
    rintro s ⟨n, hmem, hread⟩
    obtain rfl | rfl : n = "b" ∨ n = "c" := List.mem_pair.1 hmem
    · cases hread
      refine .intro (by decide) ?_
      rintro s ⟨n, hmem, hread⟩
      obtain rfl | rfl : n = "x" ∨ n = "z" := List.mem_pair.1 hmem
      all_goals cases hread
    · cases hread
  have hcompare : stored.toRecord.compare (Json.toRecord sent) =
      .ok ⟨["b.x"], ["a", "b.y", "b.z", "c"]⟩ := by rfl
  obtain ⟨c, hc, -, -, -, -, hordered⟩ := compare_reports _ _ hl hr hln hrn
  rw [hcompare] at hc
  cases hc
  exact ⟨hcompare, hordered⟩

end Leaves

end RecordRules
