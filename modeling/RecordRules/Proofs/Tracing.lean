import RecordRules.Proofs.ShortCircuit
import RecordRules.Proofs.TraceLines

/-!
The trace of an evaluation. It has no part in the outcome. Its events are those of the nodes
that evaluation comes to, and of no other nodes: a leaf is told of once, in the order of
evaluation, and a group once before everything beneath it and, if it has an answer, once
after that. An error comes last.
-/

namespace RecordRules

/-- The position of the leaf that the event tells of, if it tells of one. -/
def Event.leafPosition? : Event → Option (List ℕ)
  | .judged p _ _ => some p
  | _ => none

namespace Tracing

open ShortCircuit

variable (o : StringOrdering) (R : Record)

/-- The event that closes a group with an answer. -/
inductive Closes (p : List ℕ) (c : Connective) (rs : List Rule) : Event → Prop
  | settled {k : ℕ} {r : Rule} (hr : rs[k]? = some r) (before : Undecided o R c (rs.take k))
      (h : outcome o R r = .ok c.decisive) : Closes p c rs (.settled p c k)
  | exhausted (h : Undecided o R c rs) : Closes p c rs (.exhausted p c)

/-- The events that tell of a node at a position. -/
inductive Tells (p : List ℕ) : Rule → Event → Prop
  | judged {leaf : Rule} (h : leaf.isLeaf = true) :
      Tells p leaf (.judged p leaf (outcome o R leaf))
  | opened (c : Connective) (rs : List Rule) : Tells p (.group c rs) (.opened p c rs.length)
  | closed {c : Connective} {rs : List Rule} {x : Event} (h : Closes o R p c rs x) :
      Tells p (.group c rs) x

/-- A group has one event before all events beneath it, and if it has an answer, one after
them; if an error passes through it, that is all. -/
def Bracketed (p : List ℕ) (c : Connective) (rs : List Rule) (events : List Event) : Prop :=
  ∃ before inside closing after,
    events = before ++ .opened p c rs.length :: (inside ++ closing ++ after) ∧
    (∀ x ∈ inside, ∃ i q, x.position = p ++ i :: q) ∧
    (∀ x ∈ before ++ after, ¬p <+: x.position) ∧
    ((∃ b x, groupOutcome o R c rs = .ok b ∧ closing = [x] ∧ Closes o R p c rs x) ∨
      ∃ e, groupOutcome o R c rs = .error e ∧ closing = [] ∧ after = [])

/-- The events are a faithful account of the evaluation of a rule. -/
structure Faithful (rule : Rule) (events : List Event) : Prop where
  tells : ∀ x, x ∈ events ↔ ∃ p s, Visits o R rule p s ∧ Tells o R p s x
  leaves : (events.filterMap Event.leafPosition?).Pairwise (· < ·)
  groups : ∀ p c rs, Visits o R rule p (.group c rs) → Bracketed o R p c rs events
  failure : ∀ e, outcome o R rule = .error e → ∃ p leaf, Visits o R rule p leaf ∧
    leaf.isLeaf = true ∧ outcome o R leaf = .error e ∧
    events.getLast? = some (.judged p leaf (.error e))

/-! ### What a run tells -/

/-- The events of a rule at a position. -/
def told (q : List ℕ) (r : Rule) : List Event := (Evaluate.run o R q r).1

/-- The events of children numbered from `i` on. -/
def toldBy (q : List ℕ) (i : ℕ) (rs : List Rule) : List Event :=
  (rs.zipIdx i).flatMap fun e => told o R (q ++ [e.2]) e.1

/-- The last event of a group that comes to the children before number `n`. -/
def closing (q : List ℕ) (c : Connective) (n : ℕ) : Except RuleError Bool → List Event
  | .ok b => if b = c.decisive then [.settled q c (n - 1)] else [.exhausted q c]
  | .error _ => []

@[simp] lemma toldBy_nil (q : List ℕ) (i : ℕ) : toldBy o R q i [] = [] := rfl

lemma toldBy_cons (q : List ℕ) (i : ℕ) (r : Rule) (rs : List Rule) :
    toldBy o R q i (r :: rs) = told o R (q ++ [i]) r ++ toldBy o R q (i + 1) rs := by
  rw [toldBy, List.zipIdx_cons, List.flatMap_cons]
  rfl

mutual

theorem run_outcome (q : List ℕ) (r : Rule) : (Evaluate.run o R q r).2 = outcome o R r := by
  cases r with
  | comparison left op right => rfl
  | predicate subject verb arg => rfl
  | group c rs =>
    simp only [Evaluate.run, outcome]
    rw [runChildren_eq q c 0 rs]
termination_by structural r

/-- The children that evaluation comes to are told of one after the other. -/
theorem runChildren_eq (q : List ℕ) (c : Connective) (i : ℕ) (rs : List Rule) :
    Evaluate.runChildren o R q c i rs =
      (toldBy o R q i (rs.take (reached o R c rs)) ++
          closing q c (i + reached o R c rs) (groupOutcome o R c rs),
        groupOutcome o R c rs) := by
  cases rs with
  | nil => cases c <;> rfl
  | cons r rs =>
    have hrun : Evaluate.run o R (q ++ [i]) r = (told o R (q ++ [i]) r, outcome o R r) :=
      Prod.ext rfl (run_outcome (q ++ [i]) r)
    rw [Evaluate.runChildren, hrun]
    by_cases hr : outcome o R r = .ok (!c.decisive)
    · have hne : (!c.decisive) ≠ c.decisive := by simp
      have hn : i + (reached o R c rs + 1) = i + 1 + reached o R c rs := by omega
      rw [(go_on hr).1, (go_on hr).2, hr, List.take_succ_cons, toldBy_cons, hn, List.append_assoc]
      simp only [if_neg hne, runChildren_eq q c (i + 1) rs]
    · rw [(stop_at hr).1, (stop_at hr).2, List.take_succ_cons, List.take_zero, toldBy_cons]
      cases hb : outcome o R r with
      | error e => simp [toldBy, closing]
      | ok b =>
        simp [toldBy, closing, eq_decisive hr hb]
termination_by structural rs

end

lemma evaluate_eq (x : Executor) (r : Rule) : x.evaluate r R = outcome x.ordering R r :=
  run_outcome x.ordering R [] r

variable {o R}

lemma told_leaf {q : List ℕ} {r : Rule} (h : r.isLeaf = true) :
    told o R q r = [.judged q r (outcome o R r)] := by
  cases r with
  | comparison left op right => rfl
  | predicate subject verb arg => rfl
  | group c rs => cases h

/-- A group tells of its entry, of the children that are come to, and of its end. -/
lemma told_group (q : List ℕ) (c : Connective) (rs : List Rule) :
    told o R q (.group c rs) = .opened q c rs.length ::
      (toldBy o R q 0 (rs.take (reached o R c rs)) ++
        closing q c (reached o R c rs) (groupOutcome o R c rs)) := by
  rw [told, Evaluate.run, runChildren_eq, Nat.zero_add]

lemma toldBy_append (q : List ℕ) (i : ℕ) (rs ss : List Rule) :
    toldBy o R q i (rs ++ ss) = toldBy o R q i rs ++ toldBy o R q (i + rs.length) ss := by
  rw [toldBy, List.zipIdx_append, List.flatMap_append]
  rfl

/-- The children that are told of are the ones that evaluation comes to. -/
lemma mem_toldBy {q : List ℕ} {c : Connective} {rs : List Rule} {x : Event} :
    x ∈ toldBy o R q 0 (rs.take (reached o R c rs)) ↔
      ∃ i r, rs[i]? = some r ∧ Undecided o R c (rs.take i) ∧ x ∈ told o R (q ++ [i]) r := by
  rw [toldBy, List.mem_flatMap]
  constructor
  · rintro ⟨⟨r, i⟩, he, hx⟩
    rw [List.mem_zipIdx_iff_getElem?, List.getElem?_take] at he
    split at he
    · next hi => exact ⟨i, r, he, ((course o R c rs).lt_iff he).1 hi, hx⟩
    · cases he
  · rintro ⟨i, r, hr, hu, hx⟩
    refine ⟨(r, i), ?_, hx⟩
    rw [List.mem_zipIdx_iff_getElem?, List.getElem?_take_of_lt]
    · exact hr
    · exact ((course o R c rs).lt_iff hr).2 hu

/-- A group is closed by one event if it has an answer, and by none if it fails. -/
lemma closing_cases (q : List ℕ) (c : Connective) (rs : List Rule) :
    (∃ b x, groupOutcome o R c rs = .ok b ∧
      closing q c (reached o R c rs) (groupOutcome o R c rs) = [x] ∧ Closes o R q c rs x) ∨
    ∃ e, groupOutcome o R c rs = .error e ∧
      closing q c (reached o R c rs) (groupOutcome o R c rs) = [] := by
  have hc := course o R c rs
  generalize reached o R c rs = n at hc
  generalize groupOutcome o R c rs = out at hc
  cases hc with
  | exhausted h =>
    refine .inl ⟨_, .exhausted q c, rfl, ?_, .exhausted h⟩
    rw [closing, if_neg (by simp)]
  | @stopped k r hr before h =>
    cases hb : outcome o R r with
    | error e => exact .inr ⟨e, rfl, rfl⟩
    | ok b =>
      have hbc : b = c.decisive := eq_decisive h hb
      refine .inl ⟨b, .settled q c k, rfl, if_pos hbc, .settled hr before (hb.trans (hbc ▸ rfl))⟩

lemma Closes.closing_eq {q : List ℕ} {c : Connective} {rs : List Rule} {x : Event}
    (h : Closes o R q c rs x) :
    closing q c (reached o R c rs) (groupOutcome o R c rs) = [x] := by
  cases h with
  | @settled k r hr before h =>
    have hne : outcome o R r ≠ .ok (!c.decisive) := by rw [h]; cases c <;> nofun
    obtain ⟨hn, hout⟩ := (course o R c rs).of_stopped hr before hne
    rw [hn, hout, h, closing, if_pos rfl, Nat.add_sub_cancel]
  | exhausted h =>
    rw [((course o R c rs).of_undecided h).2, closing, if_neg (by simp)]

lemma mem_closing {q : List ℕ} {c : Connective} {rs : List Rule} {x : Event} :
    x ∈ closing q c (reached o R c rs) (groupOutcome o R c rs) ↔ Closes o R q c rs x := by
  constructor
  · intro hx
    rcases closing_cases (o := o) (R := R) q c rs with ⟨b, y, -, hc, hy⟩ | ⟨e, -, hc⟩
    · rw [hc, List.mem_singleton] at hx
      exact hx ▸ hy
    · rw [hc] at hx
      cases hx
  · intro h
    rw [h.closing_eq]
    exact List.mem_singleton_self x

/-- The events of the children before number `i`, those of that child, and those of the
others. -/
lemma toldBy_take {rs : List Rule} {i : ℕ} {r : Rule} (hr : rs[i]? = some r) (q : List ℕ)
    (m : ℕ) :
    toldBy o R q 0 (rs.take (i + (m + 1))) = toldBy o R q 0 (rs.take i) ++
      (told o R (q ++ [i]) r ++ toldBy o R q (i + 1) ((rs.drop (i + 1)).take m)) := by
  obtain ⟨hi, rfl⟩ := List.getElem?_eq_some_iff.1 hr
  rw [List.take_add, List.drop_eq_getElem_cons hi, List.take_succ_cons, toldBy_append,
    toldBy_cons, List.length_take_of_le (Nat.le_of_lt hi), Nat.zero_add]

/-! ### Which events there are -/

/-- The events of a run are those of the nodes that evaluation comes to. -/
theorem mem_told {q : List ℕ} {r : Rule} {x : Event} :
    x ∈ told o R q r ↔ ∃ p s, Visits o R r p s ∧ Tells o R (q ++ p) s x := by
  induction r using Rule.induct generalizing q with
  | leaf r h =>
    rw [told_leaf h, List.mem_singleton]
    constructor
    · rintro rfl
      exact ⟨[], r, .here r, by rw [List.append_nil]; exact .judged h⟩
    · rintro ⟨p, s, hv, ht⟩
      cases hv with
      | here =>
        rw [List.append_nil] at ht
        cases ht with
        | judged => rfl
        | opened | closed => cases h
      | child => cases h
  | group c rs ih =>
    rw [told_group, List.mem_cons, List.mem_append, mem_toldBy, mem_closing]
    constructor
    · rintro (rfl | ⟨i, r, hr, hu, hx⟩ | hx)
      · exact ⟨[], _, .here _, by rw [List.append_nil]; exact .opened c rs⟩
      · obtain ⟨p, s, hv, ht⟩ := (ih r (List.mem_of_getElem? hr)).1 hx
        rw [List.append_assoc, List.singleton_append] at ht
        exact ⟨i :: p, s, .child hr hu hv, ht⟩
      · exact ⟨[], _, .here _, by rw [List.append_nil]; exact .closed hx⟩
    · rintro ⟨p, s, hv, ht⟩
      cases hv with
      | here =>
        rw [List.append_nil] at ht
        cases ht with
        | judged h => cases h
        | opened => exact .inl rfl
        | closed h => exact .inr (.inr h)
      | @child _ _ i r p _ hr hu hv =>
        refine .inr (.inl ⟨i, r, hr, hu, (ih r (List.mem_of_getElem? hr)).2 ⟨p, s, hv, ?_⟩⟩)
        rwa [List.append_assoc, List.singleton_append]

lemma Closes.position {p : List ℕ} {c : Connective} {rs : List Rule} {x : Event}
    (h : Closes o R p c rs x) : x.position = p := by
  cases h <;> rfl

lemma Tells.position {p : List ℕ} {s : Rule} {x : Event} (h : Tells o R p s x) :
    x.position = p := by
  cases h with
  | judged | opened => rfl
  | closed h => exact h.position

lemma position_told {q : List ℕ} {r : Rule} {x : Event} (h : x ∈ told o R q r) :
    q <+: x.position := by
  obtain ⟨p, s, -, ht⟩ := mem_told.1 h
  exact ⟨p, ht.position.symm⟩

/-- The events of children lie beneath their numbers. -/
lemma position_toldBy {q : List ℕ} {i : ℕ} {rs : List Rule} {x : Event}
    (h : x ∈ toldBy o R q i rs) :
    ∃ j p, i ≤ j ∧ j < i + rs.length ∧ x.position = q ++ j :: p := by
  rw [toldBy, List.mem_flatMap] at h
  obtain ⟨⟨r, j⟩, he, hx⟩ := h
  obtain ⟨hij, hj, -⟩ := List.mem_zipIdx he
  obtain ⟨p, hp⟩ := position_told hx
  exact ⟨j, p, hij, hj, by rw [← hp, List.append_assoc, List.singleton_append]⟩

/-! ### In which order they are -/

lemma leafPosition_eq {x : Event} {p : List ℕ} (h : x.leafPosition? = some p) :
    x.position = p := by
  cases x with
  | judged => exact Option.some.inj h
  | opened | settled | exhausted => cases h

lemma closing_leaves (q : List ℕ) (c : Connective) (rs : List Rule) :
    (closing q c (reached o R c rs) (groupOutcome o R c rs)).filterMap Event.leafPosition? =
      [] := by
  rcases closing_cases (o := o) (R := R) q c rs with ⟨b, x, -, hc, hx⟩ | ⟨e, -, hc⟩
  · rw [hc]
    cases hx <;> rfl
  · rw [hc]
    rfl

lemma toldBy_leaves {q : List ℕ} {i : ℕ} {rs : List Rule}
    (h : ∀ r ∈ rs, ∀ q, ((told o R q r).filterMap Event.leafPosition?).Pairwise (· < ·)) :
    ((toldBy o R q i rs).filterMap Event.leafPosition?).Pairwise (· < ·) := by
  induction rs generalizing i with
  | nil => exact .nil
  | cons r rs ih =>
    rw [List.forall_mem_cons] at h
    rw [toldBy_cons, List.filterMap_append, List.pairwise_append]
    refine ⟨h.1 _, ih h.2, ?_⟩
    intro a ha b hb
    obtain ⟨x, hx, hxa⟩ := List.mem_filterMap.1 ha
    obtain ⟨y, hy, hyb⟩ := List.mem_filterMap.1 hb
    obtain ⟨p, hp⟩ := position_told hx
    obtain ⟨j, p', hij, -, hp'⟩ := position_toldBy hy
    rw [← leafPosition_eq hxa, ← leafPosition_eq hyb, ← hp, hp', List.append_assoc]
    exact List.append_left_lt (List.cons_lt_cons_iff.2 (.inl hij))

/-- Leaves are told of from left to right. -/
theorem told_leaves (q : List ℕ) (r : Rule) :
    ((told o R q r).filterMap Event.leafPosition?).Pairwise (· < ·) := by
  induction r using Rule.induct generalizing q with
  | leaf r h =>
    rw [told_leaf h]
    exact List.pairwise_singleton _ _
  | group c rs ih =>
    rw [told_group, List.filterMap_cons_none rfl, List.filterMap_append, closing_leaves,
      List.append_nil]
    exact toldBy_leaves fun r hr q => ih r (List.mem_of_mem_take hr) q

/-- What comes before and after events, and lies elsewhere, leaves their brackets in place. -/
lemma Bracketed.within {p : List ℕ} {c : Connective} {rs : List Rule} {events : List Event}
    (h : Bracketed o R p c rs events) {as bs : List Event}
    (has : ∀ x ∈ as, ¬p <+: x.position) (hbs : ∀ x ∈ bs, ¬p <+: x.position)
    (hfail : ∀ e, groupOutcome o R c rs = .error e → bs = []) :
    Bracketed o R p c rs (as ++ (events ++ bs)) := by
  obtain ⟨before, inside, closing, after, rfl, hin, hout, hend⟩ := h
  rw [List.forall_mem_append] at hout
  refine ⟨as ++ before, inside, closing, after ++ bs, by simp, hin, ?_, ?_⟩
  · simp only [List.forall_mem_append]
    exact ⟨⟨has, hout.1⟩, hout.2, hbs⟩
  · refine hend.imp id ?_
    rintro ⟨e, he, hc, ha⟩
    exact ⟨e, he, hc, by rw [ha, hfail e he]; rfl⟩

lemma not_beneath {q p y : List ℕ} {i j : ℕ} (hij : j ≠ i) : ¬q ++ i :: p <+: q ++ j :: y := by
  rw [List.prefix_append_right_inj, List.cons_prefix_cons]
  exact fun h => hij h.1.symm

lemma not_above (q p : List ℕ) (i : ℕ) : ¬q ++ i :: p <+: q := by
  intro h
  have := h.length_le
  simp only [List.length_append, List.length_cons] at this
  omega

/-- Every group that is come to has its brackets. -/
theorem told_bracketed {q : List ℕ} {r s : Rule} {p : List ℕ} {c : Connective} {rs : List Rule}
    (h : Visits o R r p s) (hs : s = .group c rs) :
    Bracketed o R (q ++ p) c rs (told o R q r) := by
  induction h generalizing q with
  | here r =>
    subst hs
    rw [told_group, List.append_nil]
    refine ⟨[], toldBy o R q 0 (rs.take (reached o R c rs)),
      closing q c (reached o R c rs) (groupOutcome o R c rs), [], ?_, ?_, ?_, ?_⟩
    · rw [List.append_nil, List.nil_append]
    · intro x hx
      obtain ⟨i, p, -, -, hp⟩ := position_toldBy hx
      exact ⟨i, p, hp⟩
    · exact fun x h => nomatch h
    · exact (closing_cases q c rs).imp id fun ⟨e, he, hc⟩ => ⟨e, he, hc, rfl⟩
  | @child d ss i r p s hr before hv ih =>
    obtain ⟨m, hm⟩ := Nat.exists_eq_add_of_lt (((course o R d ss).lt_iff hr).2 before)
    have hsplit : told o R q (.group d ss) =
        (.opened q d ss.length :: toldBy o R q 0 (ss.take i)) ++
          (told o R (q ++ [i]) r ++ (toldBy o R q (i + 1) ((ss.drop (i + 1)).take m) ++
            closing q d (reached o R d ss) (groupOutcome o R d ss))) := by
      have hn : reached o R d ss = i + (m + 1) := hm
      have htake := toldBy_take (o := o) (R := R) hr q m
      rw [← hn] at htake
      rw [told_group, htake, List.cons_append, List.append_assoc, List.append_assoc]
    rw [hsplit]
    have hih : Bracketed o R (q ++ i :: p) c rs (told o R (q ++ [i]) r) := by
      rw [← List.singleton_append, ← List.append_assoc]
      exact ih hs
    refine hih.within ?_ ?_ ?_
    · rw [List.forall_mem_cons]
      refine ⟨not_above q p i, fun x hx => ?_⟩
      obtain ⟨j, y, -, hj, hy⟩ := position_toldBy hx
      have hle := List.length_take_le i ss
      rw [hy]
      exact not_beneath (by omega)
    · rw [List.forall_mem_append]
      refine ⟨fun x hx => ?_, fun x hx => ?_⟩
      · obtain ⟨j, y, hj, -, hy⟩ := position_toldBy hx
        rw [hy]
        exact not_beneath (by omega)
      · rw [(mem_closing.1 hx).position]
        exact not_above q p i
    · intro e he
      have hfail : outcome o R r = .error e := hv.error (hs ▸ he)
      obtain ⟨hlast, hout⟩ := (course o R d ss).of_stopped hr before (hfail ▸ nofun)
      have hm0 : m = 0 := by omega
      rw [hm0, hout, hfail]
      rfl

/-- A run that fails ends with the leaf that fails. -/
theorem told_failure {r : Rule} {e : RuleError} (h : outcome o R r = .error e) (q : List ℕ) :
    ∃ p leaf, Visits o R r p leaf ∧ leaf.isLeaf = true ∧ outcome o R leaf = .error e ∧
      (told o R q r).getLast? = some (.judged (q ++ p) leaf (.error e)) := by
  induction r using Rule.induct generalizing q with
  | leaf r hr =>
    refine ⟨[], r, .here r, hr, h, ?_⟩
    rw [told_leaf hr, h, List.append_nil]
    rfl
  | group c rs ih =>
    have hc := course o R c rs
    rw [told_group]
    rw [outcome] at h
    rw [h] at hc ⊢
    generalize reached o R c rs = n at hc
    generalize hout : Except.error e = out at hc
    cases hc with
    | exhausted => cases hout
    | @stopped k r hr before hne =>
      obtain ⟨p, leaf, hv, hleaf, he, hlast⟩ :=
        ih r (List.mem_of_getElem? hr) hout.symm (q ++ [k])
      refine ⟨k :: p, leaf, .child hr before hv, hleaf, he.trans hout, ?_⟩
      rw [List.append_assoc, List.singleton_append] at hlast
      rw [← hout, toldBy_take hr q 0]
      simp [closing, hlast, List.getLast?_cons, List.getLast?_append]

/-! ### The trace -/

lemma error?_eq_some {a : Evaluation} {e : RuleError} :
    a.error? = some e ↔ a.outcome = .error e := by
  cases h : a.outcome <;> simp [Evaluation.error?, h]

theorem run_faithful (r : Rule) : Faithful o R r (Evaluate.run o R [] r).1 where
  tells _ := mem_told
  leaves := told_leaves [] r
  groups _ _ _ h := told_bracketed h rfl
  failure _ h := told_failure h []

/-- **Tracing is passive and faithful**: executing a rule with a trace and without gives one
answer and one error, those of left-to-right evaluation. Without, there are no lines. With,
the lines are a faithful account of the evaluation: each names a node by the way to it from the
root, which no other node has in its lines, and says what has happened there. The last one tells
of the leaf that fails, if one does. -/
theorem execute_traced (x : Executor) (rule : Rule) (R : Record) :
    (∀ b, ({ x with traced := b }.execute rule R).outcome = outcome x.ordering R rule) ∧
    ({ x with traced := false }.execute rule R).matched = (x.withTrace.execute rule R).matched ∧
    ({ x with traced := false }.execute rule R).error? = (x.withTrace.execute rule R).error? ∧
    ({ x with traced := false }.execute rule R).trace = [] ∧
    (∃ events, (x.withTrace.execute rule R).trace = events.map Event.line ∧
      List.Forall₂ IsLine events (x.withTrace.execute rule R).trace ∧
      Faithful x.ordering R rule events) ∧
    (∀ y z line, IsLine y line → IsLine z line → y.position = z.position) ∧
    ∀ e, (x.withTrace.execute rule R).error? = some e →
      ∃ p leaf label, Visits x.ordering R rule p leaf ∧ leaf.isLeaf = true ∧
        outcome x.ordering R leaf = .error e ∧ Labels p label ∧
        (x.withTrace.execute rule R).trace.getLast? =
          some (label ++ ": " ++ (leaf.text ++ " => " ++
            ("ERROR " ++ toString e.code ++ " (" ++ e.message ++ ")"))) := by
  have hfaithful := run_faithful (o := x.ordering) (R := R) rule
  have hlines := forall₂_lines (Evaluate.run x.ordering R [] rule).1
  refine ⟨fun b => run_outcome _ _ [] rule, rfl, rfl, rfl, ⟨_, rfl, hlines, hfaithful⟩,
    fun y z line => position_of_isLine, ?_⟩
  intro e he
  have hout : outcome x.ordering R rule = .error e :=
    (run_outcome x.ordering R [] rule).symm.trans (error?_eq_some.1 he)
  obtain ⟨p, leaf, hv, hleaf, hfail, hlast⟩ := hfaithful.failure e hout
  refine ⟨p, leaf, Event.place p, hv, hleaf, hfail, labels_place p, ?_⟩
  calc (x.withTrace.execute rule R).trace.getLast?
      = ((Evaluate.run x.ordering R [] rule).1.map Event.line).getLast? := rfl
    _ = some (Event.line (.judged p leaf (.error e))) := by
        rw [List.getLast?_map, hlast]
        rfl
    _ = _ := by rw [Event.line_judged, Event.verdict_error]

end Tracing

end RecordRules
