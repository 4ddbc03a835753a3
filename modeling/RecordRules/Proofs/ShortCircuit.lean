import Mathlib.Data.List.Basic
import RecordRules.Evaluate.Run

/-!
Left-to-right evaluation of a rule without its events, and the nodes that it comes to.

A child of a group is come to when no child before it settles the group or fails. What is
not come to has no part in the outcome.
-/

namespace RecordRules

def Rule.isLeaf : Rule → Bool
  | .group _ _ => false
  | _ => true

/-- Induction from the children of a group to the group. -/
theorem Rule.induct {P : Rule → Prop} (leaf : ∀ r, r.isLeaf = true → P r)
    (group : ∀ c rs, (∀ r ∈ rs, P r) → P (.group c rs)) (r : Rule) : P r := by
  match r with
  | .comparison left op right => exact leaf _ rfl
  | .predicate subject verb arg => exact leaf _ rfl
  | .group c rs => exact group c rs fun r hr => induct leaf group r
termination_by sizeOf r
decreasing_by
  have hlt : sizeOf r < sizeOf rs := List.sizeOf_lt_of_mem hr
  simp only [Rule.group.sizeOf_spec]
  omega

namespace ShortCircuit

variable (o : StringOrdering) (R : Record)

mutual

/-- The outcome of a rule. -/
def outcome : Rule → Except RuleError Bool
  | .comparison left op right => Evaluate.comparison o R left op right
  | .predicate subject verb arg => Evaluate.predicate R subject verb arg
  | .group c rs => groupOutcome c rs
termination_by structural r => r

/-- The outcome of the children of a group: that of the first one which settles the group
or fails. -/
def groupOutcome (c : Connective) : List Rule → Except RuleError Bool
  | [] => .ok (!c.decisive)
  | r :: rs =>
    match outcome r with
    | .error e => .error e
    | .ok b => if b = c.decisive then .ok b else groupOutcome c rs
termination_by structural rs => rs

end

/-- How many of the children evaluation comes to. -/
def reached (c : Connective) : List Rule → ℕ
  | [] => 0
  | r :: rs =>
    match outcome o R r with
    | .error _ => 1
    | .ok b => if b = c.decisive then 1 else reached c rs + 1

/-- None of the children settles the group or fails. -/
def Undecided (c : Connective) (rs : List Rule) : Prop :=
  ∀ r ∈ rs, outcome o R r = .ok (!c.decisive)

/-- The evaluation of a rule comes to the node at a position. -/
inductive Visits : Rule → List ℕ → Rule → Prop
  | here (r : Rule) : Visits r [] r
  | child {c : Connective} {rs : List Rule} {i : ℕ} {r : Rule} {p : List ℕ} {s : Rule}
      (hr : rs[i]? = some r) (before : Undecided o R c (rs.take i)) (h : Visits r p s) :
      Visits (.group c rs) (i :: p) s

/-- The children of a group are gone through to the end, or up to the first one that settles
the group or fails. -/
inductive Course (c : Connective) (rs : List Rule) : ℕ → Except RuleError Bool → Prop
  | exhausted (h : Undecided o R c rs) : Course c rs rs.length (.ok (!c.decisive))
  | stopped {k : ℕ} {r : Rule} (hr : rs[k]? = some r) (before : Undecided o R c (rs.take k))
      (h : outcome o R r ≠ .ok (!c.decisive)) : Course c rs (k + 1) (outcome o R r)

variable {o R} {c : Connective} {rs : List Rule} {r s : Rule} {i n : ℕ} {p : List ℕ}
  {out : Except RuleError Bool} {e : RuleError}

lemma Undecided.cons (hr : outcome o R r = .ok (!c.decisive)) (h : Undecided o R c rs) :
    Undecided o R c (r :: rs) := List.forall_mem_cons.2 ⟨hr, h⟩

lemma Undecided.take_le {k : ℕ} (h : Undecided o R c (rs.take k)) (hik : i ≤ k) :
    Undecided o R c (rs.take i) :=
  fun r hr => h r ((List.take_prefix_take_left hik).subset hr)

/-- A child that settles the group or fails is not among the undecided ones. -/
lemma Undecided.le_of_take {k : ℕ} (h : Undecided o R c (rs.take i)) (hr : rs[k]? = some r)
    (hout : outcome o R r ≠ .ok (!c.decisive)) : i ≤ k := by
  by_contra hik
  have hk : (rs.take i)[k]? = some r := by rw [List.getElem?_take_of_lt (by omega), hr]
  exact hout (h r (List.mem_of_getElem? hk))

lemma Course.first (h : outcome o R r ≠ .ok (!c.decisive)) :
    Course o R c (r :: rs) 1 (outcome o R r) :=
  .stopped rfl (fun _ hs => nomatch hs) h

lemma Course.next (hr : outcome o R r = .ok (!c.decisive)) (h : Course o R c rs n out) :
    Course o R c (r :: rs) (n + 1) out := by
  cases h with
  | exhausted h => exact .exhausted (h.cons hr)
  | stopped hx before h => exact .stopped hx (before.cons hr) h

lemma eq_decisive {b : Bool} (h : outcome o R r ≠ .ok (!c.decisive)) (hb : outcome o R r = .ok b) :
    b = c.decisive := by
  by_contra hne
  exact h (hb.trans (by rw [Bool.eq_not_of_ne hne]))

/-- A child that settles the group or fails gives the group its outcome. -/
lemma stop_at (h : outcome o R r ≠ .ok (!c.decisive)) :
    reached o R c (r :: rs) = 1 ∧ groupOutcome o R c (r :: rs) = outcome o R r := by
  rw [reached, groupOutcome]
  cases hr : outcome o R r with
  | error e => exact ⟨rfl, rfl⟩
  | ok b =>
    have hb : b = c.decisive := eq_decisive h hr
    exact ⟨if_pos hb, if_pos hb⟩

lemma go_on (h : outcome o R r = .ok (!c.decisive)) :
    reached o R c (r :: rs) = reached o R c rs + 1 ∧
      groupOutcome o R c (r :: rs) = groupOutcome o R c rs := by
  have hne : (!c.decisive) ≠ c.decisive := by simp
  rw [reached, groupOutcome, h]
  exact ⟨if_neg hne, if_neg hne⟩

/-- The children of a group are gone through as its outcome tells. -/
theorem course (o : StringOrdering) (R : Record) (c : Connective) (rs : List Rule) :
    Course o R c rs (reached o R c rs) (groupOutcome o R c rs) := by
  induction rs with
  | nil => exact .exhausted fun _ h => nomatch h
  | cons r rs ih =>
    by_cases hr : outcome o R r = .ok (!c.decisive)
    · rw [(go_on hr).1, (go_on hr).2]
      exact ih.next hr
    · rw [(stop_at hr).1, (stop_at hr).2]
      exact .first hr

/-- The children that are gone through are the ones that have only undecided ones before
them. -/
lemma Course.lt_iff (h : Course o R c rs n out) (hr : rs[i]? = some r) :
    i < n ↔ Undecided o R c (rs.take i) := by
  cases h with
  | exhausted h =>
    have hi : i < rs.length := (List.getElem?_eq_some_iff.1 hr).1
    exact ⟨fun _ s hs => h s (List.mem_of_mem_take hs), fun _ => hi⟩
  | stopped hx before h =>
    rw [Nat.lt_succ_iff]
    exact ⟨before.take_le, fun hu => hu.le_of_take hx h⟩

lemma Course.of_undecided (h : Course o R c rs n out) (hu : Undecided o R c rs) :
    n = rs.length ∧ out = .ok (!c.decisive) := by
  cases h with
  | exhausted h => exact ⟨rfl, rfl⟩
  | stopped hx before h => exact absurd (hu _ (List.mem_of_getElem? hx)) h

/-- The child that settles the group or fails is the last one, and decides the outcome. -/
lemma Course.of_stopped (h : Course o R c rs n out) (hr : rs[i]? = some r)
    (hu : Undecided o R c (rs.take i)) (hne : outcome o R r ≠ .ok (!c.decisive)) :
    n = i + 1 ∧ out = outcome o R r := by
  cases h with
  | exhausted h => exact absurd (h r (List.mem_of_getElem? hr)) hne
  | stopped hx before h =>
    obtain rfl := Nat.le_antisymm (before.le_of_take hr hne) (hu.le_of_take hx h)
    obtain rfl := Option.some.inj (hr.symm.trans hx)
    exact ⟨rfl, rfl⟩

/-- An error of a node that evaluation comes to is the error of the rule. -/
lemma Visits.error (h : Visits o R r p s) (he : outcome o R s = .error e) :
    outcome o R r = .error e := by
  induction h with
  | here r => exact he
  | @child c rs i r p s hr before h ih =>
    have hfail : outcome o R r = .error e := ih he
    have hlast := (course o R c rs).of_stopped hr before (hfail ▸ nofun)
    exact hlast.2.trans hfail

end ShortCircuit

end RecordRules
