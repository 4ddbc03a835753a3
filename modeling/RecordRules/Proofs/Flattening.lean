import RecordRules.Proofs.Tracing

/-!
Groups within groups. A group in a group of the same connective can be spliced into it, and a
group of one child stands for the child: left-to-right evaluation goes through the same leaves
in the same order and ends with the same answer or the same error.
-/

namespace RecordRules

namespace Rule

/-- A group of these children, or the only child. -/
def ofChildren (c : Connective) : List Rule → Rule
  | [r] => r
  | rs => .group c rs

/-- What a rule puts into a group of a connective: its children if it is such a group itself,
and otherwise the rule. -/
def spliced (c : Connective) : Rule → List Rule
  | .group c' rs => if c' = c then rs else [.group c' rs]
  | r => [r]

mutual

/-- The rule with every group spliced into the group around it, where that has the same
connective, and with the only child in place of a group of one. -/
def flat : Rule → Rule
  | .comparison left op right => .comparison left op right
  | .predicate subject verb arg => .predicate subject verb arg
  | .group c rs => ofChildren c (flatChildren c rs)
termination_by structural r => r

def flatChildren (c : Connective) : List Rule → List Rule
  | [] => []
  | r :: rs => spliced c (flat r) ++ flatChildren c rs
termination_by structural rs => rs

end

/-- No group has one child, or a child that is a group of the same connective. -/
inductive IsFlat : Rule → Prop
  | leaf {r : Rule} (h : r.isLeaf = true) : IsFlat r
  | group {c : Connective} {rs : List Rule} (hlen : rs.length ≠ 1) (h : ∀ r ∈ rs, IsFlat r)
      (hne : ∀ r ∈ rs, ∀ ss, r ≠ .group c ss) : IsFlat (.group c rs)

/-- A flat rule that can stand in a flat group of the connective. -/
structure FitsIn (c : Connective) (r : Rule) : Prop where
  flat : IsFlat r
  other : ∀ ss, r ≠ .group c ss

/-! ### What is made flat is flat -/

variable {c : Connective} {r : Rule} {rs : List Rule}

lemma IsFlat.of_fitting (hlen : rs.length ≠ 1) (h : ∀ r ∈ rs, FitsIn c r) :
    IsFlat (.group c rs) :=
  .group hlen (fun r hr => (h r hr).flat) fun r hr => (h r hr).other

lemma isFlat_ofChildren (h : ∀ r ∈ rs, FitsIn c r) : IsFlat (ofChildren c rs) := by
  match rs, h with
  | [], h => exact .of_fitting (by simp) h
  | [r], h => exact (h r (List.mem_singleton_self r)).flat
  | _ :: _ :: _, h => exact .of_fitting (by simp) h

lemma fitsIn_spliced (hr : IsFlat r) : ∀ s ∈ spliced c r, FitsIn c s := by
  cases hr with
  | leaf h =>
    cases r with
    | group => cases h
    | _ => exact List.forall_mem_singleton.2 ⟨.leaf rfl, nofun⟩
  | @group c' rs hlen h hne =>
    rw [spliced]
    split
    · next hc =>
      subst hc
      exact fun s hs => ⟨h s hs, hne s hs⟩
    · next hc =>
      refine List.forall_mem_singleton.2 ⟨.group hlen h hne, ?_⟩
      rintro ss hss
      exact hc (Rule.group.inj hss).1

lemma fitsIn_flatChildren (h : ∀ r ∈ rs, IsFlat r.flat) : ∀ s ∈ flatChildren c rs, FitsIn c s := by
  induction rs with
  | nil => exact fun s hs => nomatch hs
  | cons r rs ih =>
    rw [List.forall_mem_cons] at h
    rw [flatChildren, List.forall_mem_append]
    exact ⟨fitsIn_spliced h.1, ih h.2⟩

theorem isFlat_flat (r : Rule) : IsFlat r.flat := by
  induction r using Rule.induct with
  | leaf r hr =>
    cases r with
    | group => cases hr
    | _ => exact .leaf rfl
  | group c rs ih =>
    rw [flat]
    exact isFlat_ofChildren (fitsIn_flatChildren ih)

end Rule

namespace Flattening

open ShortCircuit Rule

/-- The second outcome where the first one neither settles a group of the connective nor
fails. -/
def andThen (c : Connective) (x y : Except RuleError Bool) : Except RuleError Bool :=
  match x with
  | .error e => .error e
  | .ok b => if b = c.decisive then .ok b else y

variable {c : Connective} {x y z : Except RuleError Bool}

lemma andThen_assoc : andThen c (andThen c x y) z = andThen c x (andThen c y z) := by
  cases x with
  | error e => rfl
  | ok b =>
    by_cases hb : b = c.decisive
    · simp [andThen, hb]
    · simp [andThen, hb]

/-- What no child settles is left by the end. -/
lemma andThen_rest : andThen c x (.ok (!c.decisive)) = x := by
  cases x with
  | error e => rfl
  | ok b =>
    by_cases hb : b = c.decisive
    · simp [andThen, hb]
    · simp [andThen, Bool.eq_not_of_ne hb]

lemma rest_andThen : andThen c (.ok (!c.decisive)) y = y := by
  simp [andThen]

/-! ### Outcomes -/

variable {o : StringOrdering} {R : Record}

lemma groupOutcome_cons (r : Rule) (rs : List Rule) :
    groupOutcome o R c (r :: rs) = andThen c (outcome o R r) (groupOutcome o R c rs) := by
  rw [groupOutcome]
  rfl

lemma groupOutcome_append (rs ss : List Rule) :
    groupOutcome o R c (rs ++ ss) =
      andThen c (groupOutcome o R c rs) (groupOutcome o R c ss) := by
  induction rs with
  | nil => exact rest_andThen.symm
  | cons r rs ih => rw [List.cons_append, groupOutcome_cons, groupOutcome_cons, ih, andThen_assoc]

lemma groupOutcome_single (r : Rule) : groupOutcome o R c [r] = outcome o R r := by
  rw [groupOutcome_cons]
  exact andThen_rest

lemma outcome_ofChildren (rs : List Rule) :
    outcome o R (ofChildren c rs) = groupOutcome o R c rs := by
  match rs with
  | [] => rfl
  | [r] => exact (groupOutcome_single r).symm
  | _ :: _ :: _ => rfl

lemma groupOutcome_spliced (r : Rule) : groupOutcome o R c (spliced c r) = outcome o R r := by
  cases r with
  | group c' rs =>
    rw [spliced]
    split
    · next hc => rw [← hc, outcome]
    · exact groupOutcome_single _
  | _ => exact groupOutcome_single _

lemma groupOutcome_flatChildren {rs : List Rule}
    (h : ∀ r ∈ rs, outcome o R r.flat = outcome o R r) :
    groupOutcome o R c (flatChildren c rs) = groupOutcome o R c rs := by
  induction rs with
  | nil => rfl
  | cons r rs ih =>
    rw [List.forall_mem_cons] at h
    rw [flatChildren, groupOutcome_append, groupOutcome_spliced, groupOutcome_cons, h.1, ih h.2]

theorem outcome_flat (r : Rule) : outcome o R r.flat = outcome o R r := by
  induction r using Rule.induct with
  | leaf r hr =>
    cases r with
    | group => cases hr
    | _ => rfl
  | group c rs ih => rw [flat, outcome_ofChildren, groupOutcome_flatChildren ih, outcome]

/-- A group among the children of one with the same connective can give way to its own
children. -/
lemma outcome_splice (us ss vs : List Rule) :
    outcome o R (.group c (us ++ .group c ss :: vs)) = outcome o R (.group c (us ++ ss ++ vs)) := by
  rw [outcome, outcome, groupOutcome_append, groupOutcome_cons, outcome, List.append_assoc,
    groupOutcome_append, groupOutcome_append]

/-- **Nesting with one connective has no meaning**: a rule and its flat form, in which no such
nesting is left, have the same answer or the same error on every record. Three conditions can be
grouped either way or not at all. -/
theorem evaluate_flat (x : Executor) (r : Rule) (R : Record) :
    x.evaluate r.flat R = x.evaluate r R ∧ IsFlat r.flat ∧
      ∀ (op : Connective) (a b c : Rule),
        x.evaluate (.group op [.group op [a, b], c]) R = x.evaluate (.group op [a, b, c]) R ∧
        x.evaluate (.group op [a, .group op [b, c]]) R = x.evaluate (.group op [a, b, c]) R := by
  refine ⟨?_, isFlat_flat r, fun op a b c => ?_⟩
  · rw [Tracing.evaluate_eq, Tracing.evaluate_eq, outcome_flat]
  · simp only [Tracing.evaluate_eq]
    exact ⟨outcome_splice [] [a, b] [c], outcome_splice [a] [b, c] []⟩

end Flattening

end RecordRules
