import RecordRules.Proofs.Tracing

/-!
The order of the children of groups. Evaluation in another order may come to other leaves, so
that one run fails where another has an answer; but an answer that evaluation gives is forced
by the leaves alone, in whatever order they stand, and no two answers are forced.
-/

namespace RecordRules

/-- The children of groups stand in another order, in any groups on any levels. -/
inductive Reordered : Rule → Rule → Prop
  | refl (r : Rule) : Reordered r r
  | children {c : Connective} {rs ss : List Rule} (h : rs.Perm ss) :
      Reordered (.group c rs) (.group c ss)
  | inside {c : Connective} {r s : Rule} (us vs : List Rule) (h : Reordered r s) :
      Reordered (.group c (us ++ r :: vs)) (.group c (us ++ s :: vs))
  | trans {r s t : Rule} (h : Reordered r s) (h' : Reordered s t) : Reordered r t

namespace Reordering

open ShortCircuit

variable (o : StringOrdering) (R : Record)

/-- The answer of a rule that follows from the answers of its leaves, whichever of them have
one: of a group, the answer that one child settles, or else that all children leave to it. -/
inductive Forced : Rule → Bool → Prop
  | leaf {r : Rule} {b : Bool} (hr : r.isLeaf = true) (h : outcome o R r = .ok b) : Forced r b
  | settled {c : Connective} {rs : List Rule} {r : Rule} (hr : r ∈ rs)
      (h : Forced r c.decisive) : Forced (.group c rs) c.decisive
  | exhausted {c : Connective} {rs : List Rule} (h : ∀ r ∈ rs, Forced r (!c.decisive)) :
      Forced (.group c rs) (!c.decisive)

variable {o R} {r s : Rule} {b b' : Bool}

/-- No two answers are forced. -/
theorem Forced.unique (h : Forced o R r b) (h' : Forced o R r b') : b = b' := by
  induction h generalizing b' with
  | leaf hr h =>
    cases h' with
    | leaf hr' h' => exact Except.ok.inj (h.symm.trans h')
    | settled => cases hr
    | exhausted => cases hr
  | settled hr h ih =>
    cases h' with
    | leaf hr' => cases hr'
    | settled => rfl
    | exhausted h' => exact ih (h' _ hr)
  | exhausted h ih =>
    cases h' with
    | leaf hr' => cases hr'
    | settled hr h' => exact ih _ hr h'
    | exhausted => rfl

/-- An answer that evaluation gives is forced. -/
theorem forced_of_outcome (h : outcome o R r = .ok b) : Forced o R r b := by
  induction r using Rule.induct generalizing b with
  | leaf r hr => exact .leaf hr h
  | group c rs ih =>
    have hc := course o R c rs
    rw [outcome] at h
    rw [h] at hc
    generalize reached o R c rs = n at hc
    generalize hout : Except.ok b = out at hc
    cases hc with
    | exhausted hu =>
      obtain rfl := Except.ok.inj hout
      exact .exhausted fun r hr => ih r hr (hu r hr)
    | @stopped k r hr before hne =>
      obtain rfl : b = c.decisive := eq_decisive hne hout.symm
      have hmem : r ∈ rs := List.mem_of_getElem? hr
      exact .settled hmem (ih r hmem hout.symm)

/-- What is forced of the first rule is forced of the second. -/
def Entails (o : StringOrdering) (R : Record) (r s : Rule) : Prop :=
  ∀ b, Forced o R r b → Forced o R s b

/-- A group entails another one if each child has a counterpart that it entails, and each of
the other children one that entails it. -/
lemma Entails.group {c : Connective} {rs ss : List Rule} (hto : ∀ r ∈ rs, ∃ s ∈ ss, Entails o R r s)
    (hfrom : ∀ s ∈ ss, ∃ r ∈ rs, Entails o R r s) : Entails o R (.group c rs) (.group c ss) := by
  intro b h
  cases h with
  | leaf hr => cases hr
  | settled hr h =>
    obtain ⟨s, hs, hrs⟩ := hto _ hr
    exact .settled hs (hrs _ h)
  | exhausted h =>
    refine .exhausted fun s hs => ?_
    obtain ⟨r, hr, hrs⟩ := hfrom s hs
    exact hrs _ (h r hr)

/-- Where one child is replaced, each child has its counterpart. -/
lemma exists_counterpart {P : Rule → Rule → Prop} (hself : ∀ t, P t t) (hrs : P r s)
    {us vs : List Rule} {t : Rule} (ht : t ∈ us ++ r :: vs) : ∃ t' ∈ us ++ s :: vs, P t t' := by
  rcases List.mem_append.1 ht with ht | ht
  · exact ⟨t, List.mem_append_left _ ht, hself t⟩
  · rcases List.mem_cons.1 ht with rfl | ht
    · exact ⟨s, List.mem_append_right _ List.mem_cons_self, hrs⟩
    · exact ⟨t, List.mem_append_right _ (List.mem_cons_of_mem _ ht), hself t⟩

/-- The order of children has no part in what is forced. -/
theorem Entails.of_reordered (h : Reordered r s) : Entails o R r s := by
  induction h with
  | refl r => exact fun _ => id
  | children hp =>
    exact .group (fun r hr => ⟨r, hp.mem_iff.1 hr, fun _ => id⟩)
      fun s hs => ⟨s, hp.mem_iff.2 hs, fun _ => id⟩
  | inside us vs _ ih =>
    exact .group (fun t => exists_counterpart (P := Entails o R) (fun _ _ => id) ih)
      fun t => exists_counterpart (P := fun t r => Entails o R r t) (fun _ _ => id) ih
  | trans _ _ ih ih' => exact fun b h => ih' b (ih b h)

/-- **Reordering never flips an answer**: if a rule has an answer on a record, and so has the
rule with the children of its groups in another order, the answers are the same. -/
theorem evaluate_reordered (x : Executor) (R : Record) {t t' : Rule} (h : Reordered t t')
    {b b' : Bool} (hb : x.evaluate t R = .ok b) (hb' : x.evaluate t' R = .ok b') : b = b' := by
  have hforced : Forced x.ordering R t b :=
    forced_of_outcome ((Tracing.evaluate_eq R x t).symm.trans hb)
  have hforced' : Forced x.ordering R t' b' :=
    forced_of_outcome ((Tracing.evaluate_eq R x t').symm.trans hb')
  exact (Entails.of_reordered h b hforced).unique hforced'

/-- The leaf that fails is skipped both times, first after its neighbour, and in the other order
with the whole group. -/
theorem evaluate_reordered_failing :
    let yes := Rule.comparison (.literal (.int 1)) .eq (.literal (.int 1))
    let no := Rule.comparison (.literal (.int 1)) .eq (.literal (.int 2))
    let fails := Rule.comparison
      (.arithmetic (.literal (.int 1)) .div (.literal (.int 0))) .eq (.literal (.int 1))
    let t := Rule.group .and [.group .or [yes, fails], no]
    let t' := Rule.group .and [no, .group .or [fails, yes]]
    Reordered t t' ∧ ∃ b b', Executor.evaluate {} t (.listed [] [] []) = .ok b ∧
      Executor.evaluate {} t' (.listed [] [] []) = .ok b' ∧ b = b' ∧ b' = false := by
  intro yes no fails t t'
  have hinner : Reordered t (.group .and [.group .or [fails, yes], no]) :=
    .inside [] [no] (.children (.swap fails yes []))
  have h : Reordered t t' := hinner.trans (.children (.swap no _ []))
  have hb : Executor.evaluate {} t (.listed [] [] []) = .ok false := rfl
  have hb' : Executor.evaluate {} t' (.listed [] [] []) = .ok false := rfl
  exact ⟨h, _, _, hb, hb', evaluate_reordered {} _ h hb hb', rfl⟩

end Reordering

end RecordRules
