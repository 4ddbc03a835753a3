import RecordRules.Proofs.Balance

/-!
The connectives of a level of parentheses. In what a tree derives they agree on each level.

This is seen by a scan with a stack: for every level that is open it keeps the connective
met there, if one was.
-/

namespace RecordRules.Grammar

open Parse (Tier)

/-- Two connectives of one level differ: what stands between them is balanced. -/
def Mixed (ls : List Lexeme) : Prop :=
  ∃ u v w op op', op ≠ op' ∧ Balanced v ∧
    ls = u ++ .connective op :: (v ++ .connective op' :: w)

/-- The scan at a level with the connective `c`, inside the levels `st`. -/
def agree (c : Option Connective) (st : List (Option Connective)) : List Lexeme → Bool
  | [] => true
  | .openParen :: w => agree none (c :: st) w
  | .closeParen :: w =>
    match st with
    | [] => false
    | d :: st => agree d st w
  | .connective op :: w =>
    match c with
    | none => agree (some op) st w
    | some op' => op == op' && agree c st w
  | _ :: w => agree c st w

variable {c : Option Connective} {st : List (Option Connective)} {u v w : List Lexeme}
  {op op' : Connective}

/-- After what is balanced the scan stands at the same level, with the connective it had. -/
lemma agree_balanced (hv : Balanced v) (h : agree c st (v ++ w) = true) :
    ∃ d, (c ≠ none → d = c) ∧ agree d st w = true := by
  induction hv generalizing c st w with
  | nil => exact ⟨c, fun _ => rfl, h⟩
  | @cons l v hopen hclose _ ih =>
    rw [List.cons_append] at h
    cases l with
    | openParen => exact absurd rfl hopen
    | closeParen => exact absurd rfl hclose
    | connective op =>
      cases c with
      | none =>
        obtain ⟨d, -, hd⟩ := ih h
        exact ⟨d, fun hc => absurd rfl hc, hd⟩
      | some op' =>
        simp only [agree, Bool.and_eq_true] at h
        exact ih h.2
    | _ => exact ih h
  | paren _ _ ihu ihv =>
    rw [List.cons_append, List.append_assoc, List.cons_append] at h
    obtain ⟨d, -, hd⟩ := ihu h
    exact ihv hd

lemma agree_mixed (hne : op ≠ op') (hv : Balanced v) :
    agree c st (u ++ .connective op :: (v ++ .connective op' :: w)) = false := by
  induction u generalizing c st with
  | nil =>
    by_contra h
    rw [Bool.not_eq_false, List.nil_append] at h
    have hop : agree (some op) st (v ++ .connective op' :: w) = true := by
      cases c with
      | none => exact h
      | some d =>
        simp only [agree, Bool.and_eq_true, beq_iff_eq] at h
        rw [h.1]
        exact h.2
    obtain ⟨d, hd, hw⟩ := agree_balanced hv hop
    rw [hd (by simp)] at hw
    simp only [agree, Bool.and_eq_true, beq_iff_eq] at hw
    exact hne hw.1.symm
  | cons l u ih =>
    rw [List.cons_append]
    cases l with
    | openParen => exact ih
    | closeParen =>
      cases st with
      | nil => rfl
      | cons d st => exact ih
    | connective op'' =>
      cases c with
      | none => exact ih
      | some d => simp only [agree, ih, Bool.and_false]
    | _ => exact ih

/-! ### Operands and tests have no connectives outside -/

def Unjoined (ls : List Lexeme) : Prop := ∀ l ∈ ls, ∀ op, l ≠ .connective op

lemma agree_unjoined (hu : Balanced u) (h : Unjoined u) : agree c st (u ++ w) = agree c st w := by
  induction hu generalizing c st w with
  | nil => rfl
  | @cons l v hopen hclose _ ih =>
    have ih' : agree c st (v ++ w) = agree c st w := ih fun m hm => h m (by simp [hm])
    rw [List.cons_append, ← ih']
    cases l with
    | openParen => exact absurd rfl hopen
    | closeParen => exact absurd rfl hclose
    | connective op => exact absurd rfl (h _ (by simp) op)
    | _ => rfl
  | paren _ _ ihu ihv =>
    rw [List.cons_append, List.append_assoc, List.cons_append]
    simp only [agree]
    rw [ihu fun m hm => h m (by simp [hm])]
    exact ihv fun m hm => h m (by simp [hm])

lemma Unjoined.cons {l : Lexeme} (hl : ∀ op, l ≠ .connective op) (h : Unjoined u) :
    Unjoined (l :: u) := by
  rintro m hm op
  rcases List.mem_cons.mp hm with rfl | hm
  · exact hl op
  · exact h m hm op

lemma Unjoined.nil : Unjoined [] := by
  rintro l hl
  simp at hl

lemma Unjoined.append (hu : Unjoined u) (hv : Unjoined v) : Unjoined (u ++ v) := by
  rintro l hl
  rcases List.mem_append.mp hl with hl | hl
  · exact hu l hl
  · exact hv l hl

mutual

theorem Chain.unjoined {tier : Tier} : (c : Chain tier) → Unjoined c.lexemes
  | .mk first more => first.unjoined.append more.unjoined
termination_by structural c => c

theorem Links.unjoined {tier : Tier} : (m : Links tier) → Unjoined m.lexemes
  | .nil => .nil
  | .cons _ _ next more => .cons (by simp) (next.unjoined.append more.unjoined)
termination_by structural m => m

theorem Link.unjoined {tier : Tier} : (l : Link tier) → Unjoined l.lexemes
  | .product c => c.unjoined
  | .operand a => a.unjoined
termination_by structural l => l

theorem Atom.unjoined : (a : Atom) → Unjoined a.lexemes
  | .path _ => .cons (by simp) .nil
  | .literal _ => .cons (by simp) .nil
  | .paren c => .cons (by simp) (c.unjoined.append (.cons (by simp) .nil))
termination_by structural a => a

end

lemma unjoined_itemLexemes : (ls : List Literal) → Unjoined (itemLexemes ls)
  | [] => .nil
  | [_] => .cons (by simp) .nil
  | _ :: m :: ls => .cons (by simp) (.cons (by simp) (unjoined_itemLexemes (m :: ls)))

lemma Clause.unjoined (c : Clause) : Unjoined c.lexemes := by
  cases c with
  | comparison op right => exact .cons (by simp) right.unjoined
  | predicate verb argument => exact .cons (by simp) argument.unjoined
  | listed verb _ items =>
    refine .cons (by simp) (.cons (by simp) ?_)
    exact (unjoined_itemLexemes items).append (.cons (by simp) .nil)

lemma agree_test (t : Test) : agree c st (t.lexemes ++ w) = agree c st w :=
  agree_unjoined t.balanced (t.subject.unjoined.append t.clause.unjoined)

/-! ### Groups -/

mutual

/-- A group leaves its level with the connective it has. -/
theorem agree_group : (g : Group) →
    ∃ d, ∀ st w, agree none st (g.lexemes ++ w) = agree d st w
  | .single t => ⟨none, fun st w => agree_term none st w t⟩
  | .joined op first second more => by
    refine ⟨some op, fun st w => ?_⟩
    rw [Group.lexemes, List.append_assoc, agree_term none st _ first, List.cons_append]
    simp only [agree]
    rw [List.append_assoc, agree_term _ st _ second, agree_more op st w more]
termination_by structural g => g

/-- A term leaves its level as it was. -/
theorem agree_term (c : Option Connective) (st : List (Option Connective)) (w : List Lexeme) :
    (t : Term) → agree c st (t.lexemes ++ w) = agree c st w
  | .paren g => by
    obtain ⟨d, hd⟩ := agree_group g
    rw [Term.lexemes, List.cons_append, List.append_assoc]
    simp only [agree]
    rw [hd]
    rfl
  | .test t => agree_test t
termination_by structural t => t

theorem agree_more (op : Connective) (st : List (Option Connective)) (w : List Lexeme) :
    (ts : List Term) → agree (some op) st (Term.moreLexemes op ts ++ w) = agree (some op) st w
  | [] => rfl
  | t :: ts => by
    rw [Term.moreLexemes, List.cons_append, List.append_assoc]
    simp only [agree, beq_self_eq_true, Bool.true_and]
    rw [agree_term _ st _ t, agree_more op st w ts]
termination_by structural ts => ts

end

/-- No level of what a tree derives has both connectives. -/
theorem Group.not_mixed (g : Group) : ¬Mixed g.lexemes := by
  rintro ⟨u, v, w, op, op', hne, hv, h⟩
  obtain ⟨d, hd⟩ := agree_group g
  have htrue : agree none [] g.lexemes = true := by
    have := hd [] []
    rwa [List.append_nil] at this
  rw [h, agree_mixed hne hv] at htrue
  simp at htrue

end RecordRules.Grammar
