import RecordRules.Proofs.Balance

/-!
A list of lexemes has one derivation at most. Two derivations are compared from the left:
what follows them cannot go on with them, so that they end at the same place.
-/

namespace RecordRules.Grammar

open Parse (Tier)

variable {w w' : List Lexeme}

mutual

theorem Chain.unique : {tier : Tier} → (c c' : Chain tier) → (w w' : List Lexeme) →
    c.lexemes ++ w = c'.lexemes ++ w' → Ends tier w → Ends tier w' → c = c' ∧ w = w'
  | _, .mk first more, .mk first' more', w, w', h, hw, hw' => by
    simp only [Chain.lexemes, List.append_assoc] at h
    obtain ⟨rfl, h₁⟩ := first.unique first' _ _ h (more.linkEnds hw) (more'.linkEnds hw')
    obtain ⟨rfl, h₂⟩ := more.unique more' _ _ h₁ hw hw'
    exact ⟨rfl, h₂⟩
termination_by structural _ c => c

theorem Links.unique : {tier : Tier} → (m m' : Links tier) → (w w' : List Lexeme) →
    m.lexemes ++ w = m'.lexemes ++ w' → Ends tier w → Ends tier w' → m = m' ∧ w = w'
  | _, .nil, .nil, _, _, h, _, _ => ⟨rfl, h⟩
  | _, .nil, .cons op joins next more, w, w', h, hw, _ => by
    simp only [Links.lexemes, List.nil_append, List.cons_append] at h
    subst h
    exact absurd (hw _ rfl) (by simpa using continues_of_joins joins)
  | _, .cons op joins next more, .nil, w, w', h, _, hw' => by
    simp only [Links.lexemes, List.nil_append, List.cons_append] at h
    subst h
    exact absurd (hw' _ rfl) (by simpa using continues_of_joins joins)
  | _, .cons op joins next more, .cons op' joins' next' more', w, w', h, hw, hw' => by
    simp only [Links.lexemes, List.cons_append, List.append_assoc, List.cons.injEq,
      Lexeme.arithmetic.injEq] at h
    obtain ⟨rfl, h₁⟩ := h
    obtain ⟨rfl, h₂⟩ := next.unique next' _ _ h₁ (more.linkEnds hw) (more'.linkEnds hw')
    obtain ⟨rfl, h₃⟩ := more.unique more' _ _ h₂ hw hw'
    exact ⟨rfl, h₃⟩
termination_by structural _ m => m

theorem Link.unique : {tier : Tier} → (l l' : Link tier) → (w w' : List Lexeme) →
    l.lexemes ++ w = l'.lexemes ++ w' → LinkEnds tier w → LinkEnds tier w' → l = l' ∧ w = w'
  | _, .product c, .product c', w, w', h, hw, hw' => by
    obtain ⟨rfl, h₁⟩ := c.unique c' _ _ h hw hw'
    exact ⟨rfl, h₁⟩
  | _, .operand a, .operand a', w, w', h, _, _ => by
    obtain ⟨rfl, h₁⟩ := a.unique a' _ _ h
    exact ⟨rfl, h₁⟩
termination_by structural _ l => l

theorem Atom.unique : (a a' : Atom) → (w w' : List Lexeme) →
    a.lexemes ++ w = a'.lexemes ++ w' → a = a' ∧ w = w'
  | .path p, .path p', w, w', h => by
    simp only [Atom.lexemes, List.cons_append, List.nil_append, List.cons.injEq,
      Lexeme.path.injEq] at h
    exact ⟨by rw [Path.ext_text h.1], h.2⟩
  | .literal l, .literal l', w, w', h => by
    simp only [Atom.lexemes, List.cons_append, List.nil_append, List.cons.injEq,
      Lexeme.literal.injEq] at h
    exact ⟨by rw [h.1], h.2⟩
  | .paren c, .paren c', w, w', h => by
    simp only [Atom.lexemes, List.cons_append, List.append_assoc, List.nil_append,
      List.cons.injEq, true_and] at h
    obtain ⟨rfl, h₁⟩ := c.unique c' _ _ h (by simp [Ends, continues]) (by simp [Ends, continues])
    exact ⟨rfl, by simpa using h₁⟩
  | .path _, .literal _, _, _, h | .path _, .paren _, _, _, h | .literal _, .path _, _, _, h
  | .literal _, .paren _, _, _, h | .paren _, .path _, _, _, h
  | .paren _, .literal _, _, _, h => by simp [Atom.lexemes] at h
termination_by structural a => a

end

lemma items_unique (ls ls' : List Literal)
    (h : itemLexemes ls ++ .closeBracket :: w = itemLexemes ls' ++ .closeBracket :: w') :
    ls = ls' ∧ w = w' := by
  induction ls generalizing ls' with
  | nil =>
    rcases ls' with _ | ⟨m, _ | ⟨n, ls'⟩⟩
    · simpa [itemLexemes] using h
    · simp [itemLexemes] at h
    · simp [itemLexemes] at h
  | cons l ls ih =>
    rcases ls with _ | ⟨k, ls⟩ <;> rcases ls' with _ | ⟨m, _ | ⟨n, ls'⟩⟩
    · simp [itemLexemes] at h
    · simpa [itemLexemes] using h
    · simp [itemLexemes] at h
    · simp [itemLexemes] at h
    · simp [itemLexemes] at h
    · simp only [itemLexemes, List.cons_append, List.cons.injEq, Lexeme.literal.injEq,
        true_and] at h
      obtain ⟨rfl, h₁⟩ := h
      obtain ⟨h₂, rfl⟩ := ih (n :: ls') h₁
      exact ⟨by rw [h₂], rfl⟩

lemma argument_ne_list (c : Chain .sum) (u v : List Lexeme) :
    c.lexemes ++ u ≠ .openBracket :: v := by
  obtain ⟨l, x, hc, hl⟩ := exists_head_sum c
  rw [hc, List.cons_append]
  rintro ⟨⟩
  simp [startsOperand] at hl

lemma Clause.unique (c c' : Clause) (h : c.lexemes ++ w = c'.lexemes ++ w') (hw : Ends .sum w)
    (hw' : Ends .sum w') : c = c' ∧ w = w' := by
  cases c <;> cases c' <;> simp only [Clause.lexemes, List.cons_append, List.cons.injEq,
    Lexeme.relation.injEq, Lexeme.verb.injEq, reduceCtorEq, false_and] at h
  case comparison.comparison op right op' right' =>
    obtain ⟨rfl, h₁⟩ := h
    obtain ⟨rfl, h₂⟩ := right.unique right' _ _ h₁ hw hw'
    exact ⟨rfl, h₂⟩
  case predicate.predicate verb argument verb' argument' =>
    obtain ⟨rfl, h₁⟩ := h
    obtain ⟨rfl, h₂⟩ := argument.unique argument' _ _ h₁ hw hw'
    exact ⟨rfl, h₂⟩
  case predicate.listed => exact absurd h.2 (argument_ne_list _ _ _)
  case listed.predicate => exact absurd h.2.symm (argument_ne_list _ _ _)
  case listed.listed verb _ items verb' _ items' =>
    obtain ⟨rfl, -, h₁⟩ := h
    obtain ⟨rfl, h₂⟩ := items_unique items items' (by simpa using h₁)
    exact ⟨rfl, h₂⟩

theorem Test.unique (t t' : Test) (h : t.lexemes ++ w = t'.lexemes ++ w') (hw : Ends .sum w)
    (hw' : Ends .sum w') : t = t' ∧ w = w' := by
  obtain ⟨subject, clause⟩ := t
  obtain ⟨subject', clause'⟩ := t'
  simp only [Test.lexemes, List.append_assoc] at h
  obtain ⟨rfl, h₁⟩ := subject.unique subject' _ _ h (clause.ends w) (clause'.ends w')
  obtain ⟨rfl, h₂⟩ := clause.unique clause' h₁ hw hw'
  exact ⟨rfl, h₂⟩

/-- A group in parentheses does not derive what a test derives. -/
lemma paren_ne_test (g : Group) (t : Test) (hw : w.head?.any (·.followsOperand) = false) :
    (Term.paren g).lexemes ++ w ≠ (Term.test t).lexemes ++ w' := by
  intro h
  obtain ⟨l, u, ht, -⟩ := t.exists_head
  simp only [Term.lexemes, ht, List.cons_append, List.append_assoc, List.nil_append,
    List.cons.injEq] at h
  obtain ⟨rfl, h⟩ := h
  have hg := opens_wrapped g.balanced w
  rw [h, opens_test t ht, hw] at hg
  simp at hg

mutual

theorem Group.unique : (g g' : Group) → (w w' : List Lexeme) →
    g.lexemes ++ w = g'.lexemes ++ w' → GroupEnds w → GroupEnds w' → g = g' ∧ w = w'
  | .single t, .single t', w, w', h, hw, hw' => by
    obtain ⟨rfl, h₁⟩ := t.unique t' _ _ h hw.not_follows hw'.not_follows
    exact ⟨rfl, h₁⟩
  | .single t, .joined op first second more, w, w', h, hw, _ => by
    simp only [Group.lexemes, List.append_assoc, List.cons_append] at h
    obtain ⟨-, rfl⟩ := t.unique first _ _ h hw.not_follows rfl
    exact absurd (hw _ rfl) (by simp)
  | .joined op first second more, .single t, w, w', h, _, hw' => by
    simp only [Group.lexemes, List.append_assoc, List.cons_append] at h
    obtain ⟨-, rfl⟩ := first.unique t _ _ h rfl hw'.not_follows
    exact absurd (hw' _ rfl) (by simp)
  | .joined op first second more, .joined op' first' second' more', w, w', h, hw, hw' => by
    simp only [Group.lexemes, List.append_assoc, List.cons_append] at h
    obtain ⟨rfl, h₁⟩ := first.unique first' _ _ h rfl rfl
    simp only [List.cons.injEq, Lexeme.connective.injEq] at h₁
    obtain ⟨rfl, h₂⟩ := h₁
    obtain ⟨rfl, h₃⟩ := second.unique second' _ _ h₂ (more_not_follows op more hw)
      (more_not_follows op more' hw')
    obtain ⟨rfl, h₄⟩ := Term.unique_more op more more' _ _ h₃ hw hw'
    exact ⟨rfl, h₄⟩
termination_by structural g => g

theorem Term.unique : (t t' : Term) → (w w' : List Lexeme) →
    t.lexemes ++ w = t'.lexemes ++ w' → w.head?.any (·.followsOperand) = false →
    w'.head?.any (·.followsOperand) = false → t = t' ∧ w = w'
  | .paren g, .paren g', w, w', h, _, _ => by
    simp only [Term.lexemes, List.cons_append, List.append_assoc, List.nil_append,
      List.cons.injEq, true_and] at h
    obtain ⟨rfl, h₁⟩ := g.unique g' _ _ h (by simp [GroupEnds]) (by simp [GroupEnds])
    exact ⟨rfl, by simpa using h₁⟩
  | .paren g, .test t, w, w', h, hw, _ => absurd h (paren_ne_test g t hw)
  | .test t, .paren g, w, w', h, _, hw' => absurd h.symm (paren_ne_test g t hw')
  | .test t, .test t', w, w', h, hw, hw' => by
    obtain ⟨rfl, h₁⟩ := t.unique t' h (.of_not_follows hw) (.of_not_follows hw')
    exact ⟨rfl, h₁⟩
termination_by structural t => t

theorem Term.unique_more (op : Connective) : (ts ts' : List Term) → (w w' : List Lexeme) →
    Term.moreLexemes op ts ++ w = Term.moreLexemes op ts' ++ w' → GroupEnds w → GroupEnds w' →
    ts = ts' ∧ w = w'
  | [], [], _, _, h, _, _ => ⟨rfl, h⟩
  | [], t :: ts, w, w', h, hw, _ => by
    simp only [Term.moreLexemes, List.nil_append, List.cons_append] at h
    subst h
    exact absurd (hw _ rfl) (by simp)
  | t :: ts, [], w, w', h, _, hw' => by
    simp only [Term.moreLexemes, List.nil_append, List.cons_append] at h
    subst h
    exact absurd (hw' _ rfl) (by simp)
  | t :: ts, t' :: ts', w, w', h, hw, hw' => by
    simp only [Term.moreLexemes, List.cons_append, List.append_assoc, List.cons.injEq,
      true_and] at h
    obtain ⟨rfl, h₁⟩ := t.unique t' _ _ h (more_not_follows op ts hw)
      (more_not_follows op ts' hw')
    obtain ⟨rfl, h₂⟩ := Term.unique_more op ts ts' _ _ h₁ hw hw'
    exact ⟨rfl, h₂⟩
termination_by structural ts => ts

end

/-- **Uniqueness**: no list of lexemes has two derivations. -/
theorem lexemes_injective {g g' : Group} (h : g.lexemes = g'.lexemes) : g = g' :=
  (g.unique g' [] [] (by rw [h]) (by simp [GroupEnds]) (by simp [GroupEnds])).1

end RecordRules.Grammar
