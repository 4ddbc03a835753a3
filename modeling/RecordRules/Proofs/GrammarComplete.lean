import RecordRules.Proofs.Balance
import RecordRules.Proofs.Readers

/-!
What the grammar derives is accepted by the parser. Each reader, put before the lexemes of
a derivation and something that cannot go on with them, reads exactly these and gives the
tree of the derivation. No limit is set on the nesting.
-/

namespace RecordRules.GrammarComplete

open Grammar
open Parse (Tier)

variable {α : Type} {depth : ℕ} {tier : Tier} {ts us : List Token} {w : List Lexeme}
  {op : Connective}

/-- The reader succeeds with `a` and leaves the lexemes `w`. -/
def Reads (x : Except Parse.Fault (α × List Token)) (a : α) (w : List Lexeme) : Prop :=
  ∃ r, x = .ok (a, r) ∧ r.map Token.lexeme = w

lemma cons_of_map {l : Lexeme} (h : ts.map Token.lexeme = l :: w) :
    ∃ t us, ts = t :: us ∧ t.lexeme = l ∧ us.map Token.lexeme = w := by
  rcases ts with _ | ⟨t, us⟩
  · simp at h
  · simp only [List.map_cons, List.cons.injEq] at h
    exact ⟨t, us, rfl, h.1, h.2⟩

variable (stop start : ℕ)

lemma chainFrom_of_ends {left : Operand} (h : Ends tier (ts.map Token.lexeme)) :
    Readers.chainFrom stop none tier depth left ts = .ok (left, ts) := by
  rcases ts with _ | ⟨t, us⟩
  · exact Readers.chainFrom_nil
  · have ht : continues tier t.lexeme = false := h _ rfl
    rw [Readers.chainFrom_cons]
    split
    · next op hop =>
      rw [hop] at ht
      have : tier.joins op = false := by
        cases tier with
        | sum => simp [continues] at ht
        | product => exact ht
      simp [this]
    · rfl

lemma close_complete (h : ts.map Token.lexeme = .closeParen :: w) :
    ∃ r, Readers.close start ts = .ok r ∧ r.map Token.lexeme = w := by
  obtain ⟨t, us, rfl, ht, hus⟩ := cons_of_map h
  exact ⟨us, by simp [Readers.close, ht], hus⟩

lemma closesAtOnce_eq_false {l : Lexeme} (h : ts.map Token.lexeme = l :: w)
    (hl : startsOperand l = true) : Parse.closesAtOnce ts = false := by
  obtain ⟨t, us, rfl, rfl, -⟩ := cons_of_map h
  simp only [Parse.closesAtOnce, beq_eq_false_iff_ne]
  rintro hc
  simp [hc, startsOperand] at hl

lemma tooDeep_none (depth : ℕ) : Parse.tooDeep none depth = none := rfl

mutual

theorem chain_complete : {tier : Tier} → (c : Chain tier) → (depth : ℕ) → (ts : List Token) →
    (w : List Lexeme) → ts.map Token.lexeme = c.lexemes ++ w → Ends tier w →
    Reads (Readers.chain stop none tier depth ts) c.tree w
  | _, .mk first more, depth, ts, w, h, hw => by
    rw [Chain.lexemes, List.append_assoc] at h
    obtain ⟨r, hr, hrw⟩ := link_complete first depth ts _ h (more.linkEnds hw)
    rw [Readers.chain_eq, hr]
    exact links_complete more depth first.tree r w hrw hw
termination_by structural _ c => c

theorem links_complete : {tier : Tier} → (m : Links tier) → (depth : ℕ) → (left : Operand) →
    (ts : List Token) → (w : List Lexeme) → ts.map Token.lexeme = m.lexemes ++ w →
    Ends tier w → Reads (Readers.chainFrom stop none tier depth left ts) (m.after left) w
  | _, .nil, depth, left, ts, w, h, hw => by
    rw [Links.lexemes, List.nil_append] at h
    exact ⟨ts, chainFrom_of_ends stop (h ▸ hw), h⟩
  | _, .cons op joins next more, depth, left, ts, w, h, hw => by
    rw [Links.lexemes, List.cons_append, List.append_assoc] at h
    obtain ⟨t, us, rfl, ht, hus⟩ := cons_of_map h
    obtain ⟨r, hr, hrw⟩ := link_complete next depth us _ hus (more.linkEnds hw)
    rw [Readers.chainFrom_cons, ht]
    simp only [joins, if_true, hr]
    exact links_complete more depth _ r w hrw hw
termination_by structural _ m => m

theorem link_complete : {tier : Tier} → (l : Link tier) → (depth : ℕ) → (ts : List Token) →
    (w : List Lexeme) → ts.map Token.lexeme = l.lexemes ++ w → LinkEnds tier w →
    Reads (Readers.link stop none tier depth ts) l.tree w
  | _, .product c, depth, ts, w, h, hw => by
    rw [Readers.link_sum]
    exact chain_complete c depth ts w h hw
  | _, .operand a, depth, ts, w, h, _ => by
    rw [Readers.link_product]
    exact atom_complete a depth ts w h
termination_by structural _ l => l

theorem atom_complete : (a : Atom) → (depth : ℕ) → (ts : List Token) → (w : List Lexeme) →
    ts.map Token.lexeme = a.lexemes ++ w →
    Reads (Readers.operand stop none depth ts) a.tree w
  | .path p, depth, ts, w, h => by
    obtain ⟨t, us, rfl, ht, hus⟩ := cons_of_map h
    rw [Readers.operand_cons, ht]
    simp only [Path.read_text]
    exact ⟨us, rfl, hus⟩
  | .literal l, depth, ts, w, h => by
    obtain ⟨t, us, rfl, ht, hus⟩ := cons_of_map h
    rw [Readers.operand_cons, ht]
    exact ⟨us, rfl, hus⟩
  | .paren c, depth, ts, w, h => by
    rw [Atom.lexemes, List.cons_append, List.append_assoc] at h
    obtain ⟨t, us, rfl, ht, hus⟩ := cons_of_map h
    obtain ⟨l, u, hl, hs⟩ := exists_head_sum c
    have hclose : Parse.closesAtOnce us = false :=
      closesAtOnce_eq_false (by rw [hus, hl, List.cons_append]) hs
    obtain ⟨r, hr, hrw⟩ :=
      chain_complete c (depth + 1) us _ hus (by simp [Ends, continues])
    obtain ⟨r', hr', hrw'⟩ := close_complete t.offset hrw
    rw [Readers.operand_cons, ht]
    simp only [tooDeep_none, hclose, Bool.false_eq_true, if_false, hr, hr', Except.map]
    exact ⟨r', rfl, hrw'⟩
termination_by structural a => a

end

/-! ### Conditions -/

lemma literals_complete (ls : List Literal) (hne : ls ≠ [])
    (h : ts.map Token.lexeme = itemLexemes ls ++ .closeBracket :: w) :
    Reads (Readers.literals stop start ts) ls w := by
  induction ls generalizing ts with
  | nil => exact absurd rfl hne
  | cons l ls ih =>
    cases ls with
    | nil =>
      obtain ⟨t, us, rfl, ht, hus⟩ := cons_of_map h
      obtain ⟨u, vs, rfl, hu, hvs⟩ := cons_of_map hus
      rw [Readers.literals_cons, ht]
      simp only [hu]
      exact ⟨vs, rfl, hvs⟩
    | cons m ls =>
      obtain ⟨t, us, rfl, ht, hus⟩ := cons_of_map h
      obtain ⟨u, vs, rfl, hu, hvs⟩ := cons_of_map hus
      obtain ⟨r, hr, hrw⟩ := ih (by simp) hvs
      rw [Readers.literals_cons, ht]
      simp only [hu, hr]
      exact ⟨r, rfl, hrw⟩

lemma listLiteral_complete (ls : List Literal)
    (h : ts.map Token.lexeme = itemLexemes ls ++ .closeBracket :: w) :
    Reads (Readers.listLiteral stop start ts) ls w := by
  cases ls with
  | nil =>
    obtain ⟨t, us, rfl, ht, hus⟩ := cons_of_map h
    rw [Readers.listLiteral_cons, if_pos ht]
    exact ⟨us, rfl, hus⟩
  | cons l ls =>
    have hr := literals_complete stop start (l :: ls) (by simp) h
    have hhead : ∃ v, itemLexemes (l :: ls) = .literal l :: v := by
      cases ls <;> exact ⟨_, rfl⟩
    obtain ⟨v, hv⟩ := hhead
    rw [hv, List.cons_append] at h
    obtain ⟨t, us, rfl, ht, -⟩ := cons_of_map h
    rw [Readers.listLiteral_cons, if_neg (by simp [ht])]
    exact hr

theorem test_complete (depth : ℕ) (t : Test) (h : ts.map Token.lexeme = t.lexemes ++ w)
    (hw : Ends .sum w) : Reads (Readers.predicate stop none depth ts) t.tree w := by
  obtain ⟨subject, clause⟩ := t
  rw [Test.lexemes, List.append_assoc] at h
  obtain ⟨r, hr, hrw⟩ := chain_complete stop subject depth ts _ h (clause.ends w)
  rw [Readers.predicate_eq, hr]
  cases clause with
  | comparison op right =>
    rw [Clause.lexemes, List.cons_append] at hrw
    obtain ⟨t, us, rfl, ht, hus⟩ := cons_of_map hrw
    obtain ⟨r', hr', hrw'⟩ := chain_complete stop right depth us w hus hw
    simp only [ht, hr', Except.map]
    exact ⟨r', rfl, hrw'⟩
  | predicate verb argument =>
    rw [Clause.lexemes, List.cons_append] at hrw
    obtain ⟨t, us, rfl, ht, hus⟩ := cons_of_map hrw
    obtain ⟨r', hr', hrw'⟩ := chain_complete stop argument depth us w hus hw
    obtain ⟨l, v, hv, hl⟩ := exists_head_sum argument
    rw [hv, List.cons_append] at hus
    obtain ⟨u, vs, rfl, hu, -⟩ := cons_of_map hus
    have hbracket : ¬u.lexeme = .openBracket := by
      rintro hc
      rw [← hu, hc] at hl
      simp [startsOperand] at hl
    simp only [ht, Readers.argument_cons, if_neg hbracket, hr', Except.map]
    exact ⟨r', rfl, hrw'⟩
  | listed verb membership items =>
    rw [Clause.lexemes, List.cons_append, List.cons_append, List.append_assoc] at hrw
    obtain ⟨t, us, rfl, ht, hus⟩ := cons_of_map hrw
    obtain ⟨u, vs, rfl, hu, hvs⟩ := cons_of_map hus
    obtain ⟨r', hr', hrw'⟩ := listLiteral_complete stop u.offset items hvs
    simp only [ht, Readers.argument_cons, hu, if_true, membership, hr', Except.map]
    exact ⟨r', rfl, hrw'⟩

lemma terms_of_ends (h : GroupEnds (ts.map Token.lexeme)) :
    Readers.terms stop none depth op ts = .ok ([], ts) := by
  rcases ts with _ | ⟨t, us⟩
  · exact Readers.terms_nil
  · have ht : t.lexeme = .closeParen := h _ rfl
    rw [Readers.terms_cons, ht]

lemma terms_cons_complete {first : Rule} {rest : List Rule} {t : Token} {r : List Token}
    (ht : t.lexeme = .connective op) (hf : Readers.term stop none depth us = .ok (first, r))
    (hr : Reads (Readers.terms stop none depth op r) rest w) :
    Reads (Readers.terms stop none depth op (t :: us)) (first :: rest) w := by
  obtain ⟨r', hr', hrw⟩ := hr
  rw [Readers.terms_cons, ht]
  simp only [if_true, hf, hr', Except.map]
  exact ⟨r', rfl, hrw⟩

mutual

theorem group_complete : (g : Group) → (depth : ℕ) → (ts : List Token) → (w : List Lexeme) →
    ts.map Token.lexeme = g.lexemes ++ w → GroupEnds w →
    Reads (Readers.group stop none depth ts) g.tree w
  | .single t, depth, ts, w, h, hw => by
    obtain ⟨r, hr, hrw⟩ := term_complete t depth ts w h hw.not_follows
    rw [Readers.group_eq, hr]
    rcases r with _ | ⟨u, us⟩
    · exact ⟨[], rfl, hrw⟩
    · have hu : u.lexeme = .closeParen := by
        rw [← hrw] at hw
        exact hw _ rfl
      simp only [hu]
      exact ⟨u :: us, rfl, hrw⟩
  | .joined op first second more, depth, ts, w, h, hw => by
    rw [Group.lexemes, List.append_assoc, List.cons_append, List.append_assoc] at h
    obtain ⟨r, hr, hrw⟩ := term_complete first depth ts _ h rfl
    obtain ⟨t, us, rfl, ht, hus⟩ := cons_of_map hrw
    obtain ⟨r₁, hr₁, hrw₁⟩ :=
      term_complete second depth us _ hus (more_not_follows op more hw)
    obtain ⟨r₂, hr₂, hrw₂⟩ :=
      terms_cons_complete stop ht hr₁ (more_complete op more depth r₁ w hrw₁ hw)
    rw [Readers.group_eq, hr]
    simp only [ht, hr₂, Except.map]
    exact ⟨r₂, rfl, hrw₂⟩
termination_by structural g => g

theorem term_complete : (t : Term) → (depth : ℕ) → (ts : List Token) → (w : List Lexeme) →
    ts.map Token.lexeme = t.lexemes ++ w → w.head?.any (·.followsOperand) = false →
    Reads (Readers.term stop none depth ts) t.tree w
  | .paren g, depth, ts, w, h, hw => by
    rw [Term.lexemes, List.cons_append, List.append_assoc] at h
    obtain ⟨t, us, rfl, ht, hus⟩ := cons_of_map h
    obtain ⟨l, u, hl, hs⟩ := g.exists_head
    have hclose : Parse.closesAtOnce us = false :=
      closesAtOnce_eq_false (by rw [hus, hl, List.cons_append]) hs
    have hopens : Parse.opensOperand 0 us = false := by
      rw [opensOperand_eq, hus]
      exact (opens_wrapped g.balanced w).trans hw
    obtain ⟨r, hr, hrw⟩ := group_complete g (depth + 1) us _ hus (by simp [GroupEnds])
    obtain ⟨r', hr', hrw'⟩ := close_complete t.offset hrw
    rw [Readers.term_cons, if_pos ⟨ht, hopens⟩]
    simp only [tooDeep_none, hclose, Bool.false_eq_true, if_false, hr, hr', Except.map]
    exact ⟨r', rfl, hrw'⟩
  | .test t, depth, ts, w, h, hw => by
    have hr := test_complete stop depth t h (.of_not_follows hw)
    obtain ⟨l, u, hl, -⟩ := t.exists_head
    rw [Term.lexemes, hl, List.cons_append] at h
    obtain ⟨t', us, rfl, ht', hus⟩ := cons_of_map h
    have hterm : ¬(t'.lexeme = .openParen ∧ Parse.opensOperand 0 us = false) := by
      rintro ⟨ho, hn⟩
      rw [ht'] at ho
      subst ho
      rw [opensOperand_eq, hus, opens_test t hl] at hn
      simp at hn
    rw [Readers.term_cons, if_neg hterm]
    exact hr
termination_by structural t => t

theorem more_complete (op : Connective) : (more : List Term) → (depth : ℕ) →
    (ts : List Token) → (w : List Lexeme) → ts.map Token.lexeme = Term.moreLexemes op more ++ w →
    GroupEnds w → Reads (Readers.terms stop none depth op ts) (Term.trees more) w
  | [], depth, ts, w, h, hw => by
    rw [Term.moreLexemes, List.nil_append] at h
    exact ⟨ts, terms_of_ends stop (h ▸ hw), h⟩
  | t :: more, depth, ts, w, h, hw => by
    rw [Term.moreLexemes, List.cons_append, List.append_assoc] at h
    obtain ⟨u, us, rfl, hu, hus⟩ := cons_of_map h
    obtain ⟨r, hr, hrw⟩ := term_complete t depth us _ hus (more_not_follows op more hw)
    exact terms_cons_complete stop hu hr (more_complete op more depth r w hrw hw)
termination_by structural more => more

end

/-- **Completeness**: what the grammar derives is accepted, with the tree of the
derivation. -/
theorem rule_complete (g : Group) (h : g.lexemes = ts.map Token.lexeme) :
    Parse.rule stop none ts = .ok g.tree := by
  obtain ⟨r, hr, hrw⟩ :=
    group_complete stop g 0 ts [] (by rw [← h, List.append_nil]) (by simp [GroupEnds])
  have hr₀ : r = [] := List.map_eq_nil_iff.mp hrw
  subst hr₀
  rcases ts with _ | ⟨t, us⟩
  · have := Readers.length_group hr
    simp at this
  · rw [Readers.rule_cons, hr]

end RecordRules.GrammarComplete
