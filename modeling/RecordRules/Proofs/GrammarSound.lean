import Mathlib.Data.Nat.Basic
import RecordRules.Proofs.Grammar
import RecordRules.Proofs.Readers

/-!
What the parser accepts is derived by the grammar: each reader that succeeds has read the
lexemes of a derivation, and gives the tree of it.
-/

namespace RecordRules.GrammarSound

open Grammar
open Parse (Tier)

variable {stop : ℕ} {limit : Option ℕ} {tier : Tier} {depth start n : ℕ} {ts r : List Token}

/-- The operands read from at most `n` tokens are derived. -/
def OperandsTo (stop : ℕ) (limit : Option ℕ) (n : ℕ) : Prop :=
  ∀ (depth : ℕ) (ts r : List Token) (e : Operand), ts.length ≤ n →
    Readers.operand stop limit depth ts = .ok (e, r) →
    ∃ a : Atom, a.tree = e ∧ ts.map Token.lexeme = a.lexemes ++ r.map Token.lexeme

/-- The links read from at most `n` tokens are derived. -/
def LinksTo (stop : ℕ) (limit : Option ℕ) (tier : Tier) (n : ℕ) : Prop :=
  ∀ (depth : ℕ) (ts r : List Token) (e : Operand), ts.length ≤ n →
    Readers.link stop limit tier depth ts = .ok (e, r) →
    ∃ l : Link tier, l.tree = e ∧ ts.map Token.lexeme = l.lexemes ++ r.map Token.lexeme

lemma chainFrom_sound (hl : LinksTo stop limit tier n) {left e : Operand} (hn : ts.length ≤ n)
    (h : Readers.chainFrom stop limit tier depth left ts = .ok (e, r)) :
    ∃ m : Links tier, m.after left = e ∧
      ts.map Token.lexeme = m.lexemes ++ r.map Token.lexeme := by
  induction k : ts.length using Nat.strongRecOn generalizing ts left with
  | _ k ih =>
    have done (h : (.ok (left, ts) : Except Parse.Fault _) = .ok (e, r)) :
        ∃ m : Links tier, m.after left = e ∧
          ts.map Token.lexeme = m.lexemes ++ r.map Token.lexeme := by
      cases h
      exact ⟨.nil, rfl, rfl⟩
    cases ts with
    | nil => exact done (Readers.chainFrom_nil.symm.trans h)
    | cons t us =>
      simp only [List.length_cons] at hn k
      rw [Readers.chainFrom_cons] at h
      split at h
      · next op hop =>
        split at h
        · next hj =>
          rcases hr : Readers.link stop limit tier depth us with _ | ⟨right, r₁⟩
          · simp [hr] at h
          · simp only [hr] at h
            have hlen := Readers.length_link hr
            obtain ⟨l, rfl, hl₁⟩ := hl depth us r₁ right (by omega) hr
            obtain ⟨m, rfl, hm⟩ := ih r₁.length (by omega) (by omega) h rfl
            refine ⟨.cons op hj l m, rfl, ?_⟩
            simp [Links.lexemes, hop, hl₁, hm]
        · exact done h
      · exact done h

lemma chain_sound_of (hl : LinksTo stop limit tier n) {e : Operand} (hn : ts.length ≤ n)
    (h : Readers.chain stop limit tier depth ts = .ok (e, r)) :
    ∃ c : Chain tier, c.tree = e ∧ ts.map Token.lexeme = c.lexemes ++ r.map Token.lexeme := by
  rw [Readers.chain_eq] at h
  rcases hr : Readers.link stop limit tier depth ts with _ | ⟨left, r₁⟩
  · simp [hr] at h
  · simp only [hr] at h
    have hlen := Readers.length_link hr
    obtain ⟨l, rfl, hl₁⟩ := hl depth ts r₁ left hn hr
    obtain ⟨m, rfl, hm⟩ := chainFrom_sound hl (by omega) h
    exact ⟨.mk l m, rfl, by simp [Chain.lexemes, hl₁, hm]⟩

lemma products_of_operands (ho : OperandsTo stop limit n) : LinksTo stop limit .product n := by
  intro depth ts r e hn h
  rw [Readers.link_product] at h
  obtain ⟨a, rfl, ha⟩ := ho depth ts r e hn h
  exact ⟨.operand a, rfl, ha⟩

lemma sums_of_operands (ho : OperandsTo stop limit n) : LinksTo stop limit .sum n := by
  intro depth ts r e hn h
  rw [Readers.link_sum] at h
  obtain ⟨c, rfl, hc⟩ := chain_sound_of (products_of_operands ho) hn h
  exact ⟨.product c, rfl, hc⟩

lemma close_sound (h : Readers.close start ts = .ok r) :
    ts.map Token.lexeme = .closeParen :: r.map Token.lexeme := by
  cases ts with
  | nil => simp [Readers.close] at h
  | cons t us =>
    simp only [Readers.close] at h
    split at h
    · next ht =>
      cases h
      simp [ht]
    · simp at h

lemma operands_sound (n : ℕ) : OperandsTo stop limit n := by
  induction n with
  | zero =>
    intro depth ts r e hn h
    have : ts = [] := List.length_eq_zero_iff.mp (by omega)
    subst this
    simp [Readers.operand_nil] at h
  | succ n ih =>
    intro depth ts r e hn h
    rcases ts with _ | ⟨t, us⟩
    · simp [Readers.operand_nil] at h
    rw [List.length_cons] at hn
    rw [Readers.operand_cons] at h
    split at h
    · next text ht =>
      rcases hp : Path.read text with _ | p
      · simp [hp] at h
      · simp only [hp, Except.ok.injEq, Prod.mk.injEq] at h
        obtain ⟨rfl, rfl⟩ := h
        exact ⟨.path p, rfl, by simp [Atom.lexemes, ht, Path.text_of_read hp]⟩
    · next l ht =>
      cases h
      exact ⟨.literal l, rfl, by simp [Atom.lexemes, ht]⟩
    · next ht =>
      split at h
      · simp at h
      · split at h
        · simp at h
        · rcases hc : Readers.chain stop limit .sum (depth + 1) us with _ | ⟨e', r₁⟩
          · simp [hc] at h
          · simp only [hc] at h
            obtain ⟨c, rfl, hc₁⟩ := chain_sound_of (sums_of_operands ih) (by omega) hc
            obtain ⟨r₂, hr, heq⟩ := Readers.exists_of_map h
            cases heq
            exact ⟨.paren c, rfl, by simp [Atom.lexemes, ht, hc₁, close_sound hr]⟩
    · simp at h

lemma chain_sound {e : Operand} (h : Readers.chain stop limit .sum depth ts = .ok (e, r)) :
    ∃ c : Chain .sum, c.tree = e ∧ ts.map Token.lexeme = c.lexemes ++ r.map Token.lexeme :=
  chain_sound_of (sums_of_operands (operands_sound ts.length)) le_rfl h

/-! ### Conditions -/

lemma itemLexemes_cons (l : Literal) {ls : List Literal} (h : ls ≠ []) :
    itemLexemes (l :: ls) = .literal l :: .comma :: itemLexemes ls := by
  cases ls with
  | nil => exact absurd rfl h
  | cons m ms => rfl

lemma literals_sound {ls : List Literal} (h : Readers.literals stop start ts = .ok (ls, r)) :
    ls ≠ [] ∧ ts.map Token.lexeme = itemLexemes ls ++ .closeBracket :: r.map Token.lexeme := by
  induction k : ts.length using Nat.strongRecOn generalizing ts ls with
  | _ k ih =>
    rcases ts with _ | ⟨t, us⟩
    · simp [Readers.literals_nil] at h
    rw [Readers.literals_cons] at h
    split at h
    · next l ht =>
      rcases us with _ | ⟨u, vs⟩
      · simp at h
      simp only [List.length_cons] at k
      simp only at h
      split at h
      · next hu =>
        rcases hl : Readers.literals stop start vs with _ | ⟨ms, r₁⟩
        · simp [hl] at h
        · simp only [hl, Except.ok.injEq, Prod.mk.injEq] at h
          obtain ⟨rfl, rfl⟩ := h
          obtain ⟨hne, hm⟩ := ih vs.length (by omega) hl rfl
          refine ⟨by simp, ?_⟩
          rw [itemLexemes_cons l hne]
          simp [ht, hu, hm]
      · next hu =>
        cases h
        exact ⟨by simp, by simp [itemLexemes, ht, hu]⟩
      · simp at h
    · simp at h

lemma listLiteral_sound {ls : List Literal}
    (h : Readers.listLiteral stop start ts = .ok (ls, r)) :
    ts.map Token.lexeme = itemLexemes ls ++ .closeBracket :: r.map Token.lexeme := by
  rcases ts with _ | ⟨t, us⟩
  · cases h
  rw [Readers.listLiteral_cons] at h
  split at h
  · next ht =>
    cases h
    simp [itemLexemes, ht]
  · exact (literals_sound h).2

/-- The argument of a verb is the clause of it, whatever the subject before it. -/
lemma argument_sound {verb : Verb} {a : Argument}
    (h : Readers.argument stop limit depth verb ts = .ok (a, r)) :
    ∃ c : Clause, (∀ e, c.tree e = .predicate e verb a) ∧
      .verb verb :: ts.map Token.lexeme = c.lexemes ++ r.map Token.lexeme := by
  rcases ts with _ | ⟨u, vs⟩
  · rw [Readers.argument_nil] at h
    cases h
  rw [Readers.argument_cons] at h
  split at h
  · next hu =>
    split at h
    · next hm =>
      obtain ⟨x, hr, heq⟩ := Readers.exists_of_map h
      cases heq
      refine ⟨.listed verb hm x.1, fun _ => rfl, ?_⟩
      simp [Clause.lexemes, hu, listLiteral_sound hr]
    · cases h
  · obtain ⟨x, hr, heq⟩ := Readers.exists_of_map h
    cases heq
    obtain ⟨right, hright, hx⟩ := chain_sound hr
    refine ⟨.predicate verb right, fun e => ?_, by simp [Clause.lexemes, hx]⟩
    rw [Clause.tree, hright]

lemma predicate_sound {rule : Rule} (h : Readers.predicate stop limit depth ts = .ok (rule, r)) :
    ∃ t : Test, t.tree = rule ∧ ts.map Token.lexeme = t.lexemes ++ r.map Token.lexeme := by
  rw [Readers.predicate_eq] at h
  rcases hc : Readers.chain stop limit .sum depth ts with _ | ⟨e, _ | ⟨t, us⟩⟩
  · simp [hc] at h
  · simp [hc] at h
  simp only [hc] at h
  obtain ⟨left, rfl, hleft⟩ := chain_sound hc
  split at h
  · next op hop =>
    obtain ⟨x, hr, heq⟩ := Readers.exists_of_map h
    cases heq
    obtain ⟨right, hright, hx⟩ := chain_sound hr
    refine ⟨⟨left, .comparison op right⟩, by simp [Test.tree, Clause.tree, hright], ?_⟩
    simp [Test.lexemes, Clause.lexemes, hleft, hop, hx]
  · next verb hverb =>
    obtain ⟨x, hr, heq⟩ := Readers.exists_of_map h
    cases heq
    obtain ⟨c, hc, hx⟩ := argument_sound hr
    exact ⟨⟨left, c⟩, hc left.tree, by simp [Test.lexemes, hleft, hverb, ← hx]⟩
  · simp at h
  · simp at h

/-- The terms read from at most `n` tokens are derived. -/
def TermsTo (stop : ℕ) (limit : Option ℕ) (n : ℕ) : Prop :=
  ∀ (depth : ℕ) (ts r : List Token) (rule : Rule), ts.length ≤ n →
    Readers.term stop limit depth ts = .ok (rule, r) →
    ∃ t : Term, t.tree = rule ∧ ts.map Token.lexeme = t.lexemes ++ r.map Token.lexeme

lemma terms_sound (ht : TermsTo stop limit n) {op : Connective} {rules : List Rule}
    (hn : ts.length ≤ n) (h : Readers.terms stop limit depth op ts = .ok (rules, r)) :
    ∃ more : List Term, Term.trees more = rules ∧
      ts.map Token.lexeme = Term.moreLexemes op more ++ r.map Token.lexeme := by
  induction k : ts.length using Nat.strongRecOn generalizing ts rules with
  | _ k ih =>
    have done (h : (.ok ([], ts) : Except Parse.Fault _) = .ok (rules, r)) :
        ∃ more : List Term, Term.trees more = rules ∧
          ts.map Token.lexeme = Term.moreLexemes op more ++ r.map Token.lexeme := by
      cases h
      exact ⟨[], rfl, rfl⟩
    rcases ts with _ | ⟨t, us⟩
    · exact done (Readers.terms_nil.symm.trans h)
    simp only [List.length_cons] at hn k
    rw [Readers.terms_cons] at h
    split at h
    · next op' hop =>
      split at h
      · next heq =>
        subst heq
        rcases hr : Readers.term stop limit depth us with _ | ⟨first, r₁⟩
        · simp [hr] at h
        simp only [hr] at h
        have hlen := Readers.length_term hr
        obtain ⟨⟨rest, r₂⟩, hs, heq⟩ := Readers.exists_of_map h
        cases heq
        obtain ⟨d, rfl, hd⟩ := ht depth us r₁ first (by omega) hr
        obtain ⟨more, rfl, hm⟩ := ih r₁.length (by omega) (by omega) hs rfl
        exact ⟨d :: more, rfl, by simp [Term.moreLexemes, hop, hd, hm]⟩
      · simp at h
    · exact done h

lemma group_sound_of (ht : TermsTo stop limit n) {rule : Rule} (hn : ts.length ≤ n)
    (h : Readers.group stop limit depth ts = .ok (rule, r)) :
    ∃ g : Group, g.tree = rule ∧ ts.map Token.lexeme = g.lexemes ++ r.map Token.lexeme := by
  rw [Readers.group_eq] at h
  rcases hf : Readers.term stop limit depth ts with _ | ⟨first, us⟩
  · simp [hf] at h
  simp only [hf] at h
  have hlen := Readers.length_term hf
  obtain ⟨d, rfl, hd⟩ := ht depth ts us first hn hf
  have single (h : (.ok (d.tree, us) : Except Parse.Fault _) = .ok (rule, r)) :
      ∃ g : Group, g.tree = rule ∧ ts.map Token.lexeme = g.lexemes ++ r.map Token.lexeme := by
    cases h
    exact ⟨.single d, rfl, hd⟩
  rcases us with _ | ⟨t, vs⟩
  · exact single h
  simp only at h
  split at h
  · next op hop =>
    obtain ⟨⟨rest, r₁⟩, hs, heq⟩ := Readers.exists_of_map h
    cases heq
    obtain ⟨more, rfl, hm⟩ := terms_sound ht (by omega) hs
    -- the connective has been seen, so that a second term follows
    rcases more with _ | ⟨second, more⟩
    · rw [Readers.terms_cons, hop] at hs
      simp only [if_true] at hs
      rcases hq : Readers.term stop limit depth vs with _ | ⟨x, r₂⟩
      · simp [hq] at hs
      · rcases hw : Readers.terms stop limit depth op r₂ with _ | ⟨y, r₃⟩ <;>
          simp [hq, hw, Except.map, Term.trees] at hs
    · refine ⟨.joined op d second more, rfl, ?_⟩
      rw [hd, hm]
      simp [Group.lexemes, Term.moreLexemes]
  · exact single h

lemma terms_to (n : ℕ) : TermsTo stop limit n := by
  induction n with
  | zero =>
    intro depth ts r rule hn h
    have := Readers.length_term h
    omega
  | succ n ih =>
    intro depth ts r rule hn h
    have test (h : Readers.predicate stop limit depth ts = .ok (rule, r)) :
        ∃ t : Term, t.tree = rule ∧ ts.map Token.lexeme = t.lexemes ++ r.map Token.lexeme := by
      obtain ⟨t, rfl, ht⟩ := predicate_sound h
      exact ⟨.test t, rfl, ht⟩
    rcases ts with _ | ⟨t, us⟩
    · exact test (Readers.term_nil.symm.trans h)
    rw [List.length_cons] at hn
    rw [Readers.term_cons] at h
    split at h
    · next hopen =>
      split at h
      · simp at h
      split at h
      · simp at h
      rcases hg : Readers.group stop limit (depth + 1) us with _ | ⟨rule', r₁⟩
      · simp [hg] at h
      simp only [hg] at h
      obtain ⟨g, rfl, hg₁⟩ := group_sound_of ih (by omega) hg
      obtain ⟨r₂, hr, heq⟩ := Readers.exists_of_map h
      cases heq
      exact ⟨.paren g, rfl, by simp [Term.lexemes, hopen.1, hg₁, close_sound hr]⟩
    · exact test h

/-- **Soundness**: what the parser accepts is derived, and it gives the tree of the
derivation. -/
theorem rule_sound {rule : Rule} (h : Parse.rule stop limit ts = .ok rule) :
    ∃ g : Group, g.lexemes = ts.map Token.lexeme ∧ g.tree = rule := by
  rcases ts with _ | ⟨t, us⟩
  · simp [Parse.rule] at h
  rw [Readers.rule_cons] at h
  rcases hg : Readers.group stop limit 0 (t :: us) with _ | ⟨rule', _ | ⟨u, vs⟩⟩
  · simp [hg] at h
  · simp only [hg, Except.ok.injEq] at h
    subst h
    obtain ⟨g, rfl, hg₁⟩ := group_sound_of (terms_to _) le_rfl hg
    exact ⟨g, by simpa using hg₁.symm, rfl⟩
  · simp only [hg] at h
    split at h <;> simp at h

end RecordRules.GrammarSound
