import RecordRules.Proofs.GrammarComplete
import RecordRules.Proofs.Numerals
import RecordRules.Proofs.Words
import RecordRules.Rule.Text

/-!
The derivation behind the canonical text of a rule. Each arithmetic expression is derived as
a chain of two links in parentheses and each group as a group in parentheses, which is how
they are printed; so the scan of the text gives the lexemes of that derivation.
-/

namespace RecordRules.Canonical

open Grammar Token

/-- A text that scans to these lexemes where an operand may begin, before anything that is
printed after an operand. -/
def Prints (cs : List Char) (ls : List Lexeme) : Prop :=
  ∀ rest w, Closed rest → Scans true rest w → Scans false (cs ++ rest) (ls ++ w)

lemma prints_literal {l : Literal} (h : l.WellFormed) : Prints l.text [.literal l] := by
  intro rest w hc hs
  cases l with
  | str s => exact .str s hs
  | int i => exact .int i hc hs
  | float x => exact .float h hc hs
  | bool t => exact .bool t hc hs

/-! ### Operands -/

/-- A single operand as a sum. -/
def alone (a : Atom) : Chain .sum := .mk (.product (.mk (.operand a) .nil)) .nil

/-- Two operands and the operator between them. -/
def pair (a : Atom) (op : Arithmetic) (b : Atom) : Chain .sum :=
  if h : op.isMultiplicative = true then
    .mk (.product (.mk (.operand a) (.cons op h (.operand b) .nil))) .nil
  else
    .mk (.product (.mk (.operand a) .nil))
      (.cons op (by simpa [Parse.Tier.joins] using h) (.product (.mk (.operand b) .nil)) .nil)

lemma alone_lexemes (a : Atom) : (alone a).lexemes = a.lexemes := by
  simp [alone, Chain.lexemes, Links.lexemes, Link.lexemes]

lemma alone_tree (a : Atom) : (alone a).tree = a.tree := rfl

lemma pair_lexemes (a : Atom) (op : Arithmetic) (b : Atom) :
    (pair a op b).lexemes = a.lexemes ++ .arithmetic op :: b.lexemes := by
  unfold pair
  split <;> simp [Chain.lexemes, Links.lexemes, Link.lexemes]

lemma pair_tree (a : Atom) (op : Arithmetic) (b : Atom) :
    (pair a op b).tree = .arithmetic a.tree op b.tree := by
  unfold pair
  split <;> rfl

/-- The derivation of the text of an operand. -/
def atom : Operand → Atom
  | .path p => .path p
  | .literal l => .literal l
  | .arithmetic left op right => .paren (pair (atom left) op (atom right))

lemma atom_tree (e : Operand) : (atom e).tree = e := by
  induction e with
  | path p => rfl
  | literal l => rfl
  | arithmetic left op right ihl ihr =>
    change (pair (atom left) op (atom right)).tree = _
    rw [pair_tree, ihl, ihr]

lemma prints_operand {e : Operand} (h : e.WellFormed) : Prints e.chars (atom e).lexemes := by
  induction e with
  | path p => exact fun rest w hc hs => .path h hc hs
  | literal l => exact prints_literal h
  | arithmetic left op right ihl ihr =>
    intro rest w hc hs
    have hclose : Scans true (')' :: rest) (.closeParen :: w) := .mark (by simp [marks]) hs
    have hr := ihr h.2 _ _ (.cons (by simp) rest) hclose
    have hop := Scans.arithmetic (b := true) op hr
    have hl := ihl h.1 _ _ (.cons (by simp) _) hop.space
    have hopen := Scans.mark (b := false) (c := '(') (l := .openParen) (by simp [marks]) hl
    simpa [Operand.chars, atom, Atom.lexemes, pair_lexemes] using hopen

/-! ### Tests -/

lemma prints_items {items : List Literal} (h : ∀ l ∈ items, l.WellFormed) {rest : List Char}
    {w : List Lexeme} (hs : Scans true rest w) :
    Scans false (Literal.listChars items ++ ']' :: rest)
      (itemLexemes items ++ .closeBracket :: w) := by
  have hclose (b : Bool) : Scans b (']' :: rest) (.closeBracket :: w) := .mark (by simp [marks]) hs
  fun_induction itemLexemes items with
  | case1 => exact hclose false
  | case2 l =>
    exact prints_literal (h l List.mem_cons_self) _ _ (.cons (by simp) rest) (hclose true)
  | case3 l ls hne ih =>
    rw [List.forall_mem_cons] at h
    have htail := (ih h.2).space
    have hcomma := Scans.mark (b := true) (c := ',') (l := .comma) (by simp [marks]) htail
    have hl := prints_literal h.1 _ _ (.cons (by simp) _) hcomma
    rw [Literal.listChars]
    · simpa using hl
    · exact hne

lemma prints_comparison {left right : Operand} (hl : left.WellFormed) (hr : right.WellFormed)
    (op : Relation) :
    Prints (Rule.comparison left op right).chars
      (Test.mk (alone (atom left)) (.comparison op (alone (atom right)))).lexemes := by
  intro rest w hc hs
  have hop := Scans.relation (b := true) op (prints_operand hr rest w hc hs)
  have hl := prints_operand hl _ _ (.cons (by simp) _) hop.space
  simpa [Rule.chars, Test.lexemes, Clause.lexemes, alone_lexemes] using hl

lemma prints_predicate {subject argument : Operand} (hs : subject.WellFormed)
    (ha : argument.WellFormed) (v : Verb) :
    Prints (Rule.predicate subject v (.operand argument)).chars
      (Test.mk (alone (atom subject)) (.predicate v (alone (atom argument)))).lexemes := by
  intro rest w hc hw
  have hv := Scans.verb (b := true) v (prints_operand ha rest w hc hw)
  have hs := prints_operand hs _ _ (.cons (by simp) _) hv.space
  simpa [Rule.chars, Argument.chars, Test.lexemes, Clause.lexemes, alone_lexemes] using hs

lemma prints_listed {subject : Operand} {items : List Literal} {v : Verb}
    (hs : subject.WellFormed) (hi : ∀ l ∈ items, l.WellFormed) (hv : v.isMembership = true) :
    Prints (Rule.predicate subject v (.list items)).chars
      (Test.mk (alone (atom subject)) (.listed v hv items)).lexemes := by
  intro rest w hc hw
  have hopen := Scans.mark (b := false) (c := '[') (l := .openBracket) (by simp [marks])
    (prints_items hi hw)
  have hv := Scans.verb (b := true) v hopen
  have hs := prints_operand hs _ _ (.cons (by simp) _) hv.space
  simpa [Rule.chars, Argument.chars, Test.lexemes, Clause.lexemes, alone_lexemes] using hs

/-! ### Rules -/

lemma closed_more (op : Connective) (rs : List Rule) {rest : List Char} (hc : Closed rest) :
    Closed (Rule.moreChars op rs ++ rest) := by
  cases rs with
  | nil => exact hc
  | cons r rs =>
    rw [Rule.moreChars, List.cons_append, List.cons_append, List.cons_append]
    exact .cons (by simp) _

mutual

/-- A well-formed rule is the tree of a term that its text scans to. -/
theorem exists_term (r : Rule) (h : r.WellFormed) :
    ∃ t : Term, t.tree = r ∧ Prints r.chars t.lexemes := by
  cases r with
  | comparison left op right =>
    refine ⟨.test ⟨alone (atom left), .comparison op (alone (atom right))⟩, ?_, ?_⟩
    · simp only [Term.tree, Test.tree, Clause.tree, alone_tree, atom_tree]
    · exact prints_comparison h.1 h.2 op
  | predicate subject v argument =>
    cases argument with
    | operand e =>
      refine ⟨.test ⟨alone (atom subject), .predicate v (alone (atom e))⟩, ?_, ?_⟩
      · simp only [Term.tree, Test.tree, Clause.tree, alone_tree, atom_tree]
      · exact prints_predicate h.1 h.2 v
    | list items =>
      refine ⟨.test ⟨alone (atom subject), .listed v h.2.1 items⟩, ?_, ?_⟩
      · simp only [Term.tree, Test.tree, Clause.tree, alone_tree, atom_tree]
      · exact prints_listed h.1 h.2.2 h.2.1
  | group op children =>
    match children, h with
    | r₁ :: r₂ :: rs, ⟨_, h₁, h₂, hs⟩ =>
      obtain ⟨t₁, rfl, p₁⟩ := exists_term r₁ h₁
      obtain ⟨t₂, rfl, p₂⟩ := exists_term r₂ h₂
      obtain ⟨ts, rfl, ps⟩ := exists_terms op rs hs
      refine ⟨.paren (.joined op t₁ t₂ ts), rfl, fun rest w hc hw => ?_⟩
      have hclose : Scans true (')' :: rest) (.closeParen :: w) := .mark (by simp [marks]) hw
      have hmore := ps _ _ (.cons (by simp) rest) hclose
      have h₂ := p₂ _ _ (closed_more op _ (.cons (by simp) rest)) hmore
      have hop := Scans.connective (b := true) op h₂
      have h₁ := p₁ _ _ (.cons (by simp) _) hop.space
      have hopen := Scans.mark (b := false) (c := '(') (l := .openParen) (by simp [marks]) h₁
      simpa [Rule.chars, Rule.childChars, Rule.moreChars, Term.lexemes, Group.lexemes] using hopen
    | [_], ⟨hlen, _⟩ => simp at hlen
    | [], ⟨hlen, _⟩ => simp at hlen
termination_by structural r

theorem exists_terms (op : Connective) (rs : List Rule) (h : Rule.ChildrenWellFormed rs) :
    ∃ ts : List Term, Term.trees ts = rs ∧ ∀ rest w, Closed rest → Scans true rest w →
      Scans true (Rule.moreChars op rs ++ rest) (Term.moreLexemes op ts ++ w) := by
  cases rs with
  | nil => exact ⟨[], rfl, fun rest w _ hw => hw⟩
  | cons r rs =>
    obtain ⟨t, rfl, p⟩ := exists_term r h.1
    obtain ⟨ts, rfl, ps⟩ := exists_terms op rs h.2
    refine ⟨t :: ts, rfl, fun rest w hc hw => ?_⟩
    have ht := p _ _ (closed_more op _ hc) (ps rest w hc hw)
    have hop := Scans.connective (b := true) op ht
    simpa [Rule.moreChars, Term.moreLexemes] using hop.space
termination_by structural rs

end

end RecordRules.Canonical
