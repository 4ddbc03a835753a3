import RecordRules.Proofs.Grammar

/-!
The shape of the rules that texts spell: two children and more in each group, lists after
membership verbs alone, finite numbers, and no path with the spelling of a boolean or of a
verb. The scan gives no other lexemes, and no derivation gives another tree.
-/

namespace RecordRules

/-- A text that is a word of its own: neither a boolean nor a verb. -/
def Unreserved (text : String) : Prop :=
  text ≠ "true" ∧ text ≠ "false" ∧ ∀ v : Verb, v.keyword ≠ text

def Literal.WellFormed : Literal → Prop
  | float x => x.isFinite = true
  | _ => True

def Operand.WellFormed : Operand → Prop
  | path p => Unreserved p.text
  | literal l => l.WellFormed
  | arithmetic left _ right => left.WellFormed ∧ right.WellFormed

def Argument.WellFormed (verb : Verb) : Argument → Prop
  | operand e => e.WellFormed
  | list items => verb.isMembership = true ∧ ∀ l ∈ items, l.WellFormed

namespace Rule

mutual

def WellFormed : Rule → Prop
  | .comparison left _ right => left.WellFormed ∧ right.WellFormed
  | .predicate subject verb argument => subject.WellFormed ∧ argument.WellFormed verb
  | .group _ children => 2 ≤ children.length ∧ ChildrenWellFormed children
termination_by structural r => r

def ChildrenWellFormed : List Rule → Prop
  | [] => True
  | r :: rs => WellFormed r ∧ ChildrenWellFormed rs
termination_by structural rs => rs

end

end Rule

def Lexeme.WellFormed : Lexeme → Prop
  | path text => Unreserved text
  | literal l => l.WellFormed
  | _ => True

/-! ### What the scan gives -/

namespace Token

lemma wordLexeme_of_unreserved {text : String} (h : Unreserved text) :
    wordLexeme text = .path text := by
  obtain ⟨ht, hf, hv⟩ := h
  unfold wordLexeme
  rw [if_neg ht, if_neg hf]
  split
  · next v hk => exact absurd (Verb.keyword_of_ofKeyword? hk) (hv v)
  · rfl

lemma wordLexeme_wellFormed (text : String) : (wordLexeme text).WellFormed := by
  unfold wordLexeme
  split
  · trivial
  · next ht =>
    split
    · trivial
    · next hf =>
      split
      · trivial
      · next hk =>
        refine ⟨ht, hf, fun v hv => ?_⟩
        rw [← hv, Verb.ofKeyword?_keyword] at hk
        cases hk

/-- The characters that begin a step of a path. -/
def beginsStep (c : Char) : Bool := c == '.' || c == '['

lemma steps_head {cs t u : List Char} (h : steps cs = .ok (t, u)) :
    t.head?.all beginsStep = true := by
  rw [steps.eq_def] at h
  split at h
  · cases h; rfl
  · split at h
    · split at h
      · cases h; rfl
      · split at h
        · split at h
          · cases h
          · cases h; rfl
        · cases h; rfl
    · split at h
      · split at h
        · cases h
        · cases h
        · split at h
          · cases h
          · cases h; rfl
      · cases h; rfl

lemma unreserved_of_step {cs : List Char} {c : Char} (hc : c ∈ cs) (hs : beginsStep c = true) :
    Unreserved (String.ofList cs) := by
  have other {word : String} (h : word.toList.any beginsStep = false) :
      word ≠ String.ofList cs := by
    rintro rfl
    rw [String.toList_ofList, List.any_eq_false] at h
    exact h c hc hs
  refine ⟨(other (by decide)).symm, (other (by decide)).symm, fun v => other ?_⟩
  have hall : ∀ v ∈ Verb.all, v.keyword.toList.any beginsStep = false := by decide
  exact hall v v.mem_all

lemma word_wellFormed {c : Char} {cs : List Char} {s : Scanned} (h : word c cs = .ok s) :
    s.lexeme.WellFormed := by
  unfold word at h
  dsimp only at h
  split at h
  · cases h
  · cases h
    exact wordLexeme_wellFormed _
  · next t r hne hs =>
    cases h
    cases t with
    | nil => exact (hne rfl).elim
    | cons d t =>
      refine unreserved_of_step (c := d) ?_ (by simpa using steps_head hs)
      exact List.mem_append_right _ List.mem_cons_self

lemma number_wellFormed {c : Char} {cs : List Char} {s : Scanned} (h : number c cs = .ok s) :
    s.lexeme.WellFormed := by
  unfold number at h
  dsimp only at h
  split at h
  · next l hl =>
    cases h
    unfold numberLiteral? at hl
    split at hl
    · split at hl
      · split at hl
        · next x _ hx => cases hl; exact hx
        · cases hl
      · cases hl
    · obtain ⟨i, -, rfl⟩ := Option.map_eq_some_iff.1 hl
      trivial
  · cases h

lemma symbol?_wellFormed {cs : List Char} {s : Scanned} (h : symbol? cs = some s) :
    s.lexeme.WellFormed := by
  obtain ⟨e, he, rfl⟩ := Option.map_eq_some_iff.1 h
  have hm : e ∈ symbols := List.mem_of_find?_eq_some he
  simp only [symbols, List.mem_cons, List.not_mem_nil, or_false] at hm
  rcases hm with rfl | rfl | rfl | rfl | rfl | rfl | rfl | rfl | rfl | rfl | rfl | rfl | rfl |
    rfl | rfl | rfl | rfl | rfl <;> trivial

lemma scanOne_wellFormed {b : Bool} {c : Char} {cs : List Char} {s : Scanned}
    (h : scanOne b c cs = .ok s) : s.lexeme.WellFormed := by
  unfold scanOne at h
  split at h
  · exact number_wellFormed h
  · split at h
    · next hs =>
      cases h
      exact symbol?_wellFormed hs
    · split at h
      · split at h
        · cases h
          trivial
        · cases h
      · split at h
        · exact word_wellFormed h
        · cases h

/-- Every lexeme of a scanned text is well formed. -/
theorem scanFrom_wellFormed {offset : ℕ} {b : Bool} {cs : List Char} {ts : List Token}
    (h : scanFrom offset b cs = .ok ts) : ∀ l ∈ ts.map Token.lexeme, l.WellFormed := by
  fun_induction scanFrom offset b cs generalizing ts with
  | case1 => cases h; simp
  | case2 offset b c r hc ih => exact ih h
  | case3 => cases h
  | case4 => cases h
  | case5 offset b c r hc s hs hlt us hu ih =>
    cases h
    simp only [List.map_cons, List.forall_mem_cons]
    exact ⟨scanOne_wellFormed hs, ih hu⟩

end Token

/-! ### What the derivations stand for -/

namespace Grammar

open Parse (Tier)

mutual

lemma Chain.tree_wellFormed {tier : Tier} :
    (c : Chain tier) → (∀ l ∈ c.lexemes, l.WellFormed) → c.tree.WellFormed
  | .mk first more, h => by
    obtain ⟨hf, hm⟩ := List.forall_mem_append.1 h
    exact more.after_wellFormed (first.tree_wellFormed hf) hm
termination_by structural c => c

lemma Links.after_wellFormed {tier : Tier} {left : Operand} :
    (m : Links tier) → left.WellFormed → (∀ l ∈ m.lexemes, l.WellFormed) →
      (m.after left).WellFormed
  | .nil, hl, _ => hl
  | .cons _ _ next more, hl, h => by
    obtain ⟨hn, hm⟩ := List.forall_mem_append.1 (List.forall_mem_cons.1 h).2
    exact more.after_wellFormed ⟨hl, next.tree_wellFormed hn⟩ hm
termination_by structural m => m

lemma Link.tree_wellFormed {tier : Tier} :
    (k : Link tier) → (∀ l ∈ k.lexemes, l.WellFormed) → k.tree.WellFormed
  | .product c, h => c.tree_wellFormed h
  | .operand a, h => a.tree_wellFormed h
termination_by structural k => k

lemma Atom.tree_wellFormed :
    (a : Atom) → (∀ l ∈ a.lexemes, l.WellFormed) → a.tree.WellFormed
  | .path _, h => h _ List.mem_cons_self
  | .literal _, h => h _ List.mem_cons_self
  | .paren c, h => by
    obtain ⟨hc, -⟩ := List.forall_mem_append.1 (List.forall_mem_cons.1 h).2
    exact c.tree_wellFormed hc
termination_by structural a => a

end

lemma items_wellFormed {items : List Literal} (h : ∀ l ∈ itemLexemes items, l.WellFormed) :
    ∀ l ∈ items, l.WellFormed := by
  fun_induction itemLexemes items with
  | case1 => simp
  | case2 l =>
    rw [List.forall_mem_singleton] at h ⊢
    exact h
  | case3 l ls hne ih =>
    simp only [List.forall_mem_cons] at h ⊢
    exact ⟨h.1, ih h.2.2⟩

lemma Test.tree_wellFormed (t : Test) (h : ∀ l ∈ t.lexemes, l.WellFormed) :
    t.tree.WellFormed := by
  obtain ⟨subject, clause⟩ := t
  simp only [Test.lexemes, List.forall_mem_append] at h
  have hs : subject.tree.WellFormed := subject.tree_wellFormed h.1
  cases clause with
  | comparison op right =>
    simp only [Clause.lexemes, List.forall_mem_cons] at h
    exact ⟨hs, right.tree_wellFormed h.2.2⟩
  | predicate verb argument =>
    simp only [Clause.lexemes, List.forall_mem_cons] at h
    exact ⟨hs, argument.tree_wellFormed h.2.2⟩
  | listed verb membership items =>
    simp only [Clause.lexemes, List.forall_mem_cons, List.forall_mem_append] at h
    exact ⟨hs, membership, items_wellFormed h.2.2.2.1⟩

mutual

/-- A derivation of well-formed lexemes stands for a well-formed rule. -/
theorem Group.tree_wellFormed (g : Group) (h : ∀ l ∈ g.lexemes, l.WellFormed) :
    g.tree.WellFormed := by
  cases g with
  | single t => exact t.tree_wellFormed h
  | joined op first second more =>
    simp only [Group.lexemes, List.forall_mem_cons, List.forall_mem_append] at h
    refine ⟨by simp, first.tree_wellFormed h.1, second.tree_wellFormed h.2.2.1, ?_⟩
    exact Term.trees_wellFormed more h.2.2.2
termination_by structural g

theorem Term.tree_wellFormed (t : Term) (h : ∀ l ∈ t.lexemes, l.WellFormed) :
    t.tree.WellFormed := by
  cases t with
  | paren g =>
    simp only [Term.lexemes, List.forall_mem_cons, List.forall_mem_append] at h
    exact g.tree_wellFormed h.2.1
  | test t => exact t.tree_wellFormed h
termination_by structural t

theorem Term.trees_wellFormed {op : Connective} (ts : List Term)
    (h : ∀ l ∈ Term.moreLexemes op ts, l.WellFormed) :
    Rule.ChildrenWellFormed (Term.trees ts) := by
  cases ts with
  | nil => trivial
  | cons t ts =>
    simp only [Term.moreLexemes, List.forall_mem_cons, List.forall_mem_append] at h
    exact ⟨t.tree_wellFormed h.2.1, Term.trees_wellFormed ts h.2.2⟩
termination_by structural ts

end

end Grammar

end RecordRules
