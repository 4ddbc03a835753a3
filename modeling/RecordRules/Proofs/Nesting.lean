import RecordRules.Proofs.Balance

/-!
How deep parentheses are nested, in lexemes and in derivations. The parentheses of a derivation
bound the depth of its tree: a group that is no rule by itself stands inside parentheses.
-/

namespace RecordRules.Nesting

open Grammar

/-- How many parentheses are open after the lexemes, where `d` were open before. -/
def openAfter (d : ℕ) : List Lexeme → ℕ
  | [] => d
  | .openParen :: w => openAfter (d + 1) w
  | .closeParen :: w => openAfter (d - 1) w
  | _ :: w => openAfter d w

/-- How deep the parentheses are nested that the lexemes open, one after the other. -/
def nestings (d : ℕ) : List Lexeme → List ℕ
  | [] => []
  | .openParen :: w => (d + 1) :: nestings (d + 1) w
  | .closeParen :: w => nestings (d - 1) w
  | _ :: w => nestings d w

example : nestings 0 [.openParen, .openParen, .closeParen, .openParen] = [1, 2, 2] := rfl

/-- The token is the first parenthesis of these that is nested deeper than `m`. -/
def FirstBeyond (m d : ℕ) (ts : List Token) (t : Token) : Prop :=
  ∃ u v, ts = u ++ t :: v ∧ t.lexeme = .openParen ∧ openAfter d (u.map Token.lexeme) = m ∧
    ∀ n ∈ nestings d (u.map Token.lexeme), n ≤ m

variable {d m : ℕ} {u v w : List Lexeme} {l : Lexeme} {ts : List Token} {t : Token}

lemma openAfter_cons (hopen : l ≠ .openParen) (hclose : l ≠ .closeParen) :
    openAfter d (l :: w) = openAfter d w := by
  cases l <;> first | rfl | contradiction

lemma nestings_cons (hopen : l ≠ .openParen) (hclose : l ≠ .closeParen) :
    nestings d (l :: w) = nestings d w := by
  cases l <;> first | rfl | contradiction

lemma openAfter_append : openAfter d (u ++ v) = openAfter (openAfter d u) v := by
  induction u generalizing d with
  | nil => rfl
  | cons l u ih => cases l <;> exact ih

lemma nestings_append : nestings d (u ++ v) = nestings d u ++ nestings (openAfter d u) v := by
  induction u generalizing d with
  | nil => rfl
  | cons l u ih =>
    cases l with
    | openParen => exact congrArg ((d + 1) :: ·) ih
    | _ => exact ih

/-- What is balanced leaves open what was. -/
lemma openAfter_balanced (h : Balanced u) : openAfter d u = d := by
  induction h generalizing d with
  | nil => rfl
  | cons hopen hclose _ ih => rw [openAfter_cons hopen hclose, ih]
  | paren _ _ ihu ihw =>
    rw [openAfter, openAfter_append, ihu, openAfter, Nat.add_sub_cancel]
    exact ihw

lemma nestings_wrapped (h : Balanced u) :
    nestings d (.openParen :: (u ++ .closeParen :: w)) = (d + 1) :: nestings (d + 1) u ++
      nestings d w := by
  rw [nestings, nestings_append, openAfter_balanced h, nestings, Nat.add_sub_cancel]
  rfl

/-- A parenthesis beyond the limit is one that is nested too deep. -/
lemma FirstBeyond.exists_nesting (h : FirstBeyond m d ts t) :
    ∃ n ∈ nestings d (ts.map Token.lexeme), ¬ n ≤ m := by
  obtain ⟨u, v, rfl, ht, hm, -⟩ := h
  refine ⟨m + 1, ?_, by omega⟩
  rw [List.map_append, nestings_append, hm, List.map_cons, ht, nestings]
  simp

/-- What is the first one inside a parenthesis within the limit is the first one from there. -/
lemma FirstBeyond.inside {p : Token} (hd : d + 1 ≤ m) (ht : t.lexeme = .openParen)
    (h : FirstBeyond m (d + 1) ts p) : FirstBeyond m d (t :: ts) p := by
  obtain ⟨u, v, rfl, hp, hm, hle⟩ := h
  refine ⟨t :: u, v, rfl, hp, ?_, ?_⟩
  · rw [List.map_cons, ht, openAfter, hm]
  · rw [List.map_cons, ht, nestings, List.forall_mem_cons]
    exact ⟨hd, hle⟩

/-! ### Derivations -/

variable {P : ℕ → Prop}

/-- What holds of the nestings of two lists holds of those of each. -/
lemma forall_append : (∀ n ∈ nestings d (u ++ v), P n) ↔
    (∀ n ∈ nestings d u, P n) ∧ ∀ n ∈ nestings (openAfter d u) v, P n := by
  rw [nestings_append, List.forall_mem_append]

mutual

theorem depth_group : (g : Group) → (d : ℕ) → d ≤ m → (∀ n ∈ nestings d g.lexemes, n ≤ m) →
    g.tree.depth + d ≤ m + 1
  | .single t, d, hd, h => Nat.le_succ_of_le (depth_term t d hd h)
  | .joined op first second more, d, hd, h => by
    rw [Group.lexemes, forall_append, openAfter_balanced first.balanced,
      nestings_cons (by simp) (by simp), forall_append, openAfter_balanced second.balanced] at h
    have hfirst := depth_term first d hd h.1
    have hsecond := depth_term second d hd h.2.1
    have hmore := depth_more op more d hd h.2.2
    simp only [Group.tree, Rule.depth, Rule.childDepth]
    omega
termination_by structural g => g

theorem depth_term : (t : Term) → (d : ℕ) → d ≤ m → (∀ n ∈ nestings d t.lexemes, n ≤ m) →
    t.tree.depth + d ≤ m
  | .paren g, d, _, h => by
    rw [Term.lexemes, nestings_wrapped g.balanced] at h
    have hinside : d + 1 ≤ m := h (d + 1) (by simp)
    have := depth_group g (d + 1) hinside fun n hn => h n (by simp [hn])
    rw [Term.tree]
    omega
  | .test ⟨subject, clause⟩, d, hd, _ => by
    have : (clause.tree subject.tree).depth = 0 := by cases clause <;> rfl
    rw [Term.tree, Test.tree, this]
    omega
termination_by structural t => t

theorem depth_more (op : Connective) : (ts : List Term) → (d : ℕ) → d ≤ m →
    (∀ n ∈ nestings d (Term.moreLexemes op ts), n ≤ m) →
    Rule.childDepth (Term.trees ts) + d ≤ m
  | [], d, hd, _ => by
    rw [Term.trees, Rule.childDepth]
    omega
  | t :: ts, d, hd, h => by
    rw [Term.moreLexemes, nestings_cons (by simp) (by simp), forall_append,
      openAfter_balanced t.balanced] at h
    have hterm := depth_term t d hd h.1
    have hmore := depth_more op ts d hd h.2
    simp only [Term.trees, Rule.childDepth]
    omega
termination_by structural ts => ts

end

/-- The depth of the tree is bounded by the nesting of the parentheses. -/
theorem depth_tree (g : Group) (h : ∀ n ∈ nestings 0 g.lexemes, n ≤ m) : g.tree.depth ≤ m + 1 :=
  depth_group g 0 (Nat.zero_le m) h

end RecordRules.Nesting
