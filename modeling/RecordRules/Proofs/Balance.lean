import RecordRules.Proofs.Grammar

/-!
Parentheses in derivations, and the look ahead past them.

What a tree derives is balanced, and a balanced list is passed over by the look ahead from
an opening parenthesis. Hence the look ahead tells the two readings of a parenthesis apart:
it answers yes exactly when the parenthesis opens an operand.
-/

namespace RecordRules.Grammar

open Parse (Tier)

/-- Every parenthesis is closed, and none is closed that was not opened. -/
inductive Balanced : List Lexeme → Prop
  | nil : Balanced []
  | cons {l : Lexeme} {w : List Lexeme} (hopen : l ≠ .openParen) (hclose : l ≠ .closeParen)
      (hw : Balanced w) : Balanced (l :: w)
  | paren {u w : List Lexeme} (hu : Balanced u) (hw : Balanced w) :
      Balanced (.openParen :: (u ++ .closeParen :: w))

namespace Balanced

variable {u v w : List Lexeme}

lemma append (hu : Balanced u) (hv : Balanced v) : Balanced (u ++ v) := by
  induction hu with
  | nil => exact hv
  | cons hopen hclose _ ih => exact .cons hopen hclose ih
  | paren hu _ _ ih =>
    rw [List.cons_append, List.append_assoc, List.cons_append]
    exact .paren hu ih

lemma wrap (hu : Balanced u) : Balanced (.openParen :: (u ++ [.closeParen])) := .paren hu .nil

end Balanced

mutual

theorem Chain.balanced {tier : Tier} : (c : Chain tier) → Balanced c.lexemes
  | .mk first more => first.balanced.append more.balanced
termination_by structural c => c

theorem Links.balanced {tier : Tier} : (m : Links tier) → Balanced m.lexemes
  | .nil => .nil
  | .cons _ _ next more => .cons (by simp) (by simp) (next.balanced.append more.balanced)
termination_by structural m => m

theorem Link.balanced {tier : Tier} : (l : Link tier) → Balanced l.lexemes
  | .product c => c.balanced
  | .operand a => a.balanced
termination_by structural l => l

theorem Atom.balanced : (a : Atom) → Balanced a.lexemes
  | .path _ => .cons (by simp) (by simp) .nil
  | .literal _ => .cons (by simp) (by simp) .nil
  | .paren c => c.balanced.wrap
termination_by structural a => a

end

lemma balanced_itemLexemes : (ls : List Literal) → Balanced (itemLexemes ls)
  | [] => .nil
  | [_] => .cons (by simp) (by simp) .nil
  | _ :: m :: ls =>
    .cons (by simp) (by simp) (.cons (by simp) (by simp) (balanced_itemLexemes (m :: ls)))

lemma Clause.balanced (c : Clause) : Balanced c.lexemes := by
  cases c with
  | comparison op right => exact .cons (by simp) (by simp) right.balanced
  | predicate verb argument => exact .cons (by simp) (by simp) argument.balanced
  | listed verb _ items =>
    refine .cons (by simp) (by simp) (.cons (by simp) (by simp) ?_)
    exact (balanced_itemLexemes items).append (.cons (by simp) (by simp) .nil)

theorem Test.balanced (t : Test) : Balanced t.lexemes :=
  t.subject.balanced.append t.clause.balanced

mutual

theorem Group.balanced : (g : Group) → Balanced g.lexemes
  | .single t => t.balanced
  | .joined op first second more =>
    first.balanced.append
      (.cons (by simp) (by simp) (second.balanced.append (Term.balanced_more op more)))
termination_by structural g => g

theorem Term.balanced : (t : Term) → Balanced t.lexemes
  | .paren g => g.balanced.wrap
  | .test t => t.balanced
termination_by structural t => t

theorem Term.balanced_more (op : Connective) :
    (ts : List Term) → Balanced (Term.moreLexemes op ts)
  | [] => .nil
  | t :: ts => .cons (by simp) (by simp) (t.balanced.append (Term.balanced_more op ts))
termination_by structural ts => ts

end

/-! ### The look ahead -/

/-- `Parse.opensOperand` on lexemes. -/
def opens (level : ℕ) : List Lexeme → Bool
  | [] => false
  | .openParen :: w => opens (level + 1) w
  | .closeParen :: w =>
    match level with
    | 0 => w.head?.any (·.followsOperand)
    | n + 1 => opens n w
  | _ :: w => opens level w

lemma opensOperand_eq (level : ℕ) (ts : List Token) :
    Parse.opensOperand level ts = opens level (ts.map Token.lexeme) := by
  induction ts generalizing level with
  | nil => rfl
  | cons t ts ih =>
    rcases t with ⟨l, o⟩
    cases l with
    | closeParen =>
      cases level with
      | zero => cases ts <;> simp [Parse.opensOperand, opens]
      | succ n => simp [Parse.opensOperand, opens, ih]
    | _ => simp [Parse.opensOperand, opens, ih]

lemma opens_cons {l : Lexeme} (hopen : l ≠ .openParen) (hclose : l ≠ .closeParen) (level : ℕ)
    (w : List Lexeme) : opens level (l :: w) = opens level w := by
  cases l <;> first | rfl | contradiction

/-- The look ahead passes over what is balanced. -/
lemma opens_append {u : List Lexeme} (hu : Balanced u) (level : ℕ) (w : List Lexeme) :
    opens level (u ++ w) = opens level w := by
  induction hu generalizing level w with
  | nil => rfl
  | cons hopen hclose _ ih => rw [List.cons_append, opens_cons hopen hclose, ih]
  | paren _ _ ihu ihv =>
    rw [List.cons_append, List.append_assoc, List.cons_append]
    simp only [opens, ihu, ihv]

/-- The parenthesis around what is balanced is judged by what follows it. -/
lemma opens_wrapped {u : List Lexeme} (hu : Balanced u) (w : List Lexeme) :
    opens 0 (u ++ .closeParen :: w) = w.head?.any (·.followsOperand) := by
  rw [opens_append hu]
  rfl

lemma Links.head_follows {tier : Tier} (m : Links tier) {w : List Lexeme}
    (hw : w.head?.any (·.followsOperand) = true) :
    (m.lexemes ++ w).head?.any (·.followsOperand) = true := by
  cases m with
  | nil => exact hw
  | cons op _ next more => rfl

lemma opens_product (c : Chain .product) {u w : List Lexeme} (h : c.lexemes = .openParen :: u)
    (hw : w.head?.any (·.followsOperand) = true) : opens 0 (u ++ w) = true := by
  obtain ⟨_ | a, more⟩ := c
  cases a with
  | path p => simp [Chain.lexemes, Link.lexemes, Atom.lexemes] at h
  | literal l => simp [Chain.lexemes, Link.lexemes, Atom.lexemes] at h
  | paren c =>
    simp only [Chain.lexemes, Link.lexemes, Atom.lexemes, List.cons_append, List.append_assoc,
      List.nil_append, List.cons.injEq, true_and] at h
    subst h
    rw [List.append_assoc, List.cons_append, opens_wrapped c.balanced]
    exact more.head_follows hw

/-- Before an operator of operands the look ahead from the first parenthesis of an operand
answers yes. -/
lemma opens_sum (c : Chain .sum) {u w : List Lexeme} (h : c.lexemes = .openParen :: u)
    (hw : w.head?.any (·.followsOperand) = true) : opens 0 (u ++ w) = true := by
  obtain ⟨⟨c⟩, more⟩ := c
  simp only [Chain.lexemes, Link.lexemes] at h
  obtain ⟨l, v, hc, -⟩ := exists_head_product c
  rw [hc, List.cons_append, List.cons.injEq] at h
  obtain ⟨rfl, rfl⟩ := h
  rw [List.append_assoc]
  exact opens_product c hc (more.head_follows hw)

/-- A test with a parenthesis in front is told from a group in parentheses. -/
theorem opens_test (t : Test) {u : List Lexeme} (h : t.lexemes = .openParen :: u)
    (w : List Lexeme) : opens 0 (u ++ w) = true := by
  obtain ⟨c, clause⟩ := t
  obtain ⟨l, v, hc, -⟩ := exists_head_sum c
  rw [Test.lexemes, hc, List.cons_append, List.cons.injEq] at h
  obtain ⟨rfl, rfl⟩ := h
  rw [List.append_assoc]
  exact opens_sum c hc (by cases clause <;> rfl)

end RecordRules.Grammar
