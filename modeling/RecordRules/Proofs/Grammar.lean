import Mathlib.Data.Nat.Basic
import RecordRules.Rule.Parse

/-!
The grammar of rules, as derivation trees.

A derivation tree keeps what the tokens say and a rule does not: the parentheses. The
lexemes of a derivation are what it derives, and its tree is the rule it stands for. A chain is a
sum or a product by its tier: the links of a sum are products, those of a product are
single operands, and links are joined from the left.
-/

namespace RecordRules.Grammar

open Parse (Tier)

mutual

/-- A link and, joined to it by operators of the tier, more links. -/
inductive Chain : Tier → Type where
  | mk {tier : Tier} (first : Link tier) (more : Links tier) : Chain tier

inductive Links : Tier → Type where
  | nil {tier : Tier} : Links tier
  | cons {tier : Tier} (op : Arithmetic) (joins : tier.joins op = true) (next : Link tier)
      (more : Links tier) : Links tier

inductive Link : Tier → Type where
  | product (c : Chain .product) : Link .sum
  | operand (a : Atom) : Link .product

/-- A path is a text that reads as one. -/
inductive Atom : Type where
  | path (p : Path)
  | literal (l : Literal)
  | paren (c : Chain .sum)

end

/-- What is asked of an operand: a relation or a verb with another one, or a membership verb
with a list. -/
inductive Clause where
  | comparison (op : Relation) (right : Chain .sum)
  | predicate (verb : Verb) (argument : Chain .sum)
  | listed (verb : Verb) (membership : verb.isMembership = true) (items : List Literal)

structure Test where
  subject : Chain .sum
  clause : Clause

mutual

/-- A single term, or two and more with one connective between them. -/
inductive Group where
  | single (t : Term)
  | joined (op : Connective) (first second : Term) (more : List Term)

inductive Term where
  | paren (g : Group)
  | test (t : Test)

end

/-! ### What a tree derives -/

mutual

def Chain.lexemes {tier : Tier} : Chain tier → List Lexeme
  | .mk first more => first.lexemes ++ more.lexemes
termination_by structural c => c

def Links.lexemes {tier : Tier} : Links tier → List Lexeme
  | .nil => []
  | .cons op _ next more => .arithmetic op :: (next.lexemes ++ more.lexemes)
termination_by structural c => c

def Link.lexemes {tier : Tier} : Link tier → List Lexeme
  | .product c => c.lexemes
  | .operand a => a.lexemes
termination_by structural c => c

def Atom.lexemes : Atom → List Lexeme
  | .path p => [.path p.text]
  | .literal l => [.literal l]
  | .paren c => .openParen :: (c.lexemes ++ [.closeParen])
termination_by structural c => c

end

/-- Literals with commas between them. -/
def itemLexemes : List Literal → List Lexeme
  | [] => []
  | [l] => [.literal l]
  | l :: ls => .literal l :: .comma :: itemLexemes ls

def Clause.lexemes : Clause → List Lexeme
  | .comparison op right => .relation op :: right.lexemes
  | .predicate verb argument => .verb verb :: argument.lexemes
  | .listed verb _ items => .verb verb :: .openBracket :: (itemLexemes items ++ [.closeBracket])

def Test.lexemes (t : Test) : List Lexeme := t.subject.lexemes ++ t.clause.lexemes

mutual

def Group.lexemes : Group → List Lexeme
  | .single t => t.lexemes
  | .joined op first second more =>
    first.lexemes ++ .connective op :: (second.lexemes ++ Term.moreLexemes op more)
termination_by structural g => g

def Term.lexemes : Term → List Lexeme
  | .paren g => .openParen :: (g.lexemes ++ [.closeParen])
  | .test t => t.lexemes
termination_by structural t => t

/-- Terms, each after the connective. -/
def Term.moreLexemes (op : Connective) : List Term → List Lexeme
  | [] => []
  | t :: ts => .connective op :: (t.lexemes ++ Term.moreLexemes op ts)
termination_by structural ts => ts

end

/-! ### What a tree stands for -/

mutual

def Chain.tree {tier : Tier} : Chain tier → Operand
  | .mk first more => more.after first.tree
termination_by structural c => c

/-- The links joined to what stands to the left of them. -/
def Links.after {tier : Tier} (left : Operand) : Links tier → Operand
  | .nil => left
  | .cons op _ next more => more.after (.arithmetic left op next.tree)
termination_by structural c => c

def Link.tree {tier : Tier} : Link tier → Operand
  | .product c => c.tree
  | .operand a => a.tree
termination_by structural c => c

def Atom.tree : Atom → Operand
  | .path p => .path p
  | .literal l => .literal l
  | .paren c => c.tree
termination_by structural c => c

end

def Clause.tree (subject : Operand) : Clause → Rule
  | .comparison op right => .comparison subject op right.tree
  | .predicate verb argument => .predicate subject verb (.operand argument.tree)
  | .listed verb _ items => .predicate subject verb (.list items)

def Test.tree (t : Test) : Rule := t.clause.tree t.subject.tree

mutual

def Group.tree : Group → Rule
  | .single t => t.tree
  | .joined op first second more => .group op (first.tree :: second.tree :: Term.trees more)
termination_by structural g => g

def Term.tree : Term → Rule
  | .paren g => g.tree
  | .test t => t.tree
termination_by structural t => t

def Term.trees : List Term → List Rule
  | [] => []
  | t :: ts => t.tree :: Term.trees ts
termination_by structural ts => ts

end

/-! ### Where a chain and a group end -/

/-- The lexeme goes on with a chain of the tier, or with one of its links. -/
def continues : Tier → Lexeme → Bool
  | .sum, .arithmetic _ => true
  | .product, .arithmetic op => op.isMultiplicative
  | _, _ => false

/-- A chain of the tier can end before `w`. -/
def Ends (tier : Tier) (w : List Lexeme) : Prop := ∀ l ∈ w.head?, continues tier l = false

/-- A link of the tier can end before `w`. -/
def LinkEnds : Tier → List Lexeme → Prop
  | .sum, w => Ends .product w
  | .product, _ => True

theorem Ends.of_not_follows {w : List Lexeme} (h : w.head?.any (·.followsOperand) = false) :
    Ends .sum w := by
  intro l hl
  have : l.followsOperand = false := by
    rcases w with _ | ⟨m, w⟩
    · simp at hl
    · simp only [List.head?_cons, Option.mem_def, Option.some.injEq, Option.any_some] at hl h
      exact hl ▸ h
  cases l <;> first | rfl | simp [Lexeme.followsOperand] at this

/-- A link can end before the links that are joined to it. -/
theorem Links.linkEnds {tier : Tier} (m : Links tier) {w : List Lexeme} (hw : Ends tier w) :
    LinkEnds tier (m.lexemes ++ w) := by
  cases tier with
  | product => trivial
  | sum =>
    intro l hl
    cases m with
    | nil =>
      have := hw l hl
      cases l <;> first | rfl | simp [continues] at this
    | cons op joins next more =>
      simp only [Links.lexemes, List.cons_append, List.head?_cons, Option.mem_def,
        Option.some.injEq] at hl
      subst hl
      simpa [Tier.joins, continues] using joins

/-- The subject of a test ends before its clause. -/
lemma Clause.ends (c : Clause) (w : List Lexeme) : Ends .sum (c.lexemes ++ w) := by
  cases c <;> simp [Ends, continues, Clause.lexemes]

/-- The operators that join the links of a tier go on with a chain of it. -/
lemma continues_of_joins {tier : Tier} {op : Arithmetic} (h : tier.joins op = true) :
    continues tier (.arithmetic op) = true := by
  cases tier with
  | sum => rfl
  | product => exact h

/-- A group can end before `w`. -/
def GroupEnds (w : List Lexeme) : Prop := ∀ l ∈ w.head?, l = .closeParen

lemma GroupEnds.not_follows {w : List Lexeme} (hw : GroupEnds w) :
    w.head?.any (·.followsOperand) = false := by
  rcases w with _ | ⟨l, w⟩
  · rfl
  · have : l = .closeParen := hw l rfl
    subst this
    rfl

/-- A term can end before the further terms of its group. -/
lemma more_not_follows (op : Connective) (more : List Term)
    {w : List Lexeme} (hw : GroupEnds w) :
    (Term.moreLexemes op more ++ w).head?.any (·.followsOperand) = false := by
  cases more with
  | nil => exact hw.not_follows
  | cons t more => rfl

/-! ### Where an operand begins -/

def startsOperand : Lexeme → Bool
  | .path _ | .literal _ | .openParen => true
  | _ => false

lemma Atom.exists_head (a : Atom) : ∃ l u, a.lexemes = l :: u ∧ startsOperand l = true := by
  cases a with
  | path p => exact ⟨_, _, rfl, rfl⟩
  | literal l => exact ⟨_, _, rfl, rfl⟩
  | paren c => exact ⟨_, _, rfl, rfl⟩

lemma exists_head_product (c : Chain .product) :
    ∃ l u, c.lexemes = l :: u ∧ startsOperand l = true := by
  obtain ⟨_ | a, more⟩ := c
  obtain ⟨l, u, h, hl⟩ := a.exists_head
  exact ⟨l, u ++ more.lexemes, by simp [Chain.lexemes, Link.lexemes, h], hl⟩

lemma exists_head_sum (c : Chain .sum) :
    ∃ l u, c.lexemes = l :: u ∧ startsOperand l = true := by
  obtain ⟨c | _, more⟩ := c
  obtain ⟨l, u, h, hl⟩ := exists_head_product c
  exact ⟨l, u ++ more.lexemes, by simp [Chain.lexemes, Link.lexemes, h], hl⟩

lemma Test.exists_head (t : Test) : ∃ l u, t.lexemes = l :: u ∧ startsOperand l = true := by
  obtain ⟨l, u, h, hl⟩ := exists_head_sum t.subject
  exact ⟨l, u ++ t.clause.lexemes, by rw [Test.lexemes, h, List.cons_append], hl⟩

lemma Term.exists_head (t : Term) : ∃ l u, t.lexemes = l :: u ∧ startsOperand l = true := by
  cases t with
  | paren g => exact ⟨_, _, rfl, rfl⟩
  | test t => exact t.exists_head

lemma Group.exists_head (g : Group) : ∃ l u, g.lexemes = l :: u ∧ startsOperand l = true := by
  cases g with
  | single t => exact t.exists_head
  | joined op first second more =>
    obtain ⟨l, u, h, hl⟩ := first.exists_head
    exact ⟨l, _, by rw [Group.lexemes, h, List.cons_append], hl⟩

end RecordRules.Grammar
