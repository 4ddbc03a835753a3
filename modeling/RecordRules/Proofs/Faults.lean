import Mathlib.Data.Nat.Basic
import RecordRules.Proofs.Readers

/-!
The faults of the parser. Each one is found at a token, at the end of the text, or inside the
path that a token spells, and only then is it a fault of a path.
-/

namespace RecordRules

/-- The fault lies in the spelling of a path. -/
def ParseFault.isOfPath : ParseFault → Bool
  | .mismatchedQuote | .invalidPath _ => true
  | _ => false

namespace Faults

open Parse (Tier Fault)

/-- The faults that tokens can give rise to. -/
inductive Arises (stop : ℕ) (ts : List Token) : Fault → Prop
  | atStart (h : ts = []) : Arises stop ts (.emptySubexpression, 0)
  | atEnd : Arises stop ts (.unexpectedEnd, stop)
  | atToken {t : Token} (ht : t ∈ ts) {fault : ParseFault} (h : fault.isOfPath = false) :
      Arises stop ts (fault, t.offset)
  | inPath {t : Token} (ht : t ∈ ts) {text : String} (hl : t.lexeme = .path text)
      {fault : PathFault} {d : ℕ} (h : Path.read text = .error (fault, d)) :
      Arises stop ts (.ofPath text fault, t.offset + d)

variable {α β : Type} {stop start n depth : ℕ} {limit : Option ℕ} {tier : Tier}
  {all ts r : List Token}

/-- A reader leaves tokens of the whole, or stops with a fault that these give rise to. -/
def Within (stop : ℕ) (all : List Token) : Except Fault (α × List Token) → Prop
  | .error f => Arises stop all f
  | .ok (_, r) => r <:+ all

lemma Within.map {x : Except Fault (α × List Token)} (h : Within stop all x)
    (g : α × List Token → β × List Token) (hg : ∀ y, (g y).2 = y.2) :
    Within stop all (x.map g) := by
  cases x with
  | error f => exact h
  | ok y =>
    change (g y).2 <:+ all
    rw [hg]
    exact h

lemma at_head {t : Token} (hts : t :: r <:+ all) {fault : ParseFault}
    (h : fault.isOfPath = false) : Arises stop all (fault, t.offset) :=
  .atToken (hts.subset List.mem_cons_self) h

lemma tail_suffix {t : Token} (hts : t :: r <:+ all) : r <:+ all :=
  (List.suffix_cons t r).trans hts

/-- The operands read from at most `n` tokens. -/
def OperandsWithin (stop : ℕ) (limit : Option ℕ) (all : List Token) (n : ℕ) : Prop :=
  ∀ (depth : ℕ) (ts : List Token), ts.length ≤ n → ts <:+ all →
    Within stop all (Readers.operand stop limit depth ts)

/-- The links read from at most `n` tokens. -/
def LinksWithin (stop : ℕ) (limit : Option ℕ) (all : List Token) (tier : Tier) (n : ℕ) : Prop :=
  ∀ (depth : ℕ) (ts : List Token), ts.length ≤ n → ts <:+ all →
    Within stop all (Readers.link stop limit tier depth ts)

lemma chainFrom_within (hl : LinksWithin stop limit all tier n) {left : Operand}
    (hn : ts.length ≤ n) (hts : ts <:+ all) :
    Within stop all (Readers.chainFrom stop limit tier depth left ts) := by
  induction k : ts.length using Nat.strongRecOn generalizing ts left with
  | _ k ih =>
    cases ts with
    | nil =>
      rw [Readers.chainFrom_nil]
      exact hts
    | cons t us =>
      simp only [List.length_cons] at hn k
      rw [Readers.chainFrom_cons]
      split
      · split
        · have hlink := hl depth us (by omega) (tail_suffix hts)
          cases hr : Readers.link stop limit tier depth us with
          | error f =>
            rw [hr] at hlink
            exact hlink
          | ok x =>
            obtain ⟨right, r₁⟩ := x
            rw [hr] at hlink
            have hlen := Readers.length_link hr
            exact ih r₁.length (by omega) (by omega) hlink rfl
        · exact hts
      · exact hts

lemma chain_within_of (hl : LinksWithin stop limit all tier n) (hn : ts.length ≤ n)
    (hts : ts <:+ all) : Within stop all (Readers.chain stop limit tier depth ts) := by
  have hlink := hl depth ts hn hts
  rw [Readers.chain_eq]
  cases hr : Readers.link stop limit tier depth ts with
  | error f =>
    rw [hr] at hlink
    exact hlink
  | ok x =>
    obtain ⟨left, r₁⟩ := x
    rw [hr] at hlink
    have hlen := Readers.length_link hr
    exact chainFrom_within hl (by omega) hlink

lemma products_of_operands (ho : OperandsWithin stop limit all n) :
    LinksWithin stop limit all .product n := by
  intro depth ts hn hts
  rw [Readers.link_product]
  exact ho depth ts hn hts

lemma sums_of_operands (ho : OperandsWithin stop limit all n) :
    LinksWithin stop limit all .sum n := by
  intro depth ts hn hts
  rw [Readers.link_sum]
  exact chain_within_of (products_of_operands ho) hn hts

/-- After something is read, the parenthesis that was opened at a token is closed. -/
lemma close_within {t : Token} (ht : t ∈ all) (hts : ts <:+ all) (a : α) :
    Within stop all ((Readers.close t.offset ts).map fun r => (a, r)) := by
  cases ts with
  | nil => exact .atToken ht rfl
  | cons u us =>
    by_cases hu : u.lexeme = .closeParen
    · have hc : Readers.close t.offset (u :: us) = .ok us := if_pos hu
      rw [hc]
      exact tail_suffix hts
    · have hc : Readers.close t.offset (u :: us) =
          .error (.unexpectedToken u.lexeme, u.offset) := if_neg hu
      rw [hc]
      exact at_head hts rfl

lemma operands_within (n : ℕ) : OperandsWithin stop limit all n := by
  induction n with
  | zero =>
    intro depth ts hn hts
    have : ts = [] := List.length_eq_zero_iff.mp (by omega)
    subst this
    rw [Readers.operand_nil]
    exact .atEnd
  | succ n ih =>
    intro depth ts hn hts
    cases ts with
    | nil =>
      rw [Readers.operand_nil]
      exact .atEnd
    | cons t us =>
      rw [List.length_cons] at hn
      have ht : t ∈ all := hts.subset List.mem_cons_self
      rw [Readers.operand_cons]
      split
      · next text hl =>
        cases hp : Path.read text with
        | error e => exact .inPath ht hl hp
        | ok p => exact tail_suffix hts
      · exact tail_suffix hts
      · split
        · exact at_head hts rfl
        · split
          · exact at_head hts rfl
          · have hchain : Within stop all (Readers.chain stop limit .sum (depth + 1) us) :=
              chain_within_of (sums_of_operands ih) (Nat.le_of_succ_le_succ hn) (tail_suffix hts)
            cases hc : Readers.chain stop limit .sum (depth + 1) us with
            | error f =>
              rw [hc] at hchain
              exact hchain
            | ok x =>
              obtain ⟨e, r₁⟩ := x
              rw [hc] at hchain
              exact close_within ht hchain e
      · exact at_head hts rfl

lemma link_within (hts : ts <:+ all) :
    Within stop all (Readers.link stop limit tier depth ts) :=
  match tier with
  | .product => products_of_operands (operands_within ts.length) depth ts le_rfl hts
  | .sum => sums_of_operands (operands_within ts.length) depth ts le_rfl hts

lemma chain_within (hts : ts <:+ all) :
    Within stop all (Readers.chain stop limit .sum depth ts) :=
  chain_within_of (fun _ _ _ => link_within) le_rfl hts

/-! ### Conditions -/

lemma literals_within {t : Token} (ht : t ∈ all) (hts : ts <:+ all) :
    Within stop all (Readers.literals stop t.offset ts) := by
  induction k : ts.length using Nat.strongRecOn generalizing ts with
  | _ k ih =>
    rcases ts with _ | ⟨u, us⟩
    · exact .atEnd
    rw [Readers.literals_cons]
    split
    · rcases us with _ | ⟨v, vs⟩
      · exact .atToken ht rfl
      have hvs : vs <:+ all := tail_suffix (tail_suffix hts)
      simp only [List.length_cons] at k
      dsimp only
      split
      · have hrest := ih vs.length (by omega) hvs rfl
        cases hr : Readers.literals stop t.offset vs with
        | error f =>
          rw [hr] at hrest
          exact hrest
        | ok x =>
          rw [hr] at hrest
          exact hrest
      · exact hvs
      · exact at_head (tail_suffix hts) rfl
    · exact at_head hts rfl

lemma listLiteral_within {t : Token} (ht : t ∈ all) (hts : ts <:+ all) :
    Within stop all (Readers.listLiteral stop t.offset ts) := by
  cases ts with
  | nil => exact .atEnd
  | cons u us =>
    rw [Readers.listLiteral_cons]
    split
    · exact tail_suffix hts
    · exact literals_within ht hts

lemma argument_within {verb : Verb} (hts : ts <:+ all) :
    Within stop all (Readers.argument stop limit depth verb ts) := by
  cases ts with
  | nil =>
    rw [Readers.argument_nil]
    exact .atEnd
  | cons t us =>
    rw [Readers.argument_cons]
    split
    · split
      · have ht : t ∈ all := hts.subset List.mem_cons_self
        exact (listLiteral_within ht (tail_suffix hts)).map _ fun _ => rfl
      · exact at_head hts rfl
    · exact (chain_within hts).map _ fun _ => rfl

lemma predicate_within (hts : ts <:+ all) :
    Within stop all (Readers.predicate stop limit depth ts) := by
  have hchain : Within stop all (Readers.chain stop limit .sum depth ts) := chain_within hts
  rw [Readers.predicate_eq]
  rcases hc : Readers.chain stop limit .sum depth ts with f | ⟨left, _ | ⟨t, us⟩⟩
  · rw [hc] at hchain
    exact hchain
  · exact .atEnd
  · rw [hc] at hchain
    have hus : t :: us <:+ all := hchain
    dsimp only
    split
    · exact (chain_within (tail_suffix hus)).map _ fun _ => rfl
    · exact (argument_within (tail_suffix hus)).map _ fun _ => rfl
    · exact at_head hus rfl
    · exact at_head hus rfl

/-- The terms read from at most `n` tokens. -/
def TermsWithin (stop : ℕ) (limit : Option ℕ) (all : List Token) (n : ℕ) : Prop :=
  ∀ (depth : ℕ) (ts : List Token), ts.length ≤ n → ts <:+ all →
    Within stop all (Readers.term stop limit depth ts)

lemma terms_within (ht : TermsWithin stop limit all n) {op : Connective} (hn : ts.length ≤ n)
    (hts : ts <:+ all) : Within stop all (Readers.terms stop limit depth op ts) := by
  induction k : ts.length using Nat.strongRecOn generalizing ts with
  | _ k ih =>
    cases ts with
    | nil =>
      rw [Readers.terms_nil]
      exact hts
    | cons t us =>
      simp only [List.length_cons] at hn k
      rw [Readers.terms_cons]
      split
      · split
        · have hterm := ht depth us (by omega) (tail_suffix hts)
          cases hr : Readers.term stop limit depth us with
          | error f =>
            rw [hr] at hterm
            exact hterm
          | ok x =>
            obtain ⟨first, r₁⟩ := x
            rw [hr] at hterm
            have hlen := Readers.length_term hr
            exact (ih r₁.length (by omega) (by omega) hterm rfl).map _ fun _ => rfl
        · exact at_head hts rfl
      · exact hts

lemma group_within_of (ht : TermsWithin stop limit all n) (hn : ts.length ≤ n)
    (hts : ts <:+ all) : Within stop all (Readers.group stop limit depth ts) := by
  have hterm := ht depth ts hn hts
  rw [Readers.group_eq]
  rcases hr : Readers.term stop limit depth ts with f | ⟨first, _ | ⟨t, us⟩⟩
  · rw [hr] at hterm
    exact hterm
  · rw [hr] at hterm
    exact hterm
  · rw [hr] at hterm
    have hlen := Readers.length_term hr
    dsimp only
    split
    · exact (terms_within ht (by omega) hterm).map _ fun _ => rfl
    · exact hterm

lemma terms_to (n : ℕ) : TermsWithin stop limit all n := by
  induction n with
  | zero =>
    intro depth ts hn hts
    have : ts = [] := List.length_eq_zero_iff.mp (by omega)
    subst this
    rw [Readers.term_nil]
    exact predicate_within hts
  | succ n ih =>
    intro depth ts hn hts
    cases ts with
    | nil =>
      rw [Readers.term_nil]
      exact predicate_within hts
    | cons t us =>
      rw [List.length_cons] at hn
      rw [Readers.term_cons]
      split
      · split
        · exact at_head hts rfl
        · split
          · exact at_head hts rfl
          · have hgroup : Within stop all (Readers.group stop limit (depth + 1) us) :=
              group_within_of ih (Nat.le_of_succ_le_succ hn) (tail_suffix hts)
            cases hg : Readers.group stop limit (depth + 1) us with
            | error f =>
              rw [hg] at hgroup
              exact hgroup
            | ok x =>
              obtain ⟨rule, r₁⟩ := x
              rw [hg] at hgroup
              exact close_within (hts.subset List.mem_cons_self) hgroup rule
      · exact predicate_within hts

lemma term_within (hts : ts <:+ all) :
    Within stop all (Readers.term stop limit depth ts) :=
  terms_to ts.length depth ts le_rfl hts

lemma group_within (hts : ts <:+ all) :
    Within stop all (Readers.group stop limit depth ts) :=
  group_within_of (terms_to ts.length) le_rfl hts

/-- What stops the parser arises from the tokens that it was given. -/
theorem rule_arises {f : Fault} (h : Parse.rule stop limit ts = .error f) :
    Arises stop ts f := by
  cases ts with
  | nil =>
    cases h
    exact .atStart rfl
  | cons t us =>
    have hgroup : Within stop (t :: us) (Readers.group stop limit 0 (t :: us)) :=
      group_within (List.suffix_refl _)
    rw [Readers.rule_cons] at h
    rcases hg : Readers.group stop limit 0 (t :: us) with f' | ⟨rule, _ | ⟨u, vs⟩⟩
    · rw [hg] at h hgroup
      cases h
      exact hgroup
    · rw [hg] at h
      cases h
    · rw [hg] at h hgroup
      have hu : u :: vs <:+ t :: us := hgroup
      dsimp only at h
      split at h
      · cases h
        exact at_head hu rfl
      · cases h
        exact at_head hu rfl

end Faults

end RecordRules
