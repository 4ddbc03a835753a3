import Mathlib.Data.List.Forall2
import RecordRules.Proofs.Nesting
import RecordRules.Proofs.Readers

/-!
Two runs of the parser, side by side, on tokens that say the same at other bytes, the second one
with a limit on nesting that the first may lack. They go the same way: they read the same, or
stop with the same fault, until the second comes to a parenthesis beyond its limit.
-/

namespace RecordRules

open Parse (Tier Fault)
open Nesting

/-- Two runs: which bytes of the two texts correspond, where the texts end, and the limits. -/
structure Runs where
  place : ℕ → ℕ → Prop
  place_zero : place 0 0
  place_add (d : ℕ) {o o' : ℕ} : place o o' → place (o + d) (o' + d)
  stop : ℕ
  stop' : ℕ
  place_stop : place stop stop'
  limit : Option ℕ
  limit' : Option ℕ
  limits : limit = limit' ∨ limit = none

namespace Runs

variable {α β : Type}

/-- The tokens say the same at bytes that correspond. -/
inductive Alike (R : Runs) : Token → Token → Prop
  | mk (l : Lexeme) {o o' : ℕ} (ho : R.place o o') : Alike R ⟨l, o⟩ ⟨l, o'⟩

/-- Between `us` and what is left, `r`, all parentheses are closed, and none of them is nested
too deep for the second run. -/
def Passes (R : Runs) (d : ℕ) (us r : List Token) : Prop :=
  ∃ u, us = u ++ r ∧ openAfter d (u.map Token.lexeme) = d ∧
    ∀ m ∈ R.limit', ∀ n ∈ nestings d (u.map Token.lexeme), n ≤ m

/-- What two readers make of tokens inside `d` parentheses, of which the first is given `us`. -/
inductive Agree (R : Runs) (d : ℕ) (us : List Token) :
    Except Fault (α × List Token) → Except Fault (α × List Token) → Prop
  | read {a : α} {r s : List Token} (hp : R.Passes d us r) (hrs : List.Forall₂ R.Alike r s) :
      Agree R d us (.ok (a, r)) (.ok (a, s))
  | fault {f : ParseFault} {o o' : ℕ} (ho : R.place o o') :
      Agree R d us (.error (f, o)) (.error (f, o'))
  | beyond {x : Except Fault (α × List Token)} {m : ℕ} {t : Token} {o' : ℕ}
      (hnone : R.limit = none) (hsome : R.limit' = some m) (ht : FirstBeyond m d us t)
      (ho : R.place t.offset o') : Agree R d us x (.error (.nestingTooDeep m, o'))

/-- Two readers agree on up to `n` tokens. -/
def Agrees (R : Runs) (n d : ℕ) (p q : List Token → Except Fault (α × List Token)) : Prop :=
  ∀ us vs, us.length ≤ n → List.Forall₂ R.Alike us vs → R.Agree d us (p us) (q vs)

variable {R : Runs} {n d m : ℕ} {us vs r s : List Token} {t u : Token}
  {x y : Except Fault (α × List Token)}

/-! ### What is passed over -/

lemma Passes.refl : R.Passes d us us := ⟨[], rfl, rfl, fun _ _ _ h => nomatch h⟩

lemma Passes.next (hopen : t.lexeme ≠ .openParen) (hclose : t.lexeme ≠ .closeParen)
    (h : R.Passes d us r) : R.Passes d (t :: us) r := by
  obtain ⟨u, rfl, hu, hle⟩ := h
  refine ⟨t :: u, rfl, ?_, ?_⟩
  · rw [List.map_cons, openAfter_cons hopen hclose, hu]
  · rw [List.map_cons, nestings_cons hopen hclose]
    exact hle

lemma Passes.trans (h : R.Passes d us r) (h' : R.Passes d r s) : R.Passes d us s := by
  obtain ⟨u, rfl, hu, hle⟩ := h
  obtain ⟨v, rfl, hv, hle'⟩ := h'
  refine ⟨u ++ v, (List.append_assoc u v s).symm, ?_, fun m hm => ?_⟩
  · rw [List.map_append, openAfter_append, hu, hv]
  · rw [List.map_append, forall_append, hu]
    exact ⟨hle m hm, hle' m hm⟩

/-- What stands inside a parenthesis is passed over with it. -/
lemma Passes.wrap (hd : ∀ m ∈ R.limit', d + 1 ≤ m) (ht : t.lexeme = .openParen)
    (hu : u.lexeme = .closeParen) (h : R.Passes (d + 1) us (u :: r)) :
    R.Passes d (t :: us) r := by
  obtain ⟨v, rfl, hv, hle⟩ := h
  refine ⟨t :: (v ++ [u]), by simp, ?_, fun m hm => ?_⟩
  · simp only [List.map_cons, List.map_append, List.map_nil, ht, hu, openAfter, openAfter_append,
      hv, Nat.add_sub_cancel]
  · simp only [List.map_cons, List.map_append, List.map_nil, ht, hu, nestings, nestings_append,
      List.append_nil, List.forall_mem_cons]
    exact ⟨hd m hm, hle m hm⟩

lemma Passes.length_le (h : R.Passes d us r) : r.length ≤ us.length := by
  obtain ⟨u, rfl, -⟩ := h
  simp

/-- The first parenthesis beyond the limit in what is left is the first of all. -/
lemma Passes.firstBeyond (hm : R.limit' = some m) (h : R.Passes d us r)
    (ht : FirstBeyond m d r t) : FirstBeyond m d us t := by
  obtain ⟨u, rfl, hu, hle⟩ := h
  obtain ⟨v, w, rfl, ht, hv, hle'⟩ := ht
  refine ⟨u ++ v, w, (List.append_assoc u v (t :: w)).symm, ht, ?_, ?_⟩
  · rw [List.map_append, openAfter_append, hu, hv]
  · rw [List.map_append, forall_append, hu]
    exact ⟨hle m hm, hle'⟩

/-! ### Readers put together -/

lemma Agree.after (hp : R.Passes d us r) (h : R.Agree d r x y) : R.Agree d us x y := by
  cases h with
  | read hp' hrs => exact .read (hp.trans hp') hrs
  | fault ho => exact .fault ho
  | beyond hnone hsome ht ho => exact .beyond hnone hsome (hp.firstBeyond hsome ht) ho

lemma Agree.next (hopen : t.lexeme ≠ .openParen) (hclose : t.lexeme ≠ .closeParen)
    (h : R.Agree d us x y) : R.Agree d (t :: us) x y :=
  h.after (Passes.refl.next hopen hclose)

/-- Readers that go on from what two others have read agree if these do. -/
lemma Agree.follow {z w : Except Fault (β × List Token)} (h : R.Agree d us x y)
    (hz : ∀ e, x = .error e → z = .error e) (hw : ∀ e, y = .error e → w = .error e)
    (hread : ∀ a r s, x = .ok (a, r) → y = .ok (a, s) → List.length r ≤ us.length →
      List.Forall₂ R.Alike r s → R.Agree d r z w) : R.Agree d us z w := by
  cases h with
  | @read a r s hp hrs => exact (hread a r s rfl rfl hp.length_le hrs).after hp
  | fault ho =>
    rw [hz _ rfl, hw _ rfl]
    exact .fault ho
  | beyond hnone hsome ht ho =>
    rw [hw _ rfl]
    exact .beyond hnone hsome ht ho

lemma Agree.map (h : R.Agree d us x y) (f : α → β) :
    R.Agree d us (x.map fun z => (f z.1, z.2)) (y.map fun z => (f z.1, z.2)) := by
  cases h with
  | read hp hrs => exact .read hp hrs
  | fault ho => exact .fault ho
  | beyond hnone hsome ht ho => exact .beyond hnone hsome ht ho

lemma lexemes_eq (h : List.Forall₂ R.Alike us vs) :
    us.map Token.lexeme = vs.map Token.lexeme := by
  induction h with
  | nil => rfl
  | cons htu _ ih =>
    cases htu
    rw [List.map_cons, List.map_cons, ih]

/-! ### Parentheses -/

lemma of_tooDeep {limit : Option ℕ} (h : Parse.tooDeep limit d = some m) :
    limit = some m ∧ m < d + 1 := by
  simpa [Parse.tooDeep, Option.filter_eq_some_iff] using h

lemma le_of_tooDeep {limit : Option ℕ} (h : Parse.tooDeep limit d = none) :
    ∀ m ∈ limit, d + 1 ≤ m := by
  simpa [Parse.tooDeep, Option.filter_eq_none_iff] using h

lemma closesAtOnce_eq (h : List.Forall₂ R.Alike us vs) :
    Parse.closesAtOnce us = Parse.closesAtOnce vs := by
  cases h with
  | nil => rfl
  | cons htu _ =>
    cases htu
    rfl

variable {o o' : ℕ}

/-- A parenthesis that is too deep for the second run is so for the first, or is beyond the
limit. -/
lemma enclosed_beyond (hd : ∀ m ∈ R.limit', d ≤ m) (hdeep : Parse.tooDeep R.limit' d = some m)
    (ho : R.place o o') :
    R.Agree d (⟨.openParen, o⟩ :: us) (Readers.enclosed R.limit d o us x)
      (Readers.enclosed R.limit' d o' vs y) := by
  simp only [Readers.enclosed.eq_def R.limit', hdeep]
  rcases R.limits with hsame | hnone
  · simp only [Readers.enclosed, hsame, hdeep]
    exact .fault ho
  · obtain ⟨hm, hlt⟩ := of_tooDeep hdeep
    have hle : d ≤ m := hd m hm
    refine .beyond hnone hm ⟨[], us, rfl, rfl, ?_, fun _ h => nomatch h⟩ ho
    rw [List.map_nil, openAfter]
    omega

/-- After what is read inside a parenthesis it is closed, or not, in both runs. -/
lemma Agree.close {a : α} (hd : ∀ m ∈ R.limit', d + 1 ≤ m) (hp : R.Passes (d + 1) us r)
    (hrs : List.Forall₂ R.Alike r s) (ho : R.place o o') :
    R.Agree d (⟨.openParen, o⟩ :: us) ((Readers.close o r).map fun r' => (a, r'))
      ((Readers.close o' s).map fun s' => (a, s')) := by
  cases hrs with
  | nil => exact .fault ho
  | cons htu hrs =>
    obtain ⟨l, ho'⟩ := htu
    by_cases hl : l = .closeParen
    · subst hl
      exact .read (hp.wrap hd rfl rfl) hrs
    · simp only [Readers.close, hl, if_false]
      exact .fault ho'

lemma enclosed_within (hdeep : Parse.tooDeep R.limit' d = none) (ho : R.place o o')
    (hus : List.Forall₂ R.Alike us vs) (h : R.Agree (d + 1) us x y) :
    R.Agree d (⟨.openParen, o⟩ :: us) (Readers.enclosed R.limit d o us x)
      (Readers.enclosed R.limit' d o' vs y) := by
  have hd : ∀ m ∈ R.limit', d + 1 ≤ m := le_of_tooDeep hdeep
  have hfirst : Parse.tooDeep R.limit d = none := by
    rcases R.limits with hsame | hnone
    · rw [hsame, hdeep]
    · rw [hnone]
      rfl
  simp only [Readers.enclosed, hfirst, hdeep, closesAtOnce_eq hus]
  split
  · exact .fault ho
  cases h with
  | read hp hrs => exact .close hd hp hrs ho
  | fault ho => exact .fault ho
  | beyond hnone hsome ht ho => exact .beyond hnone hsome (ht.inside (hd _ hsome) rfl) ho

/-- Readers of parentheses agree if what they read inside agrees. -/
lemma enclosed_agree (hd : ∀ m ∈ R.limit', d ≤ m) (ho : R.place o o')
    (hus : List.Forall₂ R.Alike us vs)
    (h : (∀ m ∈ R.limit', d + 1 ≤ m) → R.Agree (d + 1) us x y) :
    R.Agree d (⟨.openParen, o⟩ :: us) (Readers.enclosed R.limit d o us x)
      (Readers.enclosed R.limit' d o' vs y) := by
  cases hdeep : Parse.tooDeep R.limit' d with
  | some m => exact enclosed_beyond hd hdeep ho
  | none => exact enclosed_within hdeep ho hus (h (le_of_tooDeep hdeep))

/-! ### Operands -/

/-- Nothing is read before the token at the front. -/
lemma Agree.stay {l : Lexeme} (a : α) (ho : R.place o o') (hus : List.Forall₂ R.Alike us vs) :
    R.Agree d (⟨l, o⟩ :: us) (.ok (a, ⟨l, o⟩ :: us)) (.ok (a, ⟨l, o'⟩ :: vs)) :=
  .read .refl (.cons (.mk l ho) hus)

/-- One token is read. -/
lemma Agree.one {l : Lexeme} (hopen : l ≠ .openParen) (hclose : l ≠ .closeParen) (a : α)
    (hus : List.Forall₂ R.Alike us vs) : R.Agree d (⟨l, o⟩ :: us) (.ok (a, us)) (.ok (a, vs)) :=
  .read (Passes.refl.next hopen hclose) hus

variable {tier : Tier}

lemma chainFrom_agrees (hl : R.Agrees n d (Readers.link R.stop R.limit tier d)
      (Readers.link R.stop' R.limit' tier d)) (left : Operand) :
    R.Agrees n d (Readers.chainFrom R.stop R.limit tier d left)
      (Readers.chainFrom R.stop' R.limit' tier d left) := by
  intro us vs hn hus
  induction k : us.length using Nat.strongRecOn generalizing us vs left with
  | _ k ih =>
    cases hus with
    | nil =>
      rw [Readers.chainFrom_nil, Readers.chainFrom_nil]
      exact .read .refl .nil
    | @cons t u us vs htu hus =>
      obtain ⟨l, ho⟩ := htu
      rw [List.length_cons] at hn k
      rw [Readers.chainFrom_cons, Readers.chainFrom_cons]
      cases l with
      | arithmetic op =>
        dsimp only
        split
        · have hlink := hl us vs (by omega) hus
          refine Agree.next (by simp) (by simp) (hlink.follow (fun e he => by rw [he])
            (fun e he => by rw [he]) fun right r s hx hy hr hrs => ?_)
          rw [hx, hy]
          exact ih r.length (by omega) _ r s (by omega) hrs rfl
        · exact .stay left ho hus
      | _ => exact .stay left ho hus

lemma chain_agrees (hl : R.Agrees n d (Readers.link R.stop R.limit tier d)
      (Readers.link R.stop' R.limit' tier d)) :
    R.Agrees n d (Readers.chain R.stop R.limit tier d)
      (Readers.chain R.stop' R.limit' tier d) := by
  intro us vs hn hus
  rw [Readers.chain_eq, Readers.chain_eq]
  refine (hl us vs hn hus).follow (fun e he => by rw [he]) (fun e he => by rw [he])
    fun left r s hx hy hr hrs => ?_
  rw [hx, hy]
  exact chainFrom_agrees hl left r s (by omega) hrs

lemma sum_agrees (ho : R.Agrees n d (Readers.operand R.stop R.limit d)
      (Readers.operand R.stop' R.limit' d)) :
    R.Agrees n d (Readers.chain R.stop R.limit .sum d)
      (Readers.chain R.stop' R.limit' .sum d) := by
  have hproducts : R.Agrees n d (Readers.link R.stop R.limit .product d)
      (Readers.link R.stop' R.limit' .product d) := by
    intro us vs hn hus
    rw [Readers.link_product, Readers.link_product]
    exact ho us vs hn hus
  have hsums : R.Agrees n d (Readers.link R.stop R.limit .sum d)
      (Readers.link R.stop' R.limit' .sum d) := by
    intro us vs hn hus
    rw [Readers.link_sum, Readers.link_sum]
    exact chain_agrees hproducts us vs hn hus
  exact chain_agrees hsums

/-- Operands agree inside as many parentheses as the second run allows. -/
lemma operand_agrees (n : ℕ) : ∀ d, (∀ m ∈ R.limit', d ≤ m) →
    R.Agrees n d (Readers.operand R.stop R.limit d) (Readers.operand R.stop' R.limit' d) := by
  induction n with
  | zero =>
    intro d hd us vs hn hus
    obtain rfl : us = [] := List.length_eq_zero_iff.mp (Nat.le_zero.mp hn)
    cases hus
    rw [Readers.operand_nil, Readers.operand_nil]
    exact .fault R.place_stop
  | succ n ih =>
    intro d hd us vs hn hus
    cases hus with
    | nil =>
      rw [Readers.operand_nil, Readers.operand_nil]
      exact .fault R.place_stop
    | @cons t u us vs htu hus =>
      obtain ⟨l, ho⟩ := htu
      rw [List.length_cons] at hn
      cases l with
      | openParen =>
        rw [Readers.operand_enclosed, Readers.operand_enclosed]
        refine enclosed_agree hd ho hus fun hd' => ?_
        exact sum_agrees (ih (d + 1) hd') us vs (by omega) hus
      | path text =>
        rw [Readers.operand_cons, Readers.operand_cons]
        dsimp only
        cases Path.read text with
        | error e => exact .fault (R.place_add e.2 ho)
        | ok p => exact .one (by simp) (by simp) _ hus
      | literal l =>
        rw [Readers.operand_cons, Readers.operand_cons]
        exact .one (by simp) (by simp) _ hus
      | _ =>
        rw [Readers.operand_cons, Readers.operand_cons]
        exact .fault ho

/-! ### Conditions -/

lemma literals_agree (ho : R.place o o') : R.Agrees n d (Readers.literals R.stop o)
    (Readers.literals R.stop' o') := by
  intro us vs hn hus
  induction k : us.length using Nat.strongRecOn generalizing us vs with
  | _ k ih =>
    cases hus with
    | nil => exact .fault R.place_stop
    | @cons t u us vs htu hus =>
      obtain ⟨l, ht⟩ := htu
      rw [Readers.literals_cons, Readers.literals_cons]
      cases l with
      | literal l =>
        cases hus with
        | nil => exact .fault ho
        | @cons t u us vs htu hus =>
          obtain ⟨l', hu⟩ := htu
          simp only [List.length_cons] at hn k
          cases l' with
          | comma =>
            have hrest := ih us.length (by omega) us vs (by omega) hus rfl
            refine Agree.next (by simp) (by simp) (Agree.next (by simp) (by simp) ?_)
            dsimp only
            refine hrest.follow (fun e he => by rw [he]) (fun e he => by rw [he])
              fun ls r s hx hy _ hrs => ?_
            rw [hx, hy]
            exact .read .refl hrs
          | closeBracket =>
            exact Agree.next (by simp) (by simp) (.one (by simp) (by simp) _ hus)
          | _ => exact .fault hu
      | _ => exact .fault ht

lemma listLiteral_agrees (ho : R.place o o') : R.Agrees n d (Readers.listLiteral R.stop o)
    (Readers.listLiteral R.stop' o') := by
  intro us vs hn hus
  cases hus with
  | nil => exact .fault R.place_stop
  | @cons t u us vs htu hus =>
    have hall : List.Forall₂ R.Alike (t :: us) (u :: vs) := .cons htu hus
    obtain ⟨l, -⟩ := htu
    rw [Readers.listLiteral_cons, Readers.listLiteral_cons]
    by_cases hl : l = .closeBracket
    · subst hl
      exact .one (by simp) (by simp) [] hus
    · simp only [hl, if_false]
      exact literals_agree ho _ _ hn hall

lemma argument_agrees (hd : ∀ m ∈ R.limit', d ≤ m) (verb : Verb) :
    R.Agrees n d (Readers.argument R.stop R.limit d verb)
      (Readers.argument R.stop' R.limit' d verb) := by
  intro us vs hn hus
  cases hus with
  | nil => exact .fault R.place_stop
  | @cons t u us vs htu hus =>
    have hall : List.Forall₂ R.Alike (t :: us) (u :: vs) := .cons htu hus
    obtain ⟨l, ho⟩ := htu
    rw [Readers.argument_cons, Readers.argument_cons]
    by_cases hl : l = .openBracket
    · subst hl
      rw [if_pos rfl, if_pos rfl]
      split
      · have hlist := listLiteral_agrees (d := d) ho us vs le_rfl hus
        exact Agree.next (by simp) (by simp) (hlist.map Argument.list)
      · exact .fault ho
    · simp only [hl, if_false]
      exact (sum_agrees (operand_agrees n d hd) _ _ hn hall).map Argument.operand

lemma predicate_agrees (hd : ∀ m ∈ R.limit', d ≤ m) :
    R.Agrees n d (Readers.predicate R.stop R.limit d)
      (Readers.predicate R.stop' R.limit' d) := by
  intro us vs hn hus
  have hsum := sum_agrees (operand_agrees n d hd) us vs hn hus
  rw [Readers.predicate_eq, Readers.predicate_eq]
  refine hsum.follow (fun e he => by rw [he]) (fun e he => by rw [he])
    fun left r s hx hy hr hrs => ?_
  rw [hx, hy]
  cases hrs with
  | nil => exact .fault R.place_stop
  | @cons t u r s htu hrs =>
    obtain ⟨l, ho⟩ := htu
    rw [List.length_cons] at hr
    cases l with
    | relation op =>
      have hright := sum_agrees (operand_agrees n d hd) r s (by omega) hrs
      exact Agree.next (by simp) (by simp) (hright.map fun right => Rule.comparison left op right)
    | verb verb =>
      have hargument := argument_agrees hd verb r s le_rfl hrs
      exact Agree.next (by simp) (by simp) (hargument.map fun a => Rule.predicate left verb a)
    | _ => exact .fault ho

lemma terms_agree (ht : R.Agrees n d (Readers.term R.stop R.limit d)
      (Readers.term R.stop' R.limit' d)) (op : Connective) :
    R.Agrees n d (Readers.terms R.stop R.limit d op)
      (Readers.terms R.stop' R.limit' d op) := by
  intro us vs hn hus
  induction k : us.length using Nat.strongRecOn generalizing us vs with
  | _ k ih =>
    cases hus with
    | nil =>
      rw [Readers.terms_nil, Readers.terms_nil]
      exact .read .refl .nil
    | @cons t u us vs htu hus =>
      obtain ⟨l, ho⟩ := htu
      rw [List.length_cons] at hn k
      rw [Readers.terms_cons, Readers.terms_cons]
      cases l with
      | connective op' =>
        dsimp only
        split
        · have hterm := ht us vs (by omega) hus
          refine Agree.next (by simp) (by simp) (hterm.follow (fun e he => by rw [he])
            (fun e he => by rw [he]) fun first r s hx hy hr hrs => ?_)
          rw [hx, hy]
          have hmore := ih r.length (by omega) r s (by omega) hrs rfl
          exact hmore.map fun more => first :: more
        · exact .fault ho
      | _ => exact .stay _ ho hus

lemma group_agrees (ht : R.Agrees n d (Readers.term R.stop R.limit d)
      (Readers.term R.stop' R.limit' d)) :
    R.Agrees n d (Readers.group R.stop R.limit d) (Readers.group R.stop' R.limit' d) := by
  intro us vs hn hus
  have hterm := ht us vs hn hus
  rw [Readers.group_eq, Readers.group_eq]
  refine hterm.follow (fun e he => by rw [he]) (fun e he => by rw [he])
    fun first r s hx hy hr hrs => ?_
  rw [hx, hy]
  cases hrs with
  | nil => exact .read .refl .nil
  | @cons t u r s htu hrs =>
    have hall : List.Forall₂ R.Alike (t :: r) (u :: s) := .cons htu hrs
    obtain ⟨l, ho⟩ := htu
    cases l with
    | connective op =>
      have hterms := terms_agree ht op _ _ (Nat.le_trans hr hn) hall
      exact hterms.map fun more => Rule.group op (first :: more)
    | _ => exact .stay first ho hrs

/-- Terms agree inside as many parentheses as the second run allows. -/
lemma term_agrees (n : ℕ) : ∀ d, (∀ m ∈ R.limit', d ≤ m) →
    R.Agrees n d (Readers.term R.stop R.limit d) (Readers.term R.stop' R.limit' d) := by
  induction n with
  | zero =>
    intro d hd us vs hn hus
    obtain rfl : us = [] := List.length_eq_zero_iff.mp (Nat.le_zero.mp hn)
    cases hus
    rw [Readers.term_nil, Readers.term_nil]
    exact predicate_agrees hd _ _ le_rfl .nil
  | succ n ih =>
    intro d hd us vs hn hus
    have hpredicate := predicate_agrees hd us vs hn hus
    cases hus with
    | nil =>
      rw [Readers.term_nil, Readers.term_nil]
      exact hpredicate
    | @cons t u us vs htu hus =>
      obtain ⟨l, ho⟩ := htu
      rw [List.length_cons] at hn
      -- the look ahead sees lexemes only, so that both runs take the same branch
      have hsame : Parse.opensOperand 0 us = Parse.opensOperand 0 vs := by
        rw [Grammar.opensOperand_eq, Grammar.opensOperand_eq, lexemes_eq hus]
      by_cases hopen : l = .openParen ∧ Parse.opensOperand 0 us = false
      · obtain ⟨rfl, hlook⟩ := hopen
        rw [Readers.term_enclosed hlook, Readers.term_enclosed (hsame.symm.trans hlook)]
        refine enclosed_agree hd ho hus fun hd' => ?_
        exact group_agrees (ih (d + 1) hd') us vs (by omega) hus
      · rw [Readers.term_plain hopen, Readers.term_plain (hsame ▸ hopen)]
        exact hpredicate

/-! ### Whole rules -/

/-- What the two runs make of a rule. -/
inductive Verdicts (R : Runs) (us : List Token) : Except Fault Rule → Except Fault Rule → Prop
  | accepted {rule : Rule} (h : ∀ m ∈ R.limit', ∀ n ∈ nestings 0 (us.map Token.lexeme), n ≤ m) :
      Verdicts R us (.ok rule) (.ok rule)
  | fault {f : ParseFault} {o o' : ℕ} (ho : R.place o o') :
      Verdicts R us (.error (f, o)) (.error (f, o'))
  | beyond {x : Except Fault Rule} {m : ℕ} {t : Token} {o' : ℕ} (hnone : R.limit = none)
      (hsome : R.limit' = some m) (ht : FirstBeyond m 0 us t) (ho : R.place t.offset o') :
      Verdicts R us x (.error (.nestingTooDeep m, o'))

/-- **Two runs of the parser** accept the same rule, or stop with the same fault, unless the
second one comes to a parenthesis beyond its limit. -/
theorem verdicts (hus : List.Forall₂ R.Alike us vs) :
    R.Verdicts us (Parse.rule R.stop R.limit us) (Parse.rule R.stop' R.limit' vs) := by
  have hgroup := group_agrees (term_agrees us.length 0 fun m _ => Nat.zero_le m) us vs le_rfl hus
  cases hus with
  | nil => exact .fault R.place_zero
  | @cons t u us vs htu hus =>
    rw [Readers.rule_cons, Readers.rule_cons]
    generalize Readers.group R.stop R.limit 0 (t :: us) = x at hgroup ⊢
    generalize Readers.group R.stop' R.limit' 0 (u :: vs) = y at hgroup ⊢
    cases hgroup with
    | fault ho => exact .fault ho
    | beyond hnone hsome ht ho => exact .beyond hnone hsome ht ho
    | read hp hrs =>
      cases hrs with
      | nil =>
        obtain ⟨w, hw, -, hle⟩ := hp
        rw [List.append_nil] at hw
        rw [← hw] at hle
        exact .accepted hle
      | @cons t u r s htu hrs =>
        obtain ⟨l, ho⟩ := htu
        dsimp only
        split
        · exact .fault ho
        · exact .fault ho

end Runs

end RecordRules
