import Mathlib.Data.List.Basic
import RecordRules.Evaluate.Run

/-!
Operands of integers, and their values over all integers.

Arithmetic on 64 bits checks each step. Where all leaves that are evaluated are integers, an
operand that has a value has the exact one, and no value on the way to it was too large. An
operand that has none fails with the fault of a single node: the first one, in the order in
which values are computed, that cannot be computed from what its sides give.
-/

namespace RecordRules

/-! ### Numbers of 64 bits -/

namespace Number

/-- 64 bits hold the number. -/
def Fits (i : Int) : Prop := -0x8000000000000000 ≤ i ∧ i < 0x8000000000000000

lemma fits_toInt (n : Int64) : Fits n.toInt := ⟨n.le_toInt, n.toInt_lt⟩

lemma exists_of_fits {i : Int} (h : Fits i) : ∃ n : Int64, n.toInt = i :=
  ⟨.ofInt i, Int64.toInt_ofInt_of_le (by have := h.1; omega) (by have := h.2; omega)⟩

end Number

open Number (Fits)

/-! ### Nodes -/

namespace Operand

/-- The operands inside an operand and the operand itself, each after those inside it. -/
def nodes : Operand → List Operand
  | path p => [path p]
  | literal l => [literal l]
  | arithmetic left op right => left.nodes ++ right.nodes ++ [arithmetic left op right]

/-- The leaves that are evaluated; those on the right once the left side has a value. -/
def reached (record : Record) : Operand → List Operand
  | path p => [path p]
  | literal l => [literal l]
  | arithmetic left _ right => reached record left ++
    match Evaluate.operand record left with
    | .ok _ => reached record right
    | .error _ => []

/-- The value over all integers, if the leaves have one and nothing is divided by zero. -/
def integer? (record : Record) : Operand → Option Int
  | path p =>
    match p.resolve record with
    | .ok (.int i) => some i.toInt
    | _ => none
  | literal (.int i) => some i.toInt
  | literal _ => none
  | arithmetic left op right =>
    match integer? record left, integer? record right with
    | some a, some b => if op.divides ∧ b = 0 then none else some (op.exact a b)
    | _, _ => none

/-- The node is at fault itself: a path does not lead anywhere, or the sides have exact values
from which the operator has none, or none that 64 bits hold. The quotient of a remainder must
be held as well. -/
inductive Fails (record : Record) : Operand → RuleError → Prop
  | path (p : Path) (err : RuleError) (h : p.resolve record = .error err) :
      Fails record (.path p) err
  | zero (left right : Operand) (op : Arithmetic) (a : Int) (hl : left.integer? record = some a)
      (hr : right.integer? record = some 0) (hop : op.divides = true) :
      Fails record (.arithmetic left op right) (.divisionByZero op)
  | overflow (left right : Operand) (op : Arithmetic) (a b : Int)
      (hl : left.integer? record = some a) (hr : right.integer? record = some b)
      (hop : ¬(op.divides = true ∧ b = 0))
      (h : ¬Fits (op.exact a b) ∨ op = .rem ∧ ¬Fits (Arithmetic.div.exact a b)) :
      Fails record (.arithmetic left op right) (.arithmeticOverflow op)

/-- The node has an exact value, which 64 bits hold, and is not at fault. -/
structure Exact (record : Record) (e : Operand) : Prop where
  value : ∃ k, e.integer? record = some k ∧ Fits k
  sound : ∀ err, ¬e.Fails record err

/-- The error is that of the first node at fault; those before it are exact. -/
def FirstFault (record : Record) (e : Operand) (err : RuleError) : Prop :=
  ∃ before n after, e.nodes = before ++ n :: after ∧ (∀ m ∈ before, m.Exact record) ∧
    n.Fails record err

end Operand

/-! ### One node -/

lemma Arithmetic.onInts_eq_some {op : Arithmetic} {a b n : Int64} : op.onInts a b = some n ↔
    n.toInt = op.exact a.toInt b.toInt ∧
      (op = .rem → Fits (Arithmetic.div.exact a.toInt b.toInt)) := by
  cases op with
  | add | sub | mul | div => simp [onInts, Number.int64?_eq_some]
  | rem =>
    simp only [onInts, Option.bind_eq_some_iff, Number.int64?_eq_some, forall_const]
    constructor
    · rintro ⟨q, hq, hn⟩
      exact ⟨hn, hq ▸ Number.fits_toInt q⟩
    · rintro ⟨hn, hq⟩
      obtain ⟨q, hq⟩ := Number.exists_of_fits hq
      exact ⟨q, hq, hn⟩

lemma Arithmetic.of_onInts_eq_none {op : Arithmetic} {a b : Int64} (h : op.onInts a b = none) :
    ¬Fits (op.exact a.toInt b.toInt) ∨
      op = .rem ∧ ¬Fits (Arithmetic.div.exact a.toInt b.toInt) := by
  by_contra hfits
  rw [not_or, not_not, not_and, not_not] at hfits
  obtain ⟨n, hn⟩ := Number.exists_of_fits hfits.1
  rw [Arithmetic.onInts_eq_some.2 ⟨hn, hfits.2⟩] at h
  cases h

namespace Operand

variable {record : Record} {left right e : Operand} {a b : Int64}

/-- What the operator makes of two integers is the exact value of the node, or its fault. -/
lemma node_exact (op : Arithmetic) (hl : left.integer? record = some a.toInt)
    (hr : right.integer? record = some b.toInt) :
    (∃ n, Evaluate.calculateInts op a b = .ok (.int n) ∧
      (arithmetic left op right).integer? record = some n.toInt ∧
      (arithmetic left op right).Exact record) ∨
    ∃ err, Evaluate.calculateInts op a b = .error err ∧
      (arithmetic left op right).Fails record err := by
  have hzero : (op.divides && b == 0) = true ↔ op.divides = true ∧ b.toInt = 0 := by
    rw [Bool.and_eq_true, beq_iff_eq, ← Int64.toInt_inj, Int64.toInt_zero]
  unfold Evaluate.calculateInts
  by_cases hop : op.divides = true ∧ b.toInt = 0
  · rw [if_pos (hzero.2 hop)]
    exact .inr ⟨_, rfl, .zero left right op _ hl (hop.2 ▸ hr) hop.1⟩
  · rw [if_neg (mt hzero.1 hop)]
    cases hn : op.onInts a b with
    | none =>
      have hover := Arithmetic.of_onInts_eq_none hn
      exact .inr ⟨_, rfl, .overflow left right op _ _ hl hr hop hover⟩
    | some n =>
      obtain ⟨hexact, hquotient⟩ := Arithmetic.onInts_eq_some.1 hn
      have hvalue : (arithmetic left op right).integer? record = some n.toInt := by
        simp only [integer?, hl, hr]
        rw [if_neg hop, hexact]
      refine .inl ⟨n, rfl, hvalue, ⟨_, hvalue, Number.fits_toInt n⟩, fun err hf => ?_⟩
      cases hf with
      | zero _ _ _ _ _ hr' hop' =>
        rw [hr] at hr'
        exact hop ⟨hop', Option.some.inj hr'⟩
      | overflow _ _ _ _ _ hl' hr' _ hover =>
        rw [hl] at hl'
        rw [hr] at hr'
        cases hl'
        cases hr'
        rcases hover with hover | ⟨hrem, hover⟩
        · exact hover (hexact ▸ Number.fits_toInt n)
        · exact hover (hquotient hrem)

/-! ### All nodes -/

/-- The operand has its exact value and all nodes are exact, or it fails with the first
fault. -/
def Settled (record : Record) (e : Operand) : Prop :=
  (∃ i, Evaluate.operand record e = .ok (.int i) ∧ e.integer? record = some i.toInt ∧
    ∀ n ∈ e.nodes, n.Exact record) ∨
  ∃ err, Evaluate.operand record e = .error err ∧ e.FirstFault record err

lemma settled_path (p : Path) (h : (∃ i, p.resolve record = .ok (.int i)) ∨
    ∃ err, p.resolve record = .error err) : (path p).Settled record := by
  rcases h with ⟨i, hi⟩ | ⟨err, herr⟩
  · have hvalue : (path p).integer? record = some i.toInt := by simp only [integer?, hi]
    have hsound (err : RuleError) : ¬(path p).Fails record err := by
      intro hf
      cases hf with
      | path _ _ herr => cases hi.symm.trans herr
    exact .inl ⟨i, hi, hvalue,
      List.forall_mem_singleton.2 ⟨⟨_, hvalue, Number.fits_toInt i⟩, hsound⟩⟩
  · exact .inr ⟨err, herr, [], _, [], rfl, by simp, .path p err herr⟩

lemma settled_int (record : Record) (i : Int64) : (literal (.int i)).Settled record := by
  have hsound (err : RuleError) : ¬(literal (.int i)).Fails record err := nofun
  exact .inl ⟨i, rfl, rfl, List.forall_mem_singleton.2 ⟨⟨_, rfl, Number.fits_toInt i⟩, hsound⟩⟩

lemma settled (h : ∀ leaf ∈ e.reached record,
    (∃ i, Evaluate.operand record leaf = .ok (.int i)) ∨
      ∃ err, Evaluate.operand record leaf = .error err) : e.Settled record := by
  induction e with
  | path p => exact settled_path p (h _ (List.mem_singleton.2 rfl))
  | literal l =>
    rcases h _ (List.mem_singleton.2 rfl) with ⟨i, hi⟩ | ⟨err, herr⟩
    · cases l with
      | int i => exact settled_int record i
      | str | float | bool => cases hi
    · cases herr
  | arithmetic left op right ihl ihr =>
    rw [reached, List.forall_mem_append] at h
    rcases ihl h.1 with ⟨a, ha, hva, hla⟩ | ⟨err, herr, before, n, after, hn, hbefore, hf⟩
    · have hright := h.2
      rw [ha] at hright
      rcases ihr hright with ⟨b, hb, hvb, hlb⟩ | ⟨err, herr, before, n, after, hn, hbefore, hf⟩
      · have hsides : ∀ n ∈ left.nodes ++ right.nodes, n.Exact record :=
          List.forall_mem_append.2 ⟨hla, hlb⟩
        have hrun : Evaluate.operand record (arithmetic left op right) =
            Evaluate.calculateInts op a b := by
          simp only [Evaluate.operand, ha, hb]
          rfl
        rcases node_exact op hva hvb with ⟨n, hn, hvalue, hexact⟩ | ⟨err, herr, hf⟩
        · refine .inl ⟨n, hrun.trans hn, hvalue, List.forall_mem_append.2 ⟨hsides, ?_⟩⟩
          exact List.forall_mem_singleton.2 hexact
        · exact .inr ⟨err, hrun.trans herr, _, _, [], rfl, hsides, hf⟩
      · refine .inr ⟨err, by simp only [Evaluate.operand, ha, herr], left.nodes ++ before, n,
          after ++ [arithmetic left op right], by simp [nodes, hn], ?_, hf⟩
        exact List.forall_mem_append.2 ⟨hla, hbefore⟩
    · exact .inr ⟨err, by simp only [Evaluate.operand, herr], before, n,
        after ++ (right.nodes ++ [arithmetic left op right]), by simp [nodes, hn], hbefore, hf⟩

/-- **Integers are exact**: where every leaf that is evaluated is an integer or a path that
does not lead anywhere, a value of the operand is its exact value, and all exact values on the
way to it fit into 64 bits; an error of the operand is that of the first node at fault. -/
theorem integers_exact (record : Record) (e : Operand)
    (h : ∀ leaf ∈ e.reached record, (∃ i, Evaluate.operand record leaf = .ok (.int i)) ∨
      ∃ err, Evaluate.operand record leaf = .error err) :
    (∀ v, Evaluate.operand record e = .ok v → ∃ i, v = .int i ∧
      e.integer? record = some i.toInt ∧
      ∀ n ∈ e.nodes, ∃ k, n.integer? record = some k ∧ Fits k) ∧
    ∀ err, Evaluate.operand record e = .error err → e.FirstFault record err := by
  rcases settled h with ⟨i, hi, hvalue, hnodes⟩ | ⟨err, herr, hf⟩
  · refine ⟨fun v hv => ?_, fun err herr => ?_⟩
    · cases hi.symm.trans hv
      exact ⟨i, rfl, hvalue, fun n hn => (hnodes n hn).value⟩
    · cases hi.symm.trans herr
  · refine ⟨fun v hv => ?_, fun err' herr' => ?_⟩
    · cases herr.symm.trans hv
    · cases herr.symm.trans herr'
      exact hf

/-- Division and remainder of a negative number; and a sum that is too large, before a string
and a division by zero that are not reached. -/
theorem integers_exact_truncated :
    ∃ (record : Record) (e f : Operand), e.nodes.length = 7 ∧ f.nodes.length = 7 ∧
      Evaluate.operand record e = .ok (.int (-4)) ∧ e.integer? record = some (-4) ∧
      Evaluate.operand record f = .error (.arithmeticOverflow .add) ∧
      f.FirstFault record (.arithmeticOverflow .add) := by
  let record : Record := .listed [] [] []
  let e : Operand := .arithmetic
    (.arithmetic (.literal (.int (-7))) .div (.literal (.int 2))) .add
    (.arithmetic (.literal (.int (-7))) .rem (.literal (.int 2)))
  let f : Operand := .arithmetic
    (.arithmetic (.literal (.int 0x7fffffffffffffff)) .add (.literal (.int 1))) .mul
    (.arithmetic (.literal (.str "s")) .div (.literal (.int 0)))
  have he : Evaluate.operand record e = .ok (.int (-4)) := by rfl
  have hf : Evaluate.operand record f = .error (.arithmeticOverflow .add) := by rfl
  have hint (i : Int64) : (∃ j, Evaluate.operand record (.literal (.int i)) = .ok (.int j)) ∨
      ∃ err, Evaluate.operand record (.literal (.int i)) = .error err := .inl ⟨i, rfl⟩
  have hreached : e.reached record =
      [.literal (.int (-7)), .literal (.int 2), .literal (.int (-7)), .literal (.int 2)] := by rfl
  have hreached' : f.reached record =
      [.literal (.int 0x7fffffffffffffff), .literal (.int 1)] := by rfl
  obtain ⟨hvalue, -⟩ := integers_exact record e (by simp [hreached, hint])
  obtain ⟨-, hfault⟩ := integers_exact record f (by simp [hreached', hint])
  obtain ⟨i, hi, hexact, -⟩ := hvalue _ he
  cases hi
  exact ⟨record, e, f, rfl, rfl, he, hexact, hf, hfault _ hf⟩

end Operand

end RecordRules
