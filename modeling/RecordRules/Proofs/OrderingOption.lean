import RecordRules.Proofs.Calls
import RecordRules.Proofs.RuleLeaves

/-!
What the order of strings bears on. It decides the leaves that ask which of two strings comes
first, and no others: equality is exact under either order, and verbs have their own way to ignore
case. A leaf that it decides has under the order without case the outcome that the small forms of
its strings have under the ordinary order.
-/

namespace RecordRules.OrderingOption

open ShortCircuit

/-- The leaf asks which of two strings comes first. -/
def OrdersStrings (R : Record) : Rule → Prop
  | .comparison left op right => op.isEquality = false ∧
      ∃ a b, Evaluate.operand R left = .ok (.str a) ∧ Evaluate.operand R right = .ok (.str b)
  | _ => False

variable {R : Record} {o o' : StringOrdering} {op : Relation} {left right : Operand} {a b : String}

/-! ### One comparison -/

/-- The order is asked for between two strings, by a relation other than the equalities. -/
lemma compare_congr {v w : Value} (h : op.isEquality = false → ∀ a b, v = .str a → w ≠ .str b) :
    Evaluate.compare o v op w = Evaluate.compare o' v op w := by
  cases v with
  | str a =>
    cases w with
    | str b =>
      have hop : op.isEquality = true := by
        by_contra hne
        exact h (by simpa using hne) a b rfl rfl
      simp only [Evaluate.compare, Evaluate.compareStrings, hop, if_true]
    | bool | int | float | set | list | map | record => rfl
  | int | float => cases w <;> rfl
  | bool | set | list | map | record => rfl

lemma compare_caseInsensitive (hop : op.isEquality = false) :
    Evaluate.compare .caseInsensitive (.str a) op (.str b) =
      Evaluate.compare .ordinal (.str (Text.lowercase a)) op (.str (Text.lowercase b)) := by
  simp only [Evaluate.compare, Evaluate.compareStrings, hop, Bool.false_eq_true, if_false,
    StringOrdering.compare]

lemma comparison_of_operands {v w : Value} (hl : Evaluate.operand R left = .ok v)
    (hr : Evaluate.operand R right = .ok w) :
    Evaluate.comparison o R left op right = Evaluate.compare o v op w := by
  simp only [Evaluate.comparison, hl, hr]

/-! ### Leaves and rules -/

lemma leaf_congr {leaf : Rule} (hleaf : leaf.isLeaf = true) (h : ¬OrdersStrings R leaf) :
    outcome o R leaf = outcome o' R leaf := by
  cases leaf with
  | comparison left op right =>
    simp only [outcome, Evaluate.comparison]
    cases hl : Evaluate.operand R left with
    | error e => rfl
    | ok v =>
      cases hr : Evaluate.operand R right with
      | error e => rfl
      | ok w =>
        refine compare_congr fun hop a b hv hw => h ⟨hop, a, b, ?_, ?_⟩
        · rw [hl, hv]
        · rw [hr, hw]
  | predicate subject verb arg => rfl
  | group connective children => cases hleaf

lemma execute_congr {rule : Rule} (traced : Bool)
    (h : ∀ leaf ∈ rule.leaves, ¬OrdersStrings R leaf) :
    (Executor.mk o traced).execute rule R = (Executor.mk o' traced).execute rule R := by
  have hleaves : ∀ leaf ∈ rule.leaves, outcome o R leaf = outcome o' R leaf :=
    fun leaf hl => leaf_congr (Rule.isLeaf_of_mem_leaves rule hl) (h leaf hl)
  simp only [Executor.execute, run_congr [] rule hleaves]

/-- Two engines that differ in the order of strings evaluate a text alike, if no leaf of the rule
that it compiles to asks for that order. -/
lemma evaluate_congr (e : Engine) {text : String} (traced : Bool)
    (h : ∀ root, Rule.parse e.options.maxDepth text = .ok root →
      ∀ leaf ∈ root.leaves, ¬OrdersStrings R leaf) :
    (Engine.evaluate { e with ordering := o } text R traced).1 =
      (Engine.evaluate { e with ordering := o' } text R traced).1 := by
  obtain ⟨err, -, hf⟩ | ⟨r, hit, -, hp, hf⟩ := Calls.fetch_cases e.cache text
  · rw [Calls.evaluate_error (e := { e with ordering := o }) hf,
      Calls.evaluate_error (e := { e with ordering := o' }) hf]
  · rw [Calls.evaluate_ok (e := { e with ordering := o }) hf,
      Calls.evaluate_ok (e := { e with ordering := o' }) hf]
    have hexecute : (Executor.mk o (traced || e.traced)).execute r.root R =
        (Executor.mk o' (traced || e.traced)).execute r.root R := execute_congr _ (h r.root hp)
    exact congrArg (fun x : Evaluation => { x with cacheHit := hit }) hexecute

/-- **The order of strings is an option of string order alone.** Where no leaf of a rule asks which
of two strings comes first, executing it on a record gives the same outcome and the same trace
under either order, and so does an engine with either. A leaf that asks this of two strings has,
under the order without case, the outcome that their small forms have under the ordinary one. -/
theorem execute_under_either (R : Record) :
    (∀ (rule : Rule) (traced : Bool), (∀ leaf ∈ rule.leaves, ¬OrdersStrings R leaf) →
      (Executor.mk .ordinal traced).execute rule R =
        (Executor.mk .caseInsensitive traced).execute rule R) ∧
    (∀ (e : Engine) (text : String) (traced : Bool),
      (∀ root, Rule.parse e.options.maxDepth text = .ok root →
        ∀ leaf ∈ root.leaves, ¬OrdersStrings R leaf) →
      (Engine.evaluate { e with ordering := .ordinal } text R traced).1 =
        (Engine.evaluate { e with ordering := .caseInsensitive } text R traced).1) ∧
    ∀ (left right : Operand) (op : Relation) (a b : String), op.isEquality = false →
      Evaluate.operand R left = .ok (.str a) → Evaluate.operand R right = .ok (.str b) →
      Evaluate.comparison .caseInsensitive R left op right =
        Evaluate.compare .ordinal (.str (Text.lowercase a)) op (.str (Text.lowercase b)) := by
  refine ⟨fun rule traced h => execute_congr traced h, fun e text traced h =>
    evaluate_congr e traced h, fun left right op a b hop hl hr => ?_⟩
  rw [comparison_of_operands hl hr, compare_caseInsensitive hop]

/-- A capital letter is not the small one under either order, and comes before all small letters
under one of them alone. -/
theorem execute_under_either_capital :
    let R := Record.listed [] [] []
    let rule := Rule.group .and [.comparison (.literal (.str "K")) .ne (.literal (.str "k")),
      .comparison (.literal (.int 1)) .lt (.literal (.int 2))]
    (∀ leaf ∈ rule.leaves, ¬OrdersStrings R leaf) ∧
      (∀ traced, (Executor.mk .ordinal traced).execute rule R =
        (Executor.mk .caseInsensitive traced).execute rule R) ∧
      Evaluate.comparison .ordinal R (.literal (.str "K")) .lt (.literal (.str "a")) = .ok true ∧
      Evaluate.comparison .caseInsensitive R (.literal (.str "K")) .lt (.literal (.str "a")) =
        .ok false := by
  intro R rule
  have hleaves : ∀ leaf ∈ rule.leaves, ¬OrdersStrings R leaf := by
    intro leaf hl
    rcases List.mem_pair.1 hl with rfl | rfl
    · rintro ⟨hop, -⟩
      cases hop
    · rintro ⟨-, a, b, ha, -⟩
      cases ha
  obtain ⟨hexecute, -, hsmall⟩ := execute_under_either R
  refine ⟨hleaves, fun traced => hexecute rule traced hleaves, by decide, ?_⟩
  rw [hsmall (.literal (.str "K")) (.literal (.str "a")) .lt "K" "a" rfl rfl rfl]
  decide

end RecordRules.OrderingOption
