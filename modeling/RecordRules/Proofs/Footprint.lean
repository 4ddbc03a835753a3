import RecordRules.Proofs.RuleLeaves
import RecordRules.Rule.Compile

/-!
What a rule reads of a record. Two records on which the paths of a rule lead to the same
values, or fail with the same errors, cannot be told apart by executing the rule: neither
the outcome nor a line of the trace depends on anything else. A path starts at its root, so
records with the same attributes under the roots of the rule are such records.
-/

namespace RecordRules.Footprint

open ShortCircuit

variable {R S : Record}

/-! ### Paths -/

lemma resolve_text (R : Record) (p : Path) : R.resolve p.text = p.resolve R := by
  unfold Record.resolve Path.parse
  rw [p.read_text]

/-- A path starts with the name that is its root. -/
lemma exists_segments (p : Path) : ∃ ss, p.segments = .attr p.root :: ss := by
  obtain ⟨n, r, ss, -, -, hs⟩ := Segment.exists_of_readAll p.reads
  rw [Path.root, hs]
  exact ⟨ss, rfl⟩

lemma resolve_congr {p : Path} (h : R.read p.root = S.read p.root) :
    p.resolve R = p.resolve S := by
  obtain ⟨ss, hs⟩ := exists_segments p
  unfold Path.resolve
  rw [hs]
  simp only [Path.follow, Path.step, h]

/-! ### Operands -/

lemma operand_congr (e : Operand) (h : ∀ p ∈ e.paths, p.resolve R = p.resolve S) :
    Evaluate.operand R e = Evaluate.operand S e := by
  induction e with
  | path p => exact h p List.mem_cons_self
  | literal l => rfl
  | arithmetic left op right ihl ihr =>
    have hl := ihl fun p hp => h p (List.mem_append_left _ hp)
    have hr := ihr fun p hp => h p (List.mem_append_right _ hp)
    simp only [Evaluate.operand, hl, hr]

lemma argument_congr (a : Argument) (h : ∀ p ∈ a.paths, p.resolve R = p.resolve S) :
    Evaluate.argument R a = Evaluate.argument S a := by
  cases a with
  | operand e => exact operand_congr e h
  | list items => rfl

/-! ### Rules -/

/-- A leaf depends on what its paths lead to, and on no more. -/
lemma leaf_congr (o : StringOrdering) {leaf : Rule} (hleaf : leaf.isLeaf = true)
    (h : ∀ p ∈ leaf.paths, p.resolve R = p.resolve S) : outcome o R leaf = outcome o S leaf := by
  cases leaf with
  | comparison left op right =>
    have hl := operand_congr left fun p hp => h p (List.mem_append_left _ hp)
    have hr := operand_congr right fun p hp => h p (List.mem_append_right _ hp)
    simp only [outcome, Evaluate.comparison, hl, hr]
  | predicate subject verb arg =>
    have hs := operand_congr subject fun p hp => h p (List.mem_append_left _ hp)
    have ha := argument_congr arg fun p hp => h p (List.mem_append_right _ hp)
    simp only [outcome, Evaluate.predicate, hs, ha]
  | group connective children => cases hleaf

lemma execute_congr (x : Executor) (r : Rule) (h : ∀ p ∈ r.paths, p.resolve R = p.resolve S) :
    x.execute r R = x.execute r S := by
  have hleaves : ∀ leaf ∈ r.leaves, outcome x.ordering R leaf = outcome x.ordering S leaf :=
    fun leaf hl => leaf_congr x.ordering (Rule.isLeaf_of_mem_leaves r hl)
      fun p hp => h p (Rule.mem_paths.2 ⟨leaf, hl, hp⟩)
  unfold Executor.execute
  rw [run_congr [] r hleaves]

/-- **Footprint of a rule**: executing a compiled rule gives the same outcome and the same
trace on records that agree on its required fields, and so on records that have the same
attributes under its required roots. -/
theorem execute_eq_of_required (x : Executor) (r : CompiledRule) (R S : Record) :
    ((∀ text ∈ r.requiredFields, R.resolve text = S.resolve text) →
      x.execute r.root R = x.execute r.root S) ∧
    ((∀ name ∈ r.requiredRoots, R.read name = S.read name) →
      x.execute r.root R = x.execute r.root S) := by
  constructor
  · intro h
    apply execute_congr
    intro p hp
    rw [← resolve_text, ← resolve_text]
    exact h p.text (Sorted.mem_ofList.2 (List.mem_map_of_mem hp))
  · intro h
    apply execute_congr
    intro p hp
    exact resolve_congr (h p.root (Sorted.mem_ofList.2 (List.mem_map_of_mem hp)))

lemma readAll_price : Segment.readAll "price".toList = .ok [.attr "price"] := by
  have hn : Segment.readName "price".toList = .ok ("price", []) := by decide
  unfold Segment.readAll
  rw [hn]
  simp only [Segment.readSteps]

/-- A rule on the price cannot tell records with one price and different notes apart. -/
theorem execute_eq_of_required_price :
    ∃ (r : CompiledRule) (R S : Record),
      (∀ text ∈ r.requiredFields, R.resolve text = S.resolve text) ∧
      (∀ name ∈ r.requiredRoots, R.read name = S.read name) ∧
      (R.read "note").isSome ≠ (S.read "note").isSome ∧
      ∀ x : Executor, x.execute r.root R = x.execute r.root S := by
  let price : Path := ⟨"price", [.attr "price"], readAll_price⟩
  let r : CompiledRule := ⟨"price > 1", .comparison (.path price) .gt (.literal (.int 1)), 1⟩
  let R : Record := .listed ["price", "note"] [] [("price", .int 2), ("note", .bool true)]
  let S : Record := .listed ["price"] [] [("price", .int 2)]
  have hf : r.requiredFields = ["price"] := rfl
  have hr : r.requiredRoots = ["price"] := rfl
  have hresolve : ∀ text ∈ r.requiredFields, R.resolve text = S.resolve text := by
    intro text h
    rw [hf, List.mem_singleton] at h
    rw [h, resolve_text R price, resolve_text S price]
    rfl
  have hread : ∀ name ∈ r.requiredRoots, R.read name = S.read name := by
    intro name h
    rw [hr, List.mem_singleton] at h
    rw [h]
    rfl
  refine ⟨r, R, S, hresolve, hread, by decide, fun x => ?_⟩
  exact (execute_eq_of_required x r R S).1 hresolve
end RecordRules.Footprint
