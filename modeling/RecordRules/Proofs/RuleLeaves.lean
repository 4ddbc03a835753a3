import RecordRules.Proofs.ShortCircuit

/-!
The leaves of a rule: its comparisons and predicates from left to right. The paths of a rule are
those of its leaves, and so is all that an evaluation depends on: runs that judge each leaf alike,
on whatever records and under whatever order of strings, give the same events and the same outcome.
-/

namespace RecordRules

namespace Rule

mutual

def leaves : Rule → List Rule
  | .comparison left op right => [.comparison left op right]
  | .predicate subject verb argument => [.predicate subject verb argument]
  | .group _ children => childLeaves children
termination_by structural r => r

def childLeaves : List Rule → List Rule
  | [] => []
  | r :: rs => leaves r ++ childLeaves rs
termination_by structural rs => rs

end

mutual

theorem isLeaf_of_mem_leaves {leaf : Rule} (r : Rule) (h : leaf ∈ r.leaves) :
    leaf.isLeaf = true := by
  cases r with
  | comparison | predicate =>
    rw [List.mem_singleton.1 h]
    rfl
  | group connective children => exact isLeaf_of_mem_childLeaves children h
termination_by structural r

theorem isLeaf_of_mem_childLeaves {leaf : Rule} (rs : List Rule) (h : leaf ∈ childLeaves rs) :
    leaf.isLeaf = true := by
  cases rs with
  | nil => cases h
  | cons r rs =>
    rcases List.mem_append.1 h with h | h
    · exact isLeaf_of_mem_leaves r h
    · exact isLeaf_of_mem_childLeaves rs h
termination_by structural rs

end

mutual

theorem paths_eq (r : Rule) : r.paths = r.leaves.flatMap paths := by
  cases r with
  | comparison | predicate => exact (List.flatMap_singleton paths _).symm
  | group connective children => exact childPaths_eq children
termination_by structural r

theorem childPaths_eq (rs : List Rule) : childPaths rs = (childLeaves rs).flatMap paths := by
  cases rs with
  | nil => rfl
  | cons r rs => rw [childPaths, paths_eq r, childPaths_eq rs, childLeaves, List.flatMap_append]
termination_by structural rs

end

mutual

theorem leafCount_eq (r : Rule) : r.leafCount = r.leaves.length := by
  cases r with
  | comparison | predicate => rfl
  | group connective children => exact childLeafCount_eq children
termination_by structural r

theorem childLeafCount_eq (rs : List Rule) : childLeafCount rs = (childLeaves rs).length := by
  cases rs with
  | nil => rfl
  | cons r rs =>
    rw [childLeafCount, leafCount_eq r, childLeafCount_eq rs, childLeaves, List.length_append]
termination_by structural rs

end

lemma mem_paths {r : Rule} {p : Path} : p ∈ r.paths ↔ ∃ leaf ∈ r.leaves, p ∈ leaf.paths := by
  rw [paths_eq, List.mem_flatMap]

end Rule

namespace ShortCircuit

variable {o o' : StringOrdering} {R S : Record}

mutual

/-- Runs that judge the leaves alike are the same. -/
theorem run_congr (position : List ℕ) (r : Rule)
    (h : ∀ leaf ∈ r.leaves, outcome o R leaf = outcome o' S leaf) :
    Evaluate.run o R position r = Evaluate.run o' S position r := by
  cases r with
  | comparison | predicate =>
    have hleaf := h _ List.mem_cons_self
    simp only [outcome] at hleaf
    simp only [Evaluate.run, hleaf]
  | group connective children =>
    simp only [Evaluate.run, runChildren_congr position connective 0 children h]
termination_by structural r

theorem runChildren_congr (position : List ℕ) (connective : Connective) (i : ℕ) (rs : List Rule)
    (h : ∀ leaf ∈ Rule.childLeaves rs, outcome o R leaf = outcome o' S leaf) :
    Evaluate.runChildren o R position connective i rs =
      Evaluate.runChildren o' S position connective i rs := by
  cases rs with
  | nil => rfl
  | cons r rs =>
    have hr := run_congr (position ++ [i]) r fun leaf hl => h leaf (List.mem_append_left _ hl)
    have hrs := runChildren_congr position connective (i + 1) rs
      fun leaf hl => h leaf (List.mem_append_right _ hl)
    simp only [Evaluate.runChildren, hr, hrs]
termination_by structural rs

end

end ShortCircuit

end RecordRules
