import Mathlib.Data.List.Forall2
import RecordRules.Evaluate.Trace
import RecordRules.Proofs.Digits

/-!
The lines of a trace. A line names the node that it tells of by the way from the root, and then
says what has happened there. The way has no colon in it, and the first colon of a line ends it, so
no two nodes have a line in common.
-/

namespace RecordRules

/-- The position of the node that the event tells of. -/
def Event.position : Event → List ℕ
  | .opened p _ _ => p
  | .judged p _ _ => p
  | .settled p _ _ => p
  | .exhausted p _ => p

namespace Tracing

/-- The way from the root to a position. -/
inductive Labels : List ℕ → String → Prop
  | root : Labels [] "root"
  | child {p : List ℕ} {label : String} (h : Labels p label) (i : ℕ) :
      Labels (p ++ [i]) (label ++ ".children[" ++ toString i ++ "]")

/-- What an event says of its node. -/
inductive Says : Event → String → Prop
  | matched (p : List ℕ) (leaf : Rule) :
      Says (.judged p leaf (.ok true)) (leaf.text ++ " => " ++ "MATCHED")
  | notMatched (p : List ℕ) (leaf : Rule) :
      Says (.judged p leaf (.ok false)) (leaf.text ++ " => " ++ "NOT_MATCHED")
  | failed (p : List ℕ) (leaf : Rule) (e : RuleError) :
      Says (.judged p leaf (.error e))
        (leaf.text ++ " => " ++ ("ERROR " ++ toString e.code ++ " (" ++ e.message ++ ")"))
  | opened (p : List ℕ) (c : Connective) (n : ℕ) :
      Says (.opened p c n) ("开始评估 " ++ c.name ++ " 组 (共 " ++ toString n ++ " 个子节点)")
  | settledAnd (p : List ℕ) (k : ℕ) :
      Says (.settled p .and k) ("AND 短路 - 子节点 " ++ toString k ++ " 不匹配")
  | settledOr (p : List ℕ) (k : ℕ) :
      Says (.settled p .or k) ("OR 短路 - 子节点 " ++ toString k ++ " 匹配")
  | exhaustedAnd (p : List ℕ) : Says (.exhausted p .and) "AND 组全部匹配"
  | exhaustedOr (p : List ℕ) : Says (.exhausted p .or) "OR 组无匹配"

/-- The line that tells of an event. -/
def IsLine (x : Event) (line : String) : Prop :=
  ∃ label words, Labels x.position label ∧ Says x words ∧ line = label ++ ": " ++ words

variable {p q : List ℕ} {x y : Event} {label line : String}

/-! ### Lines are such -/

lemma labels_place (p : List ℕ) : Labels p (Event.place p) := by
  induction p using List.reverseRecOn with
  | nil =>
    rw [Event.place_nil]
    exact .root
  | append_singleton p i ih =>
    rw [Event.place_append_singleton]
    exact .child ih i

lemma says_line (x : Event) :
    ∃ words, Says x words ∧ x.line = Event.place x.position ++ ": " ++ words := by
  cases x with
  | opened p c n => exact ⟨_, .opened p c n, Event.line_opened p c n⟩
  | judged p leaf out =>
    refine ⟨leaf.text ++ " => " ++ Event.verdict out, ?_, Event.line_judged p leaf out⟩
    cases out with
    | error e =>
      rw [Event.verdict_error]
      exact .failed p leaf e
    | ok b =>
      cases b with
      | false =>
        rw [Event.verdict_false]
        exact .notMatched p leaf
      | true =>
        rw [Event.verdict_true]
        exact .matched p leaf
  | settled p c k =>
    cases c with
    | and => exact ⟨_, .settledAnd p k, Event.line_settled_and p k⟩
    | or => exact ⟨_, .settledOr p k, Event.line_settled_or p k⟩
  | exhausted p c =>
    cases c with
    | and => exact ⟨_, .exhaustedAnd p, Event.line_exhausted_and p⟩
    | or => exact ⟨_, .exhaustedOr p, Event.line_exhausted_or p⟩

lemma isLine_line (x : Event) : IsLine x x.line := by
  obtain ⟨words, hsays, hline⟩ := says_line x
  exact ⟨_, words, labels_place x.position, hsays, hline⟩

lemma forall₂_lines (events : List Event) :
    List.Forall₂ IsLine events (events.map Event.line) :=
  List.forall₂_map_right_iff.2 (List.forall₂_same.2 fun x _ => isLine_line x)

/-! ### No two nodes have one -/

/-- The first place of a character parts a text in one way. -/
lemma eq_of_stop {c : Char} {u v s t : List Char} (hu : c ∉ u) (hv : c ∉ v)
    (h : u ++ c :: s = v ++ c :: t) : u = v ∧ s = t := by
  induction u generalizing v with
  | nil =>
    cases v with
    | nil => exact ⟨rfl, (List.cons.inj h).2⟩
    | cons d v => exact absurd (List.mem_cons.2 (.inl (List.cons.inj h).1)) hv
  | cons d u ih =>
    cases v with
    | nil => exact absurd (List.mem_cons.2 (.inl (List.cons.inj h).1.symm)) hu
    | cons e v =>
      rw [List.mem_cons, not_or] at hu hv
      obtain ⟨rfl, htail⟩ := List.cons.inj h
      obtain ⟨rfl, hrest⟩ := ih hu.2 hv.2 htail
      exact ⟨rfl, hrest⟩

/-- One step on the way to a position. -/
def step (stem : List Char) (i : ℕ) : List Char := stem ++ (Number.digits i ++ [']'])

lemma step_ne_nil (stem : List Char) (i : ℕ) : step stem i ≠ [] := by
  simp [step]

/-- The number of a step ends in the bracket after it, so the steps can be told one by one. -/
lemma eq_of_steps {stem : List Char} (h : p.flatMap (step stem) = q.flatMap (step stem)) :
    p = q := by
  induction p generalizing q with
  | nil =>
    cases q with
    | nil => rfl
    | cons j q =>
      rw [List.flatMap_nil, List.flatMap_cons] at h
      exact absurd (List.append_eq_nil_iff.1 h.symm).1 (step_ne_nil stem j)
  | cons i p ih =>
    cases q with
    | nil =>
      rw [List.flatMap_nil, List.flatMap_cons] at h
      exact absurd (List.append_eq_nil_iff.1 h).1 (step_ne_nil stem i)
    | cons j q =>
      simp only [List.flatMap_cons, step, List.append_assoc, List.append_cancel_left_eq,
        List.singleton_append] at h
      have hi : ']' ∉ Number.digits i := Number.not_mem_digits rfl i
      have hj : ']' ∉ Number.digits j := Number.not_mem_digits rfl j
      obtain ⟨hij, hpq⟩ := eq_of_stop hi hj h
      rw [Number.digits_injective hij, ih hpq]

lemma label_eq (h : Labels p label) :
    label.toList = "root".toList ++ p.flatMap (step ".children[".toList) := by
  induction h with
  | root => rfl
  | @child p label h i ih =>
    have hi : (toString i).toList = Number.digits i := Nat.toList_repr
    rw [String.toList_append, String.toList_append, String.toList_append, ih, hi,
      List.flatMap_append, List.flatMap_singleton, step]
    simp only [List.append_assoc]
    rfl

lemma not_mem_label (h : Labels p label) : ':' ∉ label.toList := by
  rw [label_eq h, List.mem_append, List.mem_flatMap]
  rintro (h | ⟨i, -, h⟩)
  · exact absurd h (by decide)
  · rw [step, List.mem_append, List.mem_append] at h
    rcases h with h | h | h
    · exact absurd h (by decide)
    · exact Number.not_mem_digits rfl i h
    · exact absurd h (by decide)

/-- No two nodes have a line in common. -/
lemma position_of_isLine (hx : IsLine x line) (hy : IsLine y line) :
    x.position = y.position := by
  obtain ⟨s, u, hs, -, rfl⟩ := hx
  obtain ⟨t, v, ht, -, h⟩ := hy
  have hlist := congrArg String.toList h
  simp only [String.toList_append, List.append_assoc] at hlist
  obtain ⟨hlabel, -⟩ := eq_of_stop (not_mem_label hs) (not_mem_label ht) hlist
  rw [label_eq hs, label_eq ht] at hlabel
  exact eq_of_steps (List.append_cancel_left hlabel)

end Tracing

end RecordRules
