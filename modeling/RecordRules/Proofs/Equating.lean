import Mathlib.Data.Bool.Basic
import RecordRules.Evaluate.Apply
import RecordRules.Evaluate.Compare
import RecordRules.Path.Resolve

/-!
One notion of equality.

Rules ask whether values are equal in four ways: by `==` and `!=`, by membership in a list or
a set, by the keys of a map, and by an index in a path. Comparisons have cases of their own
for integers, other numbers and strings, and fail on values of different kinds where the
other three just find them different. They agree all the same: `==` holds of two values
exactly when they are structurally equal.
-/

namespace RecordRules

/-- The kinds have an equality: they are one kind, or both are of numbers. -/
def Kind.Comparable (a b : Kind) : Prop := a = b ∨ a.isNumeric = true ∧ b.isNumeric = true

namespace Evaluate

variable {ordering : StringOrdering} {x y : Value} {op : Relation} {items : List Value}
  {entries : List (Value × Value)} {b : Bool}

/-! ### Comparison -/

lemma holds_equality (h : op.isEquality = true) (o : Ordering) :
    op.holds o = ((o == .eq) == (op == .eq)) := by
  cases op with
  | eq | ne => cases o <;> rfl
  | lt | le | gt | ge => cases h

lemma compareInts_equality (h : op.isEquality = true) (a b : Int64) :
    op.holds (compareInts a b) = ((a == b) == (op == .eq)) := by
  have hab : (compareInts a b == .eq) = (a == b) := by
    rw [Bool.eq_iff_iff, beq_iff_eq, beq_iff_eq, ← Int64.toInt_inj]
    unfold compareInts
    split
    · simp
      omega
    · split <;> simp_all
  rw [holds_equality h, hab]

lemma order?_eq (a b : Float) : (Number.order? a b == some .eq) = (a == b) := by
  unfold Number.order?
  cases a == b with
  | true => rfl
  | false =>
    rw [if_neg Bool.false_ne_true]
    split
    · rfl
    · split <;> rfl

lemma compareFloats_equality (h : op.isEquality = true) (a b : Float) :
    compareFloats op a b = ((a == b) == (op == .eq)) := by
  rw [← order?_eq]
  unfold compareFloats
  cases Number.order? a b with
  | some o => exact holds_equality h o
  | none =>
    -- what is not a number differs from everything
    cases op with
    | eq | ne => rfl
    | lt | le | gt | ge => cases h

/-- On values whose kinds have an equality it is the structural one. -/
lemma compare_equality (h : op.isEquality = true) (hk : x.kind.Comparable y.kind) :
    compare ordering x op y = .ok (x.same y == (op == .eq)) := by
  cases x <;> cases y
  case int.int a b => exact congrArg Except.ok (compareInts_equality h a b)
  case int.float | float.int | float.float =>
    exact congrArg Except.ok (compareFloats_equality h _ _)
  case str.str => exact congrArg Except.ok (if_pos h)
  case bool.bool | set.set | list.list | map.map | record.record => simp [compare, h]; rfl
  all_goals simp [Kind.Comparable, Kind.isNumeric, Value.kind] at hk

lemma comparable_of_compare (h : compare ordering x op y = .ok b) :
    x.kind.Comparable y.kind := by
  cases x <;> cases y <;>
    first | exact .inl rfl | exact .inr ⟨rfl, rfl⟩ | simp [compare, Value.kind] at h

lemma comparable_of_same (h : x.same y = true) : x.kind.Comparable y.kind := by
  cases x <;> cases y <;> first | exact .inl rfl | exact .inr ⟨rfl, rfl⟩ | cases h

lemma compare_eq_true : compare ordering x .eq y = .ok true ↔ x.same y = true := by
  constructor
  · intro h
    rw [compare_equality rfl (comparable_of_compare h)] at h
    simpa using h
  · intro h
    rw [compare_equality rfl (comparable_of_same h), h]
    rfl

/-! ### Membership and keys -/

lemma any_eq_exists (items : List Value) (y : Value) :
    (items.any fun c => c.same y) = true ↔ ∃ c ∈ items, compare ordering c .eq y = .ok true := by
  simp only [List.any_eq_true, compare_eq_true]

/-- A verb that is neither negated nor ignores case is its test. -/
lemma apply_eq_test {verb : Verb} (hn : verb.isNegated = false) (hi : verb.ignoresCase = false) :
    apply x verb y = test verb x y := by
  unfold apply
  rw [hn, hi]
  cases test verb x y <;> simp [Except.map]

lemma testAmong_plain {verb : Verb} (hc : x.kind.isCollection = false) (hr : x.kind ≠ .record)
    (hy : y = .list items ∨ y = .set items) :
    testAmong verb x y = .ok (items.any fun c => c.same x) := by
  rcases hy with rfl | rfl <;> simp [testAmong, hc, hr]

lemma testContains_elements {verb : Verb} (hx : x = .list items ∨ x = .set items) :
    testContains verb x y = .ok (items.any fun c => c.same y) := by
  rcases hx with rfl | rfl <;> rfl

lemma step_key (path : String) (key : Key) :
    Path.step path (.index key) (.map entries) =
      match entries.find? fun e => e.1.same key.value with
      | some e => .ok e.2
      | none => .error (.keyNotFound path key) := by
  cases key <;> rfl

lemma exists_step_key (path : String) (key : Key) :
    (∃ v, Path.step path (.index key) (.map entries) = .ok v) ↔
      (entries.any fun e => e.1.same key.value) = true := by
  rw [step_key, List.any_eq_true, ← List.find?_isSome]
  cases entries.find? fun e => e.1.same key.value <;> simp

/-- An index leads to the value of the first entry with its key. -/
lemma step_key_ok {path : String} {key : Key} {v : Value} :
    Path.step path (.index key) (.map entries) = .ok v ↔
      ∃ before e after, entries = before ++ e :: after ∧ e.2 = v ∧
        e.1.same key.value = true ∧ ∀ f ∈ before, f.1.same key.value = false := by
  have hfind : Path.step path (.index key) (.map entries) = .ok v ↔
      ∃ e, (entries.find? fun e => e.1.same key.value) = some e ∧ e.2 = v := by
    rw [step_key]
    cases entries.find? fun e => e.1.same key.value <;> simp
  rw [hfind]
  constructor
  · rintro ⟨e, he, hv⟩
    obtain ⟨hkey, before, after, hall, hbefore⟩ := List.find?_eq_some_iff_append.1 he
    exact ⟨before, e, after, hall, hv, hkey, by simpa using hbefore⟩
  · rintro ⟨before, e, after, hall, hv, hkey, hbefore⟩
    refine ⟨e, List.find?_eq_some_iff_append.2 ⟨hkey, before, after, hall, ?_⟩, hv⟩
    simpa using hbefore

/-- **One notion of equality.** Where `==` has an answer it is that of structural equality,
and `!=` has the opposite one. A plain value is in a list or a set, and the list or set
contains a value of any kind, exactly when `==` holds of it and some element; neither test
fails. A map contains a key exactly when an index with that key leads somewhere, and it leads
to the value of the first entry whose key is equal to it by `==`. -/
theorem equality_agrees (ordering : StringOrdering) :
    (∀ (x y : Value) (b : Bool), compare ordering x .eq y = .ok b →
      compare ordering x .ne y = .ok (!b) ∧ b = x.same y) ∧
    (∀ (items : List Value) (c : Value), c = .list items ∨ c = .set items →
      (∀ x : Value, x.kind.isCollection = false → x.kind ≠ .record →
        ∃ b, apply x (.among false false) c = .ok b ∧
          (b = true ↔ ∃ i ∈ items, compare ordering i .eq x = .ok true)) ∧
      ∀ y : Value, ∃ b, apply c (.contains false false) y = .ok b ∧
        (b = true ↔ ∃ i ∈ items, compare ordering i .eq y = .ok true)) ∧
    ∀ (entries : List (Value × Value)) (key : Key) (path : String),
      (∃ b, apply (.map entries) (.contains false false) key.value = .ok b ∧
        (b = true ↔ ∃ v, Path.step path (.index key) (.map entries) = .ok v)) ∧
      ∀ v, Path.step path (.index key) (.map entries) = .ok v ↔
        ∃ before e after, entries = before ++ e :: after ∧ e.2 = v ∧
          compare ordering e.1 .eq key.value = .ok true ∧
          ∀ f ∈ before, compare ordering f.1 .eq key.value ≠ .ok true := by
  refine ⟨?operators, ?members, ?keys⟩
  case operators =>
    intro x y b h
    have hk := comparable_of_compare h
    rw [compare_equality rfl hk] at h
    cases h
    rw [compare_equality rfl hk]
    cases x.same y <;> exact ⟨rfl, rfl⟩
  case members =>
    intro items c hc
    refine ⟨fun x hx hr => ⟨_, ?_, any_eq_exists items x⟩, fun y => ⟨_, ?_, any_eq_exists items y⟩⟩
    · rw [apply_eq_test rfl rfl]
      exact testAmong_plain hx hr hc
    · rw [apply_eq_test rfl rfl]
      exact testContains_elements hc
  case keys =>
    intro entries key path
    simp only [ne_eq, compare_eq_true, Bool.not_eq_true]
    refine ⟨⟨_, apply_eq_test rfl rfl, ?_⟩, fun v => step_key_ok⟩
    exact (exists_step_key path key).symm

/-- Next to an element of another kind and a key that only widening makes equal. -/
theorem equality_agrees_widened :
    ∃ (items : List Value) (entries : List (Value × Value)),
      items = [.str "1", .float 1.0] ∧ entries = [(.float 1.0, .str "a"), (.int 1, .str "b")] ∧
      compare .ordinal (.float 1.0) .ne (.int 1) = .ok false ∧
      apply (.int 1) (.among false false) (.set items) = .ok true ∧
      apply (.set items) (.contains false false) (.bool true) = .ok false ∧
      apply (.map entries) (.contains false false) (.int 1) = .ok true ∧
      Path.step "m[1]" (.index (.int 1)) (.map entries) = .ok (.str "a") := by
  let items : List Value := [.str "1", .float 1.0]
  let entries : List (Value × Value) := [(.float 1.0, .str "a"), (.int 1, .str "b")]
  have hone : compare .ordinal (.float 1.0) .eq (.int 1) = .ok true := rfl
  obtain ⟨operators, members, keys⟩ := equality_agrees .ordinal
  obtain ⟨among, contains⟩ := members items (.set items) (.inr rfl)
  obtain ⟨b, hb, hin⟩ := among (.int 1) rfl (by decide)
  obtain ⟨c, hc, hnot⟩ := contains (.bool true)
  obtain ⟨⟨d, hd, hkey⟩, hstep⟩ := keys entries (.int 1) "m[1]"
  have hread : Path.step "m[1]" (.index (.int 1)) (.map entries) = .ok (.str "a") :=
    (hstep _).2 ⟨[], _, _, rfl, rfl, hone, by simp⟩
  have hb' : b = true := hin.2 ⟨.float 1.0, by simp [items], hone⟩
  have hc' : c = false := by
    rw [← Bool.not_eq_true, hnot]
    rintro ⟨i, hi, h⟩
    simp only [items, List.mem_cons, List.not_mem_nil, or_false] at hi
    rcases hi with rfl | rfl <;> cases h
  refine ⟨items, entries, rfl, rfl, (operators _ _ _ hone).1, hb' ▸ hb, hc' ▸ hc, ?_, hread⟩
  rw [hkey.2 ⟨_, hread⟩] at hd
  exact hd

end Evaluate

end RecordRules
