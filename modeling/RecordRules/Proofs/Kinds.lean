import RecordRules.Proofs.Footprint
import RecordRules.Proofs.ShortCircuit

/-!
What the kinds of values decide. An operand has a kind as it has a value: a path that of what it
leads to, a sum or product that of its result. Kinds tell whether an operator takes its operands,
and what is at fault if it does not. Evaluation keeps to that, unless arithmetic fails on the
numbers themselves.
-/

namespace RecordRules

/-- What can be wrong with the kinds of the operands of an operator. -/
inductive TypeFault where
  | mismatch (operator : Operator) (expected : Expected) (actual : Kind)
  | unsupported (operator : Operator) (kind : Kind)

def TypeFault.error : TypeFault → RuleError
  | mismatch operator expected actual => .typeMismatch operator expected actual
  | unsupported operator kind => .invalidOperator operator kind

/-- The numbers are at fault, which were of the right kinds. -/
def RuleError.isNumerical : RuleError → Bool
  | divisionByZero _ | arithmeticOverflow _ => true
  | _ => false

namespace Kinds

open Evaluate (testStrs testAmong testSize)
open ShortCircuit (outcome)

/-! ### Operators on kinds -/

/-- The kind of a result: integers stay integers, and a floating-point operand widens. -/
def calculate (a : Kind) (op : Arithmetic) (b : Kind) : Except TypeFault Kind :=
  if a.isNumeric && b.isNumeric then .ok (if a = .int ∧ b = .int then .int else .float)
  else if a = b then .error (.unsupported (.arithmetic op) a)
  else .error (.mismatch (.arithmetic op) .numeric (if a.isNumeric then b else a))

/-- Numbers compare with numbers, and other values with those of their kind; of these only
strings have an order. -/
def compare (a : Kind) (op : Relation) (b : Kind) : Except TypeFault Unit :=
  if a.isNumeric && b.isNumeric then .ok ()
  else if a = b then
    if a = .str ∨ op.isEquality then .ok () else .error (.unsupported (.relation op) a)
  else .error (.mismatch (.relation op) (.kind a) b)

def want (verb : Verb) (expected actual : Kind) : Except TypeFault Unit :=
  if actual = expected then .ok () else .error (.mismatch (.verb verb) (.kind expected) actual)

/-- Two strings; the subject is looked at first. -/
def wantStrs (verb : Verb) (subject argument : Kind) : Except TypeFault Unit :=
  (want verb .str subject).bind fun _ => want verb .str argument

/-- A list or a set, and something that is neither a collection nor a record. -/
def wantMember (verb : Verb) (subject argument : Kind) : Except TypeFault Unit :=
  if argument = .set ∨ argument = .list then
    if subject.isCollection || subject == .record then .error (.unsupported (.verb verb) subject)
    else .ok ()
  else .error (.mismatch (.verb verb) (.kind .list) argument)

/-- A collection and an integer. -/
def wantSize (verb : Verb) (subject argument : Kind) : Except TypeFault Unit :=
  if subject.isCollection then want verb .int argument
  else .error (.mismatch (.verb verb) (.kind .list) subject)

def apply (subject : Kind) (verb : Verb) (argument : Kind) : Except TypeFault Unit :=
  match verb with
  | .contains _ _ => if subject.isCollection then .ok () else wantStrs verb subject argument
  | .startsWith _ _ | .endsWith _ _ | .equals _ => wantStrs verb subject argument
  | .among _ _ => wantMember verb subject argument
  | .size _ => wantSize verb subject argument

/-! ### Leaves on kinds -/

section

variable (kindOf : Path → Kind)

/-- The kind of an operand from those of its paths, or the first fault. -/
def operand : Operand → Except TypeFault Kind
  | .path p => .ok (kindOf p)
  | .literal l => .ok l.value.kind
  | .arithmetic left op right =>
    (operand left).bind fun a => (operand right).bind fun b => calculate a op b

def argument : Argument → Except TypeFault Kind
  | .operand e => operand kindOf e
  | .list _ => .ok .list

/-- What is wrong with a leaf, from the kinds of its paths. -/
def leaf : Rule → Except TypeFault Unit
  | .comparison left op right =>
    (operand kindOf left).bind fun a => (operand kindOf right).bind fun b => compare a op b
  | .predicate subject verb arg =>
    (operand kindOf subject).bind fun s => (argument kindOf arg).bind fun a => apply s verb a
  | .group _ _ => .ok ()

end

/-! ### Answers and errors by kind -/

/-- An outcome without its answer. -/
def faults (x : Except RuleError Bool) : Except RuleError Unit := x.map fun _ => ()

/-- What kinds say, as an outcome without an answer. -/
def said (u : Except TypeFault Unit) : Except RuleError Unit := u.mapError TypeFault.error

lemma compare_kinds (o : StringOrdering) (v : Value) (op : Relation) (w : Value) :
    faults (Evaluate.compare o v op w) = said (compare v.kind op w.kind) := by
  cases v with
  | int | float | str => cases w <;> rfl
  | bool | set | list | map | record => cases w <;> cases op <;> rfl

lemma testStrs_kinds (verb : Verb) (test : String → String → Bool) (s a : Value) :
    faults (testStrs verb test s a) = said (wantStrs verb s.kind a.kind) := by
  cases s with
  | str => cases a <;> rfl
  | bool | int | float | set | list | map | record => rfl

lemma testAmong_kinds (verb : Verb) (s a : Value) :
    faults (testAmong verb s a) = said (wantMember verb s.kind a.kind) := by
  cases a with
  | set | list => cases s <;> rfl
  | bool | int | float | str | map | record => rfl

lemma testSize_kinds (verb : Verb) (op : Relation) (s a : Value) :
    faults (testSize verb op s a) = said (wantSize verb s.kind a.kind) := by
  cases s with
  | set | list | map => cases a <;> rfl
  | bool | int | float | str | record => rfl

lemma test_kinds (verb : Verb) (s a : Value) :
    faults (Evaluate.test verb s a) = said (apply s.kind verb a.kind) := by
  cases verb with
  | contains n i =>
    cases s with
    | str t => exact testStrs_kinds (.contains n i) Text.contains (.str t) a
    | set | list | map | bool | int | float | record => rfl
  | startsWith n i => exact testStrs_kinds (.startsWith n i) Text.startsWith s a
  | endsWith n i => exact testStrs_kinds (.endsWith n i) Text.endsWith s a
  | equals n => exact testStrs_kinds (.equals n) (· == ·) s a
  | among n i => exact testAmong_kinds (.among n i) s a
  | size op => exact testSize_kinds (.size op) op s a

/-- Small letters keep the kinds, and negation keeps the errors. -/
lemma apply_kinds (s : Value) (verb : Verb) (a : Value) :
    faults (Evaluate.apply s verb a) = said (apply s.kind verb a.kind) := by
  have negated {x : Except RuleError Bool} (g : Bool → Bool) : faults (x.map g) = faults x := by
    cases x <;> rfl
  unfold Evaluate.apply
  rw [negated]
  split
  · rw [test_kinds, Value.kind_foldCase, Value.kind_foldCase]
  · exact test_kinds verb s a

/-! ### Evaluation -/

variable {α β γ δ : Type}

/-- The outcome is what the kinds say, a value of which they see `f` or a fault, unless the
numbers are at fault. -/
inductive Keeps (f : α → β) : Except RuleError α → Except TypeFault β → Prop
  | value (a : α) : Keeps f (.ok a) (.ok (f a))
  | fault (t : TypeFault) : Keeps f (.error t.error) (.error t)
  | numbers {e : RuleError} (h : e.isNumerical = true) (k : Except TypeFault β) :
      Keeps f (.error e) k

namespace Keeps

lemma bind {f : α → β} {g : γ → δ} {x : Except RuleError α} {k : Except TypeFault β}
    (h : Keeps f x k) {F : α → Except RuleError γ} {G : β → Except TypeFault δ}
    (hF : ∀ a, Keeps g (F a) (G (f a))) : Keeps g (x.bind F) (k.bind G) := by
  cases h with
  | value a => exact hF a
  | fault t => exact .fault t
  | numbers he => exact .numbers he _

lemma of_faults {x : Except RuleError Bool} {u : Except TypeFault Unit}
    (h : faults x = said u) : Keeps (fun _ => ()) x u := by
  cases x with
  | ok b =>
    cases u with
    | ok => exact .value b
    | error t => cases h
  | error e =>
    cases u with
    | ok => cases h
    | error t =>
      cases h
      exact .fault t

/-- Two outcomes that keep to the same kinds are both values or the same fault, unless one of
them is a fault of numbers. -/
lemma agree {f : α → γ} {g : β → γ} {x : Except RuleError α} {y : Except RuleError β}
    {k : Except TypeFault γ} (hx : Keeps f x k) (hy : Keeps g y k)
    (hnx : ∀ e, x = .error e → e.isNumerical = false)
    (hny : ∀ e, y = .error e → e.isNumerical = false) :
    (∃ a b, x = .ok a ∧ y = .ok b) ∨
      ∃ t : TypeFault, x = .error t.error ∧ y = .error t.error := by
  have no {e : RuleError} (h : e.isNumerical = true) (h' : e.isNumerical = false) : False := by
    rw [h] at h'
    cases h'
  cases hx with
  | numbers he => exact (no he (hnx _ rfl)).elim
  | value a =>
    generalize hk : Except.ok (f a) = k at hy
    cases hy with
    | value b => exact .inl ⟨a, b, rfl, rfl⟩
    | fault => cases hk
    | numbers he => exact (no he (hny _ rfl)).elim
  | fault t =>
    cases hy with
    | fault => exact .inr ⟨t, rfl, rfl⟩
    | numbers he => exact (no he (hny _ rfl)).elim

end Keeps

lemma calculateInts_keeps (op : Arithmetic) (a b : Int64) :
    Keeps Value.kind (Evaluate.calculateInts op a b) (.ok Kind.int) := by
  unfold Evaluate.calculateInts
  split
  · exact .numbers rfl _
  · split
    · next n _ => exact Keeps.value (Value.int n)
    · exact .numbers rfl _

lemma calculateFloats_keeps (op : Arithmetic) (x y : Float) :
    Keeps Value.kind (Evaluate.calculateFloats op x y) (.ok Kind.float) := by
  unfold Evaluate.calculateFloats
  split
  · exact .numbers rfl _
  · dsimp only
    split
    · exact .numbers rfl _
    · exact Keeps.value (Value.float _)

lemma calculate_keeps (v : Value) (op : Arithmetic) (w : Value) :
    Keeps Value.kind (Evaluate.calculate v op w) (calculate v.kind op w.kind) := by
  cases v with
  | int a =>
    cases w with
    | int b => exact calculateInts_keeps op a b
    | float y => exact calculateFloats_keeps op _ y
    | bool | str | set | list | map | record => exact .fault (.mismatch ..)
  | float x =>
    cases w with
    | int b => exact calculateFloats_keeps op x _
    | float y => exact calculateFloats_keeps op x y
    | bool | str | set | list | map | record => exact .fault (.mismatch ..)
  | bool | str | set | list | map | record =>
    cases w <;> first | exact .fault (.unsupported ..) | exact .fault (.mismatch ..)

lemma arithmetic_eq (R : Record) (left : Operand) (op : Arithmetic) (right : Operand) :
    Evaluate.operand R (.arithmetic left op right) =
      (Evaluate.operand R left).bind fun a =>
        (Evaluate.operand R right).bind fun b => Evaluate.calculate a op b := by
  rw [Evaluate.operand]
  cases Evaluate.operand R left with
  | error e => rfl
  | ok a => cases Evaluate.operand R right <;> rfl

lemma comparison_eq (o : StringOrdering) (R : Record) (left : Operand) (op : Relation)
    (right : Operand) :
    Evaluate.comparison o R left op right =
      (Evaluate.operand R left).bind fun a =>
        (Evaluate.operand R right).bind fun b => Evaluate.compare o a op b := by
  unfold Evaluate.comparison
  cases Evaluate.operand R left with
  | error e => rfl
  | ok a => cases Evaluate.operand R right <;> rfl

lemma predicate_eq (R : Record) (subject : Operand) (verb : Verb) (arg : Argument) :
    Evaluate.predicate R subject verb arg =
      (Evaluate.operand R subject).bind fun s =>
        (Evaluate.argument R arg).bind fun a => Evaluate.apply s verb a := by
  unfold Evaluate.predicate
  cases Evaluate.operand R subject with
  | error e => rfl
  | ok s => cases Evaluate.argument R arg <;> rfl

/-- The path leads to a value of its kind. -/
def Fits (kindOf : Path → Kind) (R : Record) (p : Path) : Prop :=
  ∃ v, p.resolve R = .ok v ∧ v.kind = kindOf p

variable {kindOf : Path → Kind} {R : Record}

lemma operand_keeps {e : Operand} (h : ∀ p ∈ e.paths, Fits kindOf R p) :
    Keeps Value.kind (Evaluate.operand R e) (operand kindOf e) := by
  induction e with
  | path p =>
    obtain ⟨v, hv, hk⟩ := h p List.mem_cons_self
    rw [Evaluate.operand, operand, hv, ← hk]
    exact .value v
  | literal l => exact .value l.value
  | arithmetic left op right ihl ihr =>
    rw [arithmetic_eq]
    have hl := ihl fun p hp => h p (List.mem_append_left _ hp)
    have hr := ihr fun p hp => h p (List.mem_append_right _ hp)
    exact hl.bind fun a => hr.bind fun b => calculate_keeps a op b

lemma argument_keeps {a : Argument} (h : ∀ p ∈ a.paths, Fits kindOf R p) :
    Keeps Value.kind (Evaluate.argument R a) (argument kindOf a) := by
  cases a with
  | operand e => exact operand_keeps h
  | list items => exact .value (Value.list _)

/-- A leaf fails as the kinds of its operands say, or on numbers. -/
theorem leaf_keeps {r : Rule} (hr : r.isLeaf = true) (o : StringOrdering)
    (h : ∀ p ∈ r.paths, Fits kindOf R p) :
    Keeps (fun _ => ()) (outcome o R r) (leaf kindOf r) := by
  cases r with
  | comparison left op right =>
    have hl := operand_keeps (e := left) fun p hp => h p (List.mem_append_left _ hp)
    have hr := operand_keeps (e := right) fun p hp => h p (List.mem_append_right _ hp)
    rw [outcome, comparison_eq]
    exact hl.bind fun a => hr.bind fun b => .of_faults (compare_kinds o a op b)
  | predicate subject verb arg =>
    have hs := operand_keeps (e := subject) fun p hp => h p (List.mem_append_left _ hp)
    have ha := argument_keeps (a := arg) fun p hp => h p (List.mem_append_right _ hp)
    rw [outcome, predicate_eq]
    exact hs.bind fun s => ha.bind fun a => .of_faults (apply_kinds s verb a)
  | group => cases hr

/-- **Kinds decide type errors**: where the paths of a leaf lead to values of the same kinds on two
records, and neither evaluation fails on numbers, both have an answer or both fail with one type
error, whatever the orders of strings. Whether two values compare and whether a verb applies to
them is told by the operator and their kinds. -/
theorem type_errors_by_kind :
    (∀ (r : Rule) (o o' : StringOrdering) (R S : Record), r.isLeaf = true →
      (∀ p ∈ r.paths, ∃ v w, p.resolve R = .ok v ∧ p.resolve S = .ok w ∧ v.kind = w.kind) →
      (∀ e, outcome o R r = .error e → e.isNumerical = false) →
      (∀ e, outcome o' S r = .error e → e.isNumerical = false) →
      (∃ a b, outcome o R r = .ok a ∧ outcome o' S r = .ok b) ∨
        ∃ t : TypeFault, outcome o R r = .error t.error ∧ outcome o' S r = .error t.error) ∧
    (∀ (o : StringOrdering) (v : Value) (op : Relation) (w : Value),
      faults (Evaluate.compare o v op w) = said (compare v.kind op w.kind)) ∧
    ∀ (s : Value) (verb : Verb) (a : Value),
      faults (Evaluate.apply s verb a) = said (apply s.kind verb a.kind) := by
  refine ⟨fun r o o' R S hr h hR hS => ?_, compare_kinds, apply_kinds⟩
  -- the kinds are those that the first record has
  let kindOf (p : Path) : Kind := ((p.resolve R).map Value.kind).toOption.getD .bool
  have fitR : ∀ p ∈ r.paths, Fits kindOf R p := by
    intro p hp
    obtain ⟨v, w, hv, hw, hk⟩ := h p hp
    refine ⟨v, hv, ?_⟩
    simp only [kindOf, hv]
    rfl
  have fitS : ∀ p ∈ r.paths, Fits kindOf S p := by
    intro p hp
    obtain ⟨v, w, hv, hw, hk⟩ := h p hp
    refine ⟨w, hw, ?_⟩
    simp only [kindOf, hv]
    exact hk.symm
  exact (leaf_keeps hr o fitR).agree (leaf_keeps hr o' fitS) hR hS

/-- The sum of a price and one is an integer, of which no two records find the first letters. -/
theorem type_errors_by_kind_price :
    ∃ (r : Rule) (R S : Record), R.resolve "price" ≠ S.resolve "price" ∧
      ∀ o o', ∃ t : TypeFault,
        outcome o R r = .error t.error ∧ outcome o' S r = .error t.error := by
  let price : Path := ⟨"price", [.attr "price"], Footprint.readAll_price⟩
  let verb : Verb := .startsWith false true
  let r : Rule :=
    .predicate (.arithmetic (.path price) .add (.literal (.int 1))) verb
      (.operand (.literal (.str "a")))
  let R : Record := .listed ["price"] [] [("price", .int 2)]
  let S : Record := .listed ["price"] [] [("price", .int (-7))]
  have hR : price.resolve R = .ok (.int 2) := rfl
  have hS : price.resolve S = .ok (.int (-7)) := rfl
  have failR (o : StringOrdering) :
      outcome o R r = .error (.typeMismatch (.verb verb) (.kind .str) .int) := rfl
  have failS (o : StringOrdering) :
      outcome o S r = .error (.typeMismatch (.verb verb) (.kind .str) .int) := rfl
  have prices : R.resolve "price" ≠ S.resolve "price" := by
    rw [Footprint.resolve_text R price, Footprint.resolve_text S price, hR, hS]
    intro h
    injection h with h
    injection h with h
    exact absurd h (by decide)
  refine ⟨r, R, S, prices, fun o o' => ?_⟩
  obtain ⟨a, -, ha, -⟩ | h := type_errors_by_kind.1 r o o' R S rfl
    (by
      intro p hp
      obtain rfl := List.mem_singleton.1 hp
      exact ⟨_, _, hR, hS, rfl⟩)
    (by
      intro e he
      rw [failR] at he
      cases he
      rfl)
    (by
      intro e he
      rw [failS] at he
      cases he
      rfl)
  · rw [failR] at ha
    cases ha
  · exact h

end Kinds

end RecordRules
