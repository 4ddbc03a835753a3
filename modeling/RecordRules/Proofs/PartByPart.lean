import RecordRules.Proofs.Sameness

/-!
Equality of data part by part. It is symmetric and transitive on all data, and reflexive on data
without NaN: it tells 1 from 1.0, so that no two numbers are equal to one and the same other, as
they can be in structural equality.
-/

namespace RecordRules

/-! ### Lists -/

section Forall₂

variable {α : Type} {R : α → α → Prop} {xs ys zs : List α}

lemma forall₂_symm (h : List.Forall₂ R xs ys) (hR : ∀ x ∈ xs, ∀ y, R x y → R y x) :
    List.Forall₂ R ys xs := by
  induction h with
  | nil => exact .nil
  | cons hxy _ ih =>
    rw [List.forall_mem_cons] at hR
    exact .cons (hR.1 _ hxy) (ih hR.2)

lemma forall₂_trans (h : List.Forall₂ R xs ys) (h' : List.Forall₂ R ys zs)
    (hR : ∀ x ∈ xs, ∀ y z, R x y → R y z → R x z) : List.Forall₂ R xs zs := by
  induction h generalizing zs with
  | nil =>
    cases h'
    exact .nil
  | cons hxy _ ih =>
    rw [List.forall_mem_cons] at hR
    cases h' with
    | cons hyz h' => exact .cons (hR.1 _ _ hxy hyz) (ih h' hR.2)

end Forall₂

lemma float_beq_trans {x y z : Float} (hxy : (x == y) = true) (hyz : (y == z) = true) :
    (x == z) = true := by
  change x.toModel.unpack.beq y.toModel.unpack = true at hxy
  change y.toModel.unpack.beq z.toModel.unpack = true at hyz
  change x.toModel.unpack.beq z.toModel.unpack = true
  rw [Float.Model.UnpackedFloat.beq_iff_ne_notANumber_and_eq] at hxy hyz ⊢
  obtain ⟨hx, -, hxy⟩ := hxy
  obtain ⟨-, hz, hyz⟩ := hyz
  refine ⟨hx, hz, ?_⟩
  rcases hxy with hxy | ⟨hx, hy⟩ | ⟨hx, hy⟩ <;> rcases hyz with hyz | ⟨hy', hz⟩ | ⟨hy', hz⟩ <;>
    simp_all

namespace Datum

variable {c d : Datum} {cs ds : List Datum} {es fs : List (Datum × Datum)}
  {as bs : List (String × Datum)}

/-! ### Equality by kind -/

lemma equalLists_iff :
    equalLists cs ds = true ↔ List.Forall₂ (fun c d : Datum => (c == d) = true) cs ds := by
  induction cs generalizing ds with
  | nil => cases ds <;> simp [equalLists]
  | cons c cs ih =>
    cases ds with
    | nil => simp [equalLists]
    | cons d ds =>
      rw [equalLists, Bool.and_eq_true, ih, List.forall₂_cons]
      rfl

lemma equalEntries_iff : equalEntries es fs = true ↔
    List.Forall₂ (fun e f => (e.1 == f.1) = true ∧ (e.2 == f.2) = true) es fs := by
  induction es generalizing fs with
  | nil => cases fs <;> simp [equalEntries]
  | cons e es ih =>
    cases fs with
    | nil => simp [equalEntries]
    | cons f fs =>
      rw [equalEntries, Bool.and_eq_true, Bool.and_eq_true, ih, List.forall₂_cons]
      rfl

lemma equalAttributes_iff : equalAttributes as bs = true ↔
    List.Forall₂ (fun a b => a.1 = b.1 ∧ (a.2 == b.2) = true) as bs := by
  induction as generalizing bs with
  | nil => cases bs <;> simp [equalAttributes]
  | cons a as ih =>
    cases bs with
    | nil => simp [equalAttributes]
    | cons b bs =>
      rw [equalAttributes, Bool.and_eq_true, Bool.and_eq_true, ih, List.forall₂_cons, beq_iff_eq]
      rfl

lemma beq_list : (list cs == list ds) = true ↔
    List.Forall₂ (fun c d => (c == d) = true) cs ds := equalLists_iff

lemma beq_set : (set cs == set ds) = true ↔
    List.Forall₂ (fun c d => (c == d) = true) cs ds := equalLists_iff

lemma beq_map : (map es == map fs) = true ↔
    List.Forall₂ (fun e f => (e.1 == f.1) = true ∧ (e.2 == f.2) = true) es fs := equalEntries_iff

lemma beq_tuple : (tuple as == tuple bs) = true ↔
    List.Forall₂ (fun a b => a.1 = b.1 ∧ (a.2 == b.2) = true) as bs := equalAttributes_iff

/-! ### Its laws -/

lemma beq_symm (h : (c == d) = true) : (d == c) = true := by
  induction c using induct generalizing d with
  | step c ih =>
    have part (a : Datum) (ha : a ∈ c.parts) (b : Datum) (hab : (a == b) = true) :
        (b == a) = true := ih a ha hab
    cases c <;> cases d <;> try cases h
    case bool.bool a b | int.int a b | str.str a b => exact BEq.symm (a := a) (b := b) h
    case float.float x y => exact (float_beq_comm y x).trans h
    case list.list cs ds => exact beq_list.2 (forall₂_symm (beq_list.1 h) part)
    case set.set cs ds => exact beq_set.2 (forall₂_symm (beq_set.1 h) part)
    case map.map es fs =>
      refine beq_map.2 (forall₂_symm (beq_map.1 h) fun e he f hef => ?_)
      exact ⟨part _ (key_mem_parts he) _ hef.1, part _ (value_mem_parts he) _ hef.2⟩
    case tuple.tuple as bs =>
      refine beq_tuple.2 (forall₂_symm (beq_tuple.1 h) fun a ha b hab => ?_)
      exact ⟨hab.1.symm, part _ (attribute_mem_parts ha) _ hab.2⟩

lemma beq_trans {e : Datum} (h : (c == d) = true) (h' : (d == e) = true) : (c == e) = true := by
  induction c using induct generalizing d e with
  | step c ih =>
    have part (a : Datum) (ha : a ∈ c.parts) (b b' : Datum) (hab : (a == b) = true)
        (hbb : (b == b') = true) : (a == b') = true := ih a ha hab hbb
    cases c <;> cases d <;> try cases h
    all_goals cases e <;> try cases h'
    case bool.bool.bool a b b' | int.int.int a b b' | str.str.str a b b' =>
      exact BEq.trans (a := a) (b := b) (c := b') h h'
    case float.float.float x y z => exact float_beq_trans h h'
    case list.list.list cs ds us =>
      exact beq_list.2 (forall₂_trans (beq_list.1 h) (beq_list.1 h') part)
    case set.set.set cs ds us =>
      exact beq_set.2 (forall₂_trans (beq_set.1 h) (beq_set.1 h') part)
    case map.map.map es fs gs =>
      refine beq_map.2 (forall₂_trans (beq_map.1 h) (beq_map.1 h') fun e he f g hef hfg => ?_)
      exact ⟨part _ (key_mem_parts he) _ _ hef.1 hfg.1,
        part _ (value_mem_parts he) _ _ hef.2 hfg.2⟩
    case tuple.tuple.tuple as bs us =>
      refine beq_tuple.2 (forall₂_trans (beq_tuple.1 h) (beq_tuple.1 h') fun a ha b u hab hbu => ?_)
      exact ⟨hab.1.trans hbu.1, part _ (attribute_mem_parts ha) _ _ hab.2 hbu.2⟩

instance : PartialEquivBEq Datum := ⟨beq_symm, beq_trans⟩

/-- Data without NaN is equal to itself. -/
theorem beq_self (h : d.Throughout NoNaN) : (d == d) = true := by
  induction d using induct with
  | step d ih =>
    have part (c : Datum) (hc : c ∈ d.parts) : (c == c) = true := ih c hc (h.part hc)
    cases d with
    | bool b => exact beq_self_eq_true b
    | int i => exact beq_self_eq_true i
    | str s => exact beq_self_eq_true s
    | float x => exact float_beq_self h.self
    | list cs => exact beq_list.2 (List.forall₂_same.2 part)
    | set cs => exact beq_set.2 (List.forall₂_same.2 part)
    | map es =>
      refine beq_map.2 (List.forall₂_same.2 fun e he => ?_)
      exact ⟨part _ (key_mem_parts he), part _ (value_mem_parts he)⟩
    | tuple as =>
      exact beq_tuple.2 (List.forall₂_same.2 fun a ha => ⟨rfl, part _ (attribute_mem_parts ha)⟩)

end Datum

end RecordRules
