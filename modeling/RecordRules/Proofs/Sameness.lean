import Mathlib
import RecordRules.Proofs.Equivalence
import RecordRules.Proofs.Parts

/-!
When structural equality of data is reflexive, and when it is symmetric.

It looks each key of the left map up in the right one and takes the first key that is the
same there. Maps are built with keys that differ part by part, and such keys can be the same
all the same, as 1 and 1.0 are: a map with both is not the same as itself. Where no key is
the same as an earlier one, data without NaN is the same as itself. Where no two keys are the
same as one and the same datum, the order of the two sides does not matter.
-/

namespace RecordRules

/-! ### Floating-point numbers -/

lemma float_beq_comm (x y : Float) : (x == y) = (y == x) := by
  rw [Bool.eq_iff_iff]
  change x.toModel.unpack.beq y.toModel.unpack = true ↔
    y.toModel.unpack.beq x.toModel.unpack = true
  rw [Float.Model.UnpackedFloat.beq_iff_ne_notANumber_and_eq,
    Float.Model.UnpackedFloat.beq_iff_ne_notANumber_and_eq]
  tauto

lemma float_beq_self {x : Float} (h : x.isNaN = false) : (x == x) = true := by
  change x.toModel.unpack.isNaN = false at h
  change x.toModel.unpack.beq x.toModel.unpack = true
  have hne : x.toModel.unpack ≠ .notANumber := by
    intro hx
    rw [hx] at h
    cases h
  exact (Float.Model.UnpackedFloat.beq_iff_ne_notANumber_and_eq _ _).2 ⟨hne, hne, .inl rfl⟩

namespace Datum

/-- Structural equality of the values that two data show. -/
def alike (c d : Datum) : Bool := c.view.same d.view

variable {c d : Datum} {cs ds : List Datum} {es fs : List (Datum × Datum)}
  {as bs : List (String × Datum)}

lemma alike_list : (list cs).alike (list ds) = true ↔
    List.Forall₂ (fun c d => c.alike d = true) cs ds := by
  refine Value.same_list.trans ?_
  simp only [views_eq_map, List.forall₂_map_left_iff, List.forall₂_map_right_iff]
  rfl

lemma alike_set : (set cs).alike (set ds) = true ↔ cs.length = ds.length ∧
    (∀ c ∈ cs, ∃ d ∈ ds, c.alike d = true) ∧ ∀ d ∈ ds, ∃ c ∈ cs, c.alike d = true := by
  refine Value.same_set.trans ?_
  simp [views_eq_map, alike]

lemma finds_views {e : Datum × Datum} :
    Value.Finds (e.1.view, e.2.view) (entryViews fs) ↔
      ∃ f, (fs.find? fun f => e.1.alike f.1) = some f ∧ e.2.alike f.2 = true := by
  rw [Value.Finds, entryViews_eq_map, List.find?_map]
  simp [alike]

lemma alike_map : (map es).alike (map fs) = true ↔ es.length = fs.length ∧
    ∀ e ∈ es, ∃ f, (fs.find? fun f => e.1.alike f.1) = some f ∧ e.2.alike f.2 = true := by
  refine Value.same_map.trans ?_
  simp only [entryViews_eq_map es, List.forall_mem_map, finds_views]
  simp [entryViews_eq_map]

lemma alike_tuple : (tuple as).alike (tuple bs) = true ↔ as.length = bs.length ∧
    ∀ n ∈ as.map Prod.fst,
      ∃ c d, as.lookup n = some c ∧ bs.lookup n = some d ∧ c.alike d = true := by
  change Value.sameRecords (Tuple.toRecord ⟨as⟩) (Tuple.toRecord ⟨bs⟩) = true ↔ _
  rw [Comparing.sameRecords_iff]
  simp only [Tuple.names_toRecord, Tuple.read_toRecord, Tuple.get?, List.length_map]
  refine and_congr_right fun _ => forall₂_congr fun n _ => ?_
  cases as.lookup n <;> cases bs.lookup n <;> simp [Value.sameReads, alike]

/-! ### Reflexivity -/

/-- The datum is not the number that is none. -/
def NoNaN : Datum → Prop
  | .float x => x.isNaN = false
  | _ => True

/-- No key of the map is the same as an earlier one. -/
def KeysDiffer : Datum → Prop
  | .map es => es.Pairwise fun e f => f.1.alike e.1 = false
  | _ => True

/-- Among keys that differ a key finds the entry that it stands in. -/
lemma find?_self (hd : es.Pairwise fun e f => f.1.alike e.1 = false)
    (hr : ∀ e ∈ es, e.1.alike e.1 = true) {e : Datum × Datum} (he : e ∈ es) :
    (es.find? fun f => e.1.alike f.1) = some e := by
  induction es with
  | nil => cases he
  | cons f es ih =>
    rw [List.pairwise_cons] at hd
    rw [List.forall_mem_cons] at hr
    rcases List.mem_cons.1 he with rfl | he
    · exact List.find?_cons_of_pos hr.1
    · rw [List.find?_cons_of_neg (by simp [hd.1 e he])]
      exact ih hd.2 hr.2 he

/-- Data without NaN whose maps have keys that differ is the same as itself. -/
theorem alike_self (hn : d.Throughout NoNaN) (hk : d.Throughout KeysDiffer) :
    d.alike d = true := by
  induction d using induct with
  | step d ih =>
    have part (c : Datum) (hc : c ∈ d.parts) : c.alike c = true :=
      ih c hc (hn.part hc) (hk.part hc)
    cases d with
    | bool b | int i | str s => exact beq_self_eq_true _
    | float x => exact float_beq_self hn.self
    | list cs => exact alike_list.2 (List.forall₂_same.2 part)
    | set cs =>
      have each (c : Datum) (hc : c ∈ cs) : ∃ d ∈ cs, c.alike d = true := ⟨c, hc, part c hc⟩
      exact alike_set.2 ⟨rfl, each, fun c hc => ⟨c, hc, part c hc⟩⟩
    | map es =>
      refine alike_map.2 ⟨rfl, fun e he => ⟨e, ?_, part e.2 (value_mem_parts he)⟩⟩
      exact find?_self hk.self (fun f hf => part f.1 (key_mem_parts hf)) he
    | tuple as =>
      refine alike_tuple.2 ⟨rfl, fun n hn => ?_⟩
      obtain ⟨c, hc⟩ := Option.isSome_iff_exists.1 (Names.isSome_lookup.2 hn)
      exact ⟨c, c, hc, hc, part c (attribute_mem_parts (Names.mem_of_lookup hc))⟩

/-! ### Symmetry -/

/-- No two keys of the map are the same as one and the same datum. -/
def KeysApart : Datum → Prop
  | .map es => es.Pairwise fun e f => ∀ d : Datum, ¬(e.1.alike d = true ∧ f.1.alike d = true)
  | _ => True

lemma forall₂_swap (hcomm : ∀ c ∈ cs, ∀ d ∈ ds, c.alike d = d.alike c)
    (h : List.Forall₂ (fun c d => c.alike d = true) cs ds) :
    List.Forall₂ (fun d c => d.alike c = true) ds cs := by
  induction h with
  | nil => exact .nil
  | @cons c d cs ds hcd _ ih =>
    refine .cons ?_ (ih fun a ha b hb => hcomm a (.tail _ ha) b (.tail _ hb))
    rw [← hcomm c (.head _) d (.head _)]
    exact hcd

lemma exists_swap (hcomm : ∀ c ∈ cs, ∀ d ∈ ds, c.alike d = d.alike c)
    (h : (∀ c ∈ cs, ∃ d ∈ ds, c.alike d = true) ∧ ∀ d ∈ ds, ∃ c ∈ cs, c.alike d = true) :
    (∀ d ∈ ds, ∃ c ∈ cs, d.alike c = true) ∧ ∀ c ∈ cs, ∃ d ∈ ds, d.alike c = true := by
  constructor
  · intro d hd
    obtain ⟨c, hc, hcd⟩ := h.2 d hd
    exact ⟨c, hc, hcomm c hc d hd ▸ hcd⟩
  · intro c hc
    obtain ⟨d, hd, hcd⟩ := h.1 c hc
    exact ⟨d, hd, hcomm c hc d hd ▸ hcd⟩

lemma alike_map_swap
    (hes : es.Pairwise fun e f => ∀ d : Datum, ¬(e.1.alike d = true ∧ f.1.alike d = true))
    (hcomm : ∀ e ∈ es, ∀ f ∈ fs, e.1.alike f.1 = f.1.alike e.1 ∧ e.2.alike f.2 = f.2.alike e.2)
    (h : (map es).alike (map fs) = true) : (map fs).alike (map es) = true := by
  refine Value.same_map_swap ?apart ?comm h
  case apart =>
    simp only [entryViews_eq_map, List.pairwise_map, List.forall_mem_map]
    exact hes.imp fun {e f} hef (g : Datum × Datum) _ => hef g.1
  case comm =>
    simp only [entryViews_eq_map, List.forall_mem_map]
    exact hcomm

/-- The names of one tuple are looked up in another one of the same size, or the other way
round. -/
lemma lookup_swap (hn : (as.map Prod.fst).Nodup) (hlen : as.length = bs.length)
    (hcomm : ∀ c ∈ as.map Prod.snd, ∀ d ∈ bs.map Prod.snd, c.alike d = d.alike c)
    (h : ∀ n ∈ as.map Prod.fst,
      ∃ c d, as.lookup n = some c ∧ bs.lookup n = some d ∧ c.alike d = true) :
    ∀ n ∈ bs.map Prod.fst,
      ∃ d c, bs.lookup n = some d ∧ as.lookup n = some c ∧ d.alike c = true := by
  have hsub : as.map Prod.fst ⊆ bs.map Prod.fst := by
    intro n hn
    obtain ⟨c, d, -, hd, -⟩ := h n hn
    exact Names.isSome_lookup.1 (by rw [hd]; rfl)
  have hperm : (as.map Prod.fst).Perm (bs.map Prod.fst) :=
    (hn.subperm hsub).perm_of_length_le (by simp [hlen])
  intro n hn
  obtain ⟨c, d, hc, hd, hcd⟩ := h n (hperm.mem_iff.2 hn)
  have hmem : (n, c) ∈ as := Names.mem_of_lookup hc
  have hmem' : (n, d) ∈ bs := Names.mem_of_lookup hd
  refine ⟨d, c, hd, hc, ?_⟩
  rw [← hcomm c (List.mem_map_of_mem hmem) d (List.mem_map_of_mem hmem')]
  exact hcd

/-- Data whose maps have keys that are apart is the same as other such data whichever of the
two is on the left. -/
theorem alike_comm (hc : c.Throughout KeysApart) (hd : d.Throughout KeysApart)
    (hcn : c.Distinct) (hdn : d.Distinct) : c.alike d = d.alike c := by
  induction c using induct generalizing d with
  | step c ih =>
    have part (a : Datum) (ha : a ∈ c.parts) (b : Datum) (hb : b ∈ d.parts) :
        a.alike b = b.alike a :=
      ih a ha (hc.part ha) (hd.part hb) (distinct_part hcn ha) (distinct_part hdn hb)
    cases c <;> cases d
    case bool.bool a b | int.int a b | str.str a b => exact BEq.comm
    case float.float x y | float.int x y | int.float x y => exact float_beq_comm _ _
    case list.list cs ds =>
      rw [Bool.eq_iff_iff, alike_list, alike_list]
      exact ⟨forall₂_swap part, forall₂_swap fun d hd c hc => (part c hc d hd).symm⟩
    case set.set cs ds =>
      rw [Bool.eq_iff_iff, alike_set, alike_set]
      constructor
      · rintro ⟨hlen, h⟩
        exact ⟨hlen.symm, exists_swap part h⟩
      · rintro ⟨hlen, h⟩
        exact ⟨hlen.symm, exists_swap (fun d hd c hc => (part c hc d hd).symm) h⟩
    case map.map es fs =>
      have hcomm (e : Datum × Datum) (he : e ∈ es) (f : Datum × Datum) (hf : f ∈ fs) :
          e.1.alike f.1 = f.1.alike e.1 ∧ e.2.alike f.2 = f.2.alike e.2 :=
        ⟨part _ (key_mem_parts he) _ (key_mem_parts hf),
          part _ (value_mem_parts he) _ (value_mem_parts hf)⟩
      rw [Bool.eq_iff_iff]
      refine ⟨alike_map_swap hc.self hcomm, alike_map_swap hd.self fun f hf e he => ?_⟩
      exact (hcomm e he f hf).imp Eq.symm Eq.symm
    case tuple.tuple as bs =>
      rw [Bool.eq_iff_iff, alike_tuple, alike_tuple]
      constructor
      · rintro ⟨hlen, h⟩
        exact ⟨hlen.symm, lookup_swap hcn.1 hlen part h⟩
      · rintro ⟨hlen, h⟩
        exact ⟨hlen.symm, lookup_swap hdn.1 hlen (fun b hb a ha => (part a ha b hb).symm) h⟩
    all_goals rfl

end Datum

end RecordRules

namespace RecordRules.Comparing

lemma compare_alike {l r : Tuple} (hl : l.toDatum.Distinct) (hr : r.toDatum.Distinct) :
    ∃ c, l.toRecord.compare r.toRecord = .ok c ∧ c.isIdentical = l.toDatum.alike r.toDatum := by
  have hl' := (Record.Stored.tuple l hl).throughout
  have hr' := (Record.Stored.tuple r hr).throughout
  obtain ⟨fs, hfs, hp⟩ := findings_same hl' hr' ""
  refine ⟨.ofFindings fs, ?_, ?_⟩
  · unfold Record.compare
    rw [hfs]
    rfl
  · rw [Bool.eq_iff_iff, isIdentical_iff, hp, Datum.alike, Tuple.view_toDatum, Tuple.view_toDatum]
    rfl

/-- A tuple that the constructors make, without NaN anywhere in it. -/
structure Ordinary (t : Tuple) : Prop where
  built : t.toDatum.Built
  numbers : t.toDatum.Throughout Datum.NoNaN

/-- **Comparison with itself and the other way round**: an ordinary tuple whose maps have
keys that differ has nothing differing from itself, and of two whose maps have keys that are
apart each is identical to the other when the other is to it. -/
theorem compare_self_and_swapped (l r : Tuple) (hl : Ordinary l) (hr : Ordinary r) :
    (l.toDatum.Throughout Datum.KeysDiffer →
      ∃ c, l.toRecord.compare l.toRecord = .ok c ∧ c.differing = []) ∧
    (l.toDatum.Throughout Datum.KeysApart → r.toDatum.Throughout Datum.KeysApart →
      ∃ c c', l.toRecord.compare r.toRecord = .ok c ∧ r.toRecord.compare l.toRecord = .ok c' ∧
        c.isIdentical = c'.isIdentical) := by
  have hdl := hl.built.distinct
  have hdr := hr.built.distinct
  constructor
  · intro hk
    obtain ⟨c, hc, hi⟩ := compare_alike hdl hdl
    rw [Datum.alike_self hl.numbers hk] at hi
    exact ⟨c, hc, List.isEmpty_iff.1 hi⟩
  · intro hkl hkr
    obtain ⟨c, hc, hi⟩ := compare_alike hdl hdr
    obtain ⟨c', hc', hi'⟩ := compare_alike hdr hdl
    refine ⟨c, c', hc, hc', ?_⟩
    rw [hi, hi', Datum.alike_comm hkl hkr hdl hdr]

/-- A tuple with the attribute `m` and nothing else. -/
def single (d : Datum) : Tuple := ⟨[("m", d)]⟩

lemma built_single {d : Datum} (h : d.Built) : (single d).toDatum.Built :=
  .tuple [("m", d)] (List.forall_mem_singleton.2 h)

lemma throughout_single {P : Datum → Prop} {d : Datum} (hs : P (single d).toDatum)
    (hd : d.Throughout P) : (single d).toDatum.Throughout P :=
  .intro hs (List.forall_mem_singleton.2 hd)

lemma ordinary_single {d : Datum} (hb : d.Built) (hn : d.Throughout Datum.NoNaN) :
    Ordinary (single d) :=
  ⟨built_single hb, throughout_single trivial hn⟩

/-- No datum is the same as two different strings. -/
lemma apart_strs {s t : String} (h : s ≠ t) (d : Datum) :
    ¬((Datum.str s).alike d = true ∧ (Datum.str t).alike d = true) := by
  cases d with
  | str u =>
    rintro ⟨hs, ht⟩
    exact h ((beq_iff_eq.1 hs).trans (beq_iff_eq.1 ht).symm)
  | bool | int | float | set | list | map | tuple => exact fun hd => nomatch hd.1

/-- Two tuples that are identical both ways, with a map and a set in another order. -/
theorem compare_self_and_swapped_reordered :
    ∃ l r : Tuple, Ordinary l ∧ Ordinary r ∧
      l.toDatum.Throughout Datum.KeysDiffer ∧ l.toDatum.Throughout Datum.KeysApart ∧
      r.toDatum.Throughout Datum.KeysApart ∧
      (∃ c, l.toRecord.compare l.toRecord = .ok c ∧ c.differing = []) ∧
      ∃ c c', l.toRecord.compare r.toRecord = .ok c ∧ r.toRecord.compare l.toRecord = .ok c' ∧
        c.isIdentical = true ∧ c.isIdentical = c'.isIdentical := by
  let ls : List (Datum × Datum) := [(.str "a", .set [.float 1.5, .str "x"]), (.str "b", .int 2)]
  let rs : List (Datum × Datum) :=
    [(.str "b", .float 2.0), (.str "a", .set [.str "x", .float 1.5])]
  have hset (x y : Datum) (hx : x.Built) (hy : y.Built) (hxy : Datum.ofItems [x, y] = .set [x, y]) :
      (Datum.set [x, y]).Built := by
    rw [← hxy]
    exact .set [x, y] (by simp [hx, hy])
  have hnum : (1.5 : Float) ≠ .nan ∧ (2.0 : Float) ≠ .nan := by decide
  have hkey : (Datum.str "b").alike (.str "a") = false := by decide
  have hl : Ordinary (single (.map ls)) := by
    refine ordinary_single (.map ls ?_ ?_) ?_
    · simp [ls, Datum.Built.str]
    · simp [ls, Datum.Built.int, hset _ _ (.float 1.5) (.str "x") rfl]
    · simp [ls, Datum.NoNaN, hnum]
  have hr : Ordinary (single (.map rs)) := by
    refine ordinary_single (.map rs ?_ ?_) ?_
    · simp [rs, Datum.Built.str]
    · simp [rs, Datum.Built.float, hset _ _ (.str "x") (.float 1.5) rfl]
    · simp [rs, Datum.NoNaN, hnum]
  have hdiffer : (single (.map ls)).toDatum.Throughout Datum.KeysDiffer :=
    throughout_single trivial (by simp [ls, Datum.KeysDiffer, hkey])
  have hapartl : (single (.map ls)).toDatum.Throughout Datum.KeysApart :=
    throughout_single trivial (by simpa [ls, Datum.KeysApart] using apart_strs (by decide))
  have hapartr : (single (.map rs)).toDatum.Throughout Datum.KeysApart :=
    throughout_single trivial (by simpa [rs, Datum.KeysApart] using apart_strs (by decide))
  obtain ⟨hself, hswap⟩ := compare_self_and_swapped _ _ hl hr
  obtain ⟨c, c', hc, hc', hcc⟩ := hswap hapartl hapartr
  refine ⟨_, _, hl, hr, hdiffer, hapartl, hapartr, hself hdiffer, c, c', hc, hc', ?_, hcc⟩
  cases hc
  decide

/-- A map with the keys 1 and 1.0 is not identical to itself. That keys differ is not enough
for the other way round: `2 ^ 53` and the integer after it are both the same as one
floating-point number. -/
theorem compare_self_differs :
    ∃ t l r : Tuple, Ordinary t ∧ Ordinary l ∧ Ordinary r ∧
      (∃ c, t.toRecord.compare t.toRecord = .ok c ∧ c.differing = ["m"]) ∧
      l.toDatum.Throughout Datum.KeysDiffer ∧ r.toDatum.Throughout Datum.KeysDiffer ∧
      ∃ c c', l.toRecord.compare r.toRecord = .ok c ∧ r.toRecord.compare l.toRecord = .ok c' ∧
        c.isIdentical = true ∧ c'.isIdentical = false := by
  let ts : List (Datum × Datum) := [(.int 1, .str "a"), (.float 1.0, .str "b")]
  let ls : List (Datum × Datum) :=
    [(.int 0x20000000000000, .str "a"), (.int 0x20000000000001, .str "a")]
  let rs : List (Datum × Datum) := [(.float 9007199254740992.0, .str "a"), (.int 7, .str "b")]
  have hnum : (1.0 : Float) ≠ .nan ∧ (9007199254740992.0 : Float) ≠ .nan := by decide
  have ht : Ordinary (single (.map ts)) := by
    refine ordinary_single (.map ts ?_ ?_) ?_
    · simp [ts, Datum.Built.int, Datum.Built.float]
    · simp [ts, Datum.Built.str]
    · simp [ts, Datum.NoNaN, hnum]
  have hl : Ordinary (single (.map ls)) := by
    refine ordinary_single (.map ls ?_ ?_) ?_
    · simp [ls, Datum.Built.int]
    · simp [ls, Datum.Built.str]
    · simp [ls, Datum.NoNaN]
  have hr : Ordinary (single (.map rs)) := by
    refine ordinary_single (.map rs ?_ ?_) ?_
    · simp [rs, Datum.Built.int, Datum.Built.float]
    · simp [rs, Datum.Built.str]
    · simp [rs, Datum.NoNaN, hnum]
  have hkl : (Datum.int 0x20000000000001).alike (.int 0x20000000000000) = false := by decide
  have hkr : (Datum.int 7).alike (.float 9007199254740992.0) = false := by decide
  refine ⟨_, _, _, ht, hl, hr, ⟨_, rfl, by decide⟩, ?_, ?_, _, _, rfl, rfl, by decide, by decide⟩
  · exact throughout_single trivial (by simp [ls, Datum.KeysDiffer, hkl])
  · exact throughout_single trivial (by simp [rs, Datum.KeysDiffer, hkr])

end RecordRules.Comparing
