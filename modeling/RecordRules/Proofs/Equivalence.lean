import Mathlib.Data.List.Pairwise
import Mathlib.Data.List.Perm.Subperm
import Mathlib.Tactic.Choose
import RecordRules.Proofs.Comparing

/-!
Structural equality as an equivalence relation.

Widening spoils it: two integers can both be the same as one floating-point number, and no
number that is none is the same as itself. Maps spoil it too where one key can stand for
another, since the first key that fits is taken. On values without floating-point numbers, in
maps whose keys differ, neither can happen.

What carries the induction is that a value which is the same as another one can be put in its
place: symmetry and transitivity are both cases of that.
-/

namespace RecordRules.Value

variable {v w : Value} {xs ys : List Value} {es fs : List (Value × Value)} {r : Record}

/-! ### Structural equality by kind -/

lemma same_list : (list xs).same (list ys) = true ↔
    List.Forall₂ (fun x y => x.same y = true) xs ys := by
  change sameLists xs ys = true ↔ _
  induction xs generalizing ys with
  | nil => cases ys <;> simp [sameLists]
  | cons x xs ih =>
    cases ys with
    | nil => simp [sameLists]
    | cons y ys => simp only [sameLists, Bool.and_eq_true, ih, List.forall₂_cons]

lemma same_set : (set xs).same (set ys) = true ↔ xs.length = ys.length ∧
    (∀ x ∈ xs, ∃ y ∈ ys, x.same y = true) ∧ ∀ y ∈ ys, ∃ x ∈ xs, x.same y = true := by
  change (xs.length == ys.length && eachIn xs ys && ys.all fun y => memberOf xs y) = true ↔ _
  simp [eachIn_eq_all, memberOf_eq_any, and_assoc]

/-- The key of the entry finds an entry with the same value in the map. -/
def Finds (e : Value × Value) (fs : List (Value × Value)) : Prop :=
  ∃ f, (fs.find? fun f => e.1.same f.1) = some f ∧ e.2.same f.2 = true

lemma same_map : (map es).same (map fs) = true ↔
    es.length = fs.length ∧ ∀ e ∈ es, Finds e fs := by
  have each : eachEntryIn es fs = true ↔ ∀ e ∈ es, Finds e fs := by
    induction es with
    | nil => simp [eachEntryIn]
    | cons e es ih =>
      rw [eachEntryIn, Bool.and_eq_true, ih, List.forall_mem_cons]
      refine and_congr_left' ?_
      unfold Finds
      cases fs.find? fun f => e.1.same f.1 <;> simp
  change (es.length == fs.length && eachEntryIn es fs) = true ↔ _
  rw [Bool.and_eq_true, each, beq_iff_eq]

/-- Where no two keys on the left are the same as one key on the right, each of them has an
entry of its own in a right map of the same size. -/
lemma exists_matching
    (ha : es.Pairwise fun e f => ∀ g ∈ fs, ¬(e.1.same g.1 = true ∧ f.1.same g.1 = true))
    (h : (map es).same (map fs) = true) :
    ∃ found : Value × Value → Value × Value, (es.map found).Perm fs ∧
      ∀ e ∈ es, e.1.same (found e).1 = true ∧ e.2.same (found e).2 = true := by
  obtain ⟨hlen, hall⟩ := same_map.1 h
  have : Nonempty (Value × Value) := ⟨(.bool true, .bool true)⟩
  choose! found hfound hvalue using hall
  have hmem (e : Value × Value) (he : e ∈ es) : found e ∈ fs :=
    List.mem_of_find?_eq_some (hfound e he)
  have hkey (e : Value × Value) (he : e ∈ es) : e.1.same (found e).1 = true := by
    simpa using List.find?_some (hfound e he)
  have hnodup : (es.map found).Nodup := by
    refine List.pairwise_map.2 (ha.imp_of_mem fun {e f} he hf hef heq => ?_)
    exact hef (found e) (hmem e he) ⟨hkey e he, by rw [heq]; exact hkey f hf⟩
  have hsub : es.map found ⊆ fs := by
    intro f hf
    obtain ⟨e, he, rfl⟩ := List.mem_map.1 hf
    exact hmem e he
  refine ⟨found, (hnodup.subperm hsub).perm_of_length_le (by simp [hlen]), fun e he => ?_⟩
  exact ⟨hkey e he, hvalue e he⟩

/-- The only element with a property is the one that is found. -/
lemma find?_only {α : Type} {p : α → Bool} {as : List α} {a : α} (ha : a ∈ as) (hp : p a = true)
    (h : ∀ b ∈ as, p b = true → b = a) : as.find? p = some a := by
  obtain ⟨b, hb⟩ := Option.isSome_iff_exists.1 (List.find?_isSome.2 ⟨a, ha, hp⟩)
  rw [hb, h b (List.mem_of_find?_eq_some hb) (List.find?_some hb)]

/-- Where the order of the two sides does not matter for keys and values, it does not for maps
whose keys are apart on the left. -/
lemma same_map_swap
    (ha : es.Pairwise fun e f => ∀ g ∈ fs, ¬(e.1.same g.1 = true ∧ f.1.same g.1 = true))
    (hcomm : ∀ e ∈ es, ∀ f ∈ fs, e.1.same f.1 = f.1.same e.1 ∧ e.2.same f.2 = f.2.same e.2)
    (h : (map es).same (map fs) = true) : (map fs).same (map es) = true := by
  obtain ⟨found, hperm, hfound⟩ := exists_matching ha h
  refine same_map.2 ⟨(same_map.1 h).1.symm, fun f hf => ?_⟩
  obtain ⟨e, he, rfl⟩ := List.mem_map.1 (hperm.mem_iff.2 hf)
  obtain ⟨hkey, hvalue⟩ := hfound e he
  obtain ⟨hk, hv⟩ := hcomm e he (found e) hf
  refine ⟨e, find?_only he (hk ▸ hkey) fun e' he' hkey' => ?_, hv ▸ hvalue⟩
  rw [← (hcomm e' he' (found e) hf).1] at hkey'
  by_contra hne
  have : Std.Symm fun e f : Value × Value =>
      ∀ g ∈ fs, ¬(e.1.same g.1 = true ∧ f.1.same g.1 = true) :=
    ⟨fun _ _ hef g hg h => hef g hg h.symm⟩
  exact ha.forall he' he hne (found e) hf ⟨hkey', hkey⟩

/-! ### Sound values -/

/-- A value without floating-point numbers whose maps have keys that differ and whose records
are tuples or JSON objects, at every level. -/
inductive Sound : Value → Prop
  | bool (b : Bool) : Sound (.bool b)
  | int (i : Int64) : Sound (.int i)
  | str (s : String) : Sound (.str s)
  | set (items : List Value) (h : ∀ v ∈ items, Sound v) : Sound (.set items)
  | list (items : List Value) (h : ∀ v ∈ items, Sound v) : Sound (.list items)
  | map (entries : List (Value × Value))
      (differ : entries.Pairwise fun e f => e.1.same f.1 = false)
      (keys : ∀ e ∈ entries, Sound e.1) (values : ∀ e ∈ entries, Sound e.2) :
      Sound (.map entries)
  | record (r : Record) (stored : r.Stored) (attributes : ∀ n v, r.read n = some v → Sound v) :
      Sound (.record r)

/-- The value is the same as itself, and a sound value that it is the same as is to all values
what it is to them. -/
structure Replaceable (v : Value) : Prop where
  self : v.same v = true
  congr : ∀ w, w.Sound → v.same w = true → ∀ u, v.same u = w.same u

lemma Replaceable.symm (h : v.Replaceable) (hw : w.Sound) (hvw : v.same w = true) :
    w.same v = true := by
  rw [← h.congr w hw hvw]
  exact h.self

/-- A value that is the same as no sound value but itself. -/
lemma Replaceable.of_eq (self : v.same v = true)
    (h : ∀ w, w.Sound → v.same w = true → v = w) : v.Replaceable where
  self := self
  congr w hw hvw u := by rw [← h w hw hvw]

/-! ### Lists and sets -/

lemma Replaceable.list (h : ∀ x ∈ xs, x.Replaceable) : (Value.list xs).Replaceable where
  self := same_list.2 (List.forall₂_same.2 fun x hx => (h x hx).self)
  congr := by
    intro w hw hxs u
    cases hw with
    | list ys hys =>
      cases u with
      | list zs =>
        rw [same_list] at hxs
        rw [Bool.eq_iff_iff, same_list, same_list]
        induction hxs generalizing zs with
        | nil => rfl
        | @cons x y xs ys hxy _ ih =>
          rw [List.forall_mem_cons] at h hys
          cases zs with
          | nil => simp
          | cons z zs =>
            rw [List.forall₂_cons, List.forall₂_cons, h.1.congr y hys.1 hxy z, ih h.2 hys.2]
      | bool | int | float | str | set | map | record => rfl
    | bool | int | str | set | map | record => cases hxs

lemma Replaceable.set (h : ∀ x ∈ xs, x.Replaceable) : (Value.set xs).Replaceable where
  self := by
    have each (x : Value) (hx : x ∈ xs) : ∃ y ∈ xs, x.same y = true := ⟨x, hx, (h x hx).self⟩
    exact same_set.2 ⟨rfl, each, fun x hx => ⟨x, hx, (h x hx).self⟩⟩
  congr := by
    intro w hw hxs u
    cases hw with
    | set ys hys =>
      cases u with
      | set zs =>
        obtain ⟨hlen, hto, hfrom⟩ := same_set.1 hxs
        have swap {x y z : Value} (hx : x ∈ xs) (hy : y ∈ ys) (hxy : x.same y = true) :
            x.same z = true ↔ y.same z = true := by
          rw [(h x hx).congr y (hys y hy) hxy]
        rw [Bool.eq_iff_iff, same_set, same_set, hlen]
        refine and_congr_right fun _ => and_congr ⟨?_, ?_⟩ ⟨?_, ?_⟩
        · intro hall y hy
          obtain ⟨x, hx, hxy⟩ := hfrom y hy
          obtain ⟨z, hz, hxz⟩ := hall x hx
          exact ⟨z, hz, (swap hx hy hxy).1 hxz⟩
        · intro hall x hx
          obtain ⟨y, hy, hxy⟩ := hto x hx
          obtain ⟨z, hz, hyz⟩ := hall y hy
          exact ⟨z, hz, (swap hx hy hxy).2 hyz⟩
        · intro hall z hz
          obtain ⟨x, hx, hxz⟩ := hall z hz
          obtain ⟨y, hy, hxy⟩ := hto x hx
          exact ⟨y, hy, (swap hx hy hxy).1 hxz⟩
        · intro hall z hz
          obtain ⟨y, hy, hyz⟩ := hall z hz
          obtain ⟨x, hx, hxy⟩ := hfrom y hy
          exact ⟨x, hx, (swap hx hy hxy).2 hyz⟩
      | bool | int | float | str | list | map | record => rfl
    | bool | int | str | list | map | record => cases hxs

/-! ### Maps -/

/-- Among keys that differ none is the same as another one, whichever of the two comes first. -/
lemma eq_of_same_keys (hd : es.Pairwise fun e f => e.1.same f.1 = false)
    (hs : ∀ e ∈ es, e.1.Sound) (hk : ∀ e ∈ es, e.1.Replaceable) {e f : Value × Value}
    (he : e ∈ es) (hf : f ∈ es) (h : e.1.same f.1 = true) : e = f := by
  have hboth : es.Pairwise fun e f => e.1.same f.1 = false ∧ f.1.same e.1 = false := by
    refine hd.imp_of_mem fun {e f} he hf hef => ⟨hef, ?_⟩
    rw [← Bool.not_eq_true] at hef ⊢
    exact fun hfe => hef ((hk f hf).symm (hs e he) hfe)
  have : Std.Symm fun e f : Value × Value => e.1.same f.1 = false ∧ f.1.same e.1 = false :=
    ⟨fun _ _ => And.symm⟩
  by_contra hne
  exact Bool.false_ne_true ((hboth.forall he hf hne).1.symm.trans h)

/-- In any order of the entries, a key finds the one that it stands in. -/
lemma find?_of_perm (hd : es.Pairwise fun e f => e.1.same f.1 = false)
    (hs : ∀ e ∈ es, e.1.Sound) (hk : ∀ e ∈ es, e.1.Replaceable) (hp : es.Perm fs)
    {e : Value × Value} (he : e ∈ es) : (fs.find? fun f => e.1.same f.1) = some e := by
  refine find?_only (hp.mem_iff.1 he) (hk e he).self fun f hf hkey => ?_
  exact (eq_of_same_keys hd hs hk he (hp.mem_iff.2 hf) hkey).symm

/-- Keys that differ cannot be the same as one sound value. -/
lemma apart_of_differ (hd : es.Pairwise fun e f => e.1.same f.1 = false)
    (hk : ∀ e ∈ es, e.1.Replaceable) (hfs : ∀ f ∈ fs, f.1.Sound) :
    es.Pairwise fun e f => ∀ g ∈ fs, ¬(e.1.same g.1 = true ∧ f.1.same g.1 = true) := by
  refine hd.imp_of_mem fun {e f} he hf hef g hg h => Bool.false_ne_true (hef.symm.trans ?_)
  rw [(hk e he).congr g.1 (hfs g hg) h.1]
  exact (hk f hf).symm (hfs g hg) h.2

lemma Replaceable.map (hd : es.Pairwise fun e f => e.1.same f.1 = false)
    (hs : ∀ e ∈ es, e.1.Sound) (hk : ∀ e ∈ es, e.1.Replaceable)
    (hv : ∀ e ∈ es, e.2.Replaceable) : (Value.map es).Replaceable where
  self := same_map.2 ⟨rfl, fun e he => ⟨e, find?_of_perm hd hs hk (.refl es) he, (hv e he).self⟩⟩
  congr := by
    intro w hw hes u
    cases hw with
    | map fs _ hfk hfv =>
      cases u with
      | map gs =>
        obtain ⟨found, hperm, hfound⟩ := exists_matching (apart_of_differ hd hk hfk) hes
        have swap (e : Value × Value) (he : e ∈ es) : Finds e gs ↔ Finds (found e) gs := by
          have hmem : found e ∈ fs := hperm.mem_iff.1 (List.mem_map_of_mem he)
          have hkey := (hk e he).congr _ (hfk _ hmem) (hfound e he).1
          have hvalue := (hv e he).congr _ (hfv _ hmem) (hfound e he).2
          simp only [Finds, hkey, hvalue]
        rw [Bool.eq_iff_iff, same_map, same_map, (same_map.1 hes).1]
        refine and_congr_right fun _ => ?_
        simp only [← hperm.mem_iff, List.forall_mem_map]
        exact forall₂_congr swap
      | bool | int | float | str | set | list | record => rfl
    | bool | int | str | set | list | record => cases hes

/-! ### Records -/

/-- Two lawful records that are the same name the same attributes. -/
lemma names_perm {r s : Record} (hr : r.Lawful) (hs : s.Lawful)
    (h : (record r).same (record s) = true) : r.names.Perm s.names := by
  obtain ⟨hlen, hall⟩ := Comparing.sameRecords_iff.1 h
  have hsub : r.names ⊆ s.names := Comparing.names_subset hs hall
  exact (hr.nodup.subperm hsub).perm_of_length_le (Nat.le_of_eq hlen.symm)

lemma Replaceable.record (hr : r.Lawful) (h : ∀ n v, r.read n = some v → v.Replaceable) :
    (Value.record r).Replaceable where
  self := by
    refine Comparing.sameRecords_iff.2 ⟨rfl, fun n hn => ?_⟩
    obtain ⟨v, hv⟩ := Option.isSome_iff_exists.1 ((hr.reads n).2 hn)
    rw [hv]
    exact (h n v hv).self
  congr := by
    intro w hw hrs u
    cases hw with
    | record s hs hattributes =>
      cases u with
      | record t =>
        have hperm := names_perm hr hs.lawful hrs
        obtain ⟨hlen, hall⟩ := Comparing.sameRecords_iff.1 hrs
        have swap (n : String) (hn : n ∈ r.names) :
            sameReads (r.read n) (t.read n) = sameReads (s.read n) (t.read n) := by
          obtain ⟨v, w, hv, hw, hvw⟩ := Comparing.exists_of_sameReads (hall n hn)
          rw [hv, hw]
          cases t.read n with
          | none => rfl
          | some u => exact (h n v hv).congr w (hattributes n w hw) hvw u
        change sameRecords r t = sameRecords s t
        rw [Bool.eq_iff_iff, Comparing.sameRecords_iff, Comparing.sameRecords_iff, hlen]
        refine and_congr_right fun _ => ?_
        simp only [← hperm.mem_iff]
        exact forall₂_congr fun n hn => by rw [swap n hn]
      | bool | int | float | str | set | list | map => rfl
    | bool | int | str | set | list | map => cases hrs

/-! ### The equivalence -/

lemma Sound.replaceable (h : v.Sound) : v.Replaceable := by
  induction h with
  | bool a =>
    refine .of_eq (beq_self_eq_true a) fun w hw h => ?_
    cases hw with
    | bool b => exact congrArg Value.bool (beq_iff_eq.1 h)
    | int | str | set | list | map | record => cases h
  | int a =>
    refine .of_eq (beq_self_eq_true a) fun w hw h => ?_
    cases hw with
    | int b => exact congrArg Value.int (beq_iff_eq.1 h)
    | bool | str | set | list | map | record => cases h
  | str a =>
    refine .of_eq (beq_self_eq_true a) fun w hw h => ?_
    cases hw with
    | str b => exact congrArg Value.str (beq_iff_eq.1 h)
    | bool | int | set | list | map | record => cases h
  | set items _ ih => exact .set ih
  | list items _ ih => exact .list ih
  | map entries hd hs _ ihk ihv => exact .map hd hs ihk ihv
  | record r hr _ ih => exact .record hr.lawful ih

/-- **Structural equality is an equivalence relation** on sound values. Sets are the same in
any order of their elements, and maps in any order of their entries. -/
theorem same_equivalence :
    (Equivalence fun v w : {v : Value // v.Sound} => v.1.same w.1 = true) ∧
    (∀ xs ys : List Value, (set xs).Sound → xs.Perm ys → (set xs).same (set ys) = true) ∧
    ∀ es fs : List (Value × Value), (map es).Sound → es.Perm fs →
      (map es).same (map fs) = true := by
  refine ⟨⟨?refl, ?symm, ?trans⟩, ?sets, ?maps⟩
  case refl => exact fun v => v.2.replaceable.self
  case symm => exact fun {v w} h => v.2.replaceable.symm w.2 h
  case trans =>
    intro u v w huv hvw
    rw [u.2.replaceable.congr v.1 v.2 huv]
    exact hvw
  case sets =>
    intro xs ys hxs hp
    cases hxs with
    | set _ h =>
      have self (x : Value) (hx : x ∈ xs) : x.same x = true := (h x hx).replaceable.self
      refine same_set.2 ⟨hp.length_eq, fun x hx => ?_, fun y hy => ?_⟩
      · exact ⟨x, hp.mem_iff.1 hx, self x hx⟩
      · exact ⟨y, hp.mem_iff.2 hy, self y (hp.mem_iff.2 hy)⟩
  case maps =>
    intro es fs hes hp
    cases hes with
    | map _ hd hk hv =>
      refine same_map.2 ⟨hp.length_eq, fun e he => ⟨e, ?_, (hv e he).replaceable.self⟩⟩
      exact find?_of_perm hd hk (fun f hf => (hk f hf).replaceable) hp he

/-- A map with a set and a tuple in it, and the set and the map the other way round. -/
theorem same_equivalence_reordered :
    ∃ (xs : List Value) (es : List (Value × Value)), xs.length = 2 ∧ es.length = 2 ∧
      (set xs).Sound ∧ (map es).Sound ∧ (set xs).same (set xs.reverse) = true ∧
      (map es).same (map es.reverse) = true := by
  let t : Tuple := ⟨[("x", .int 2), ("y", .str "s")]⟩
  let xs : List Value := [.int 1, .list [.bool true]]
  let es : List (Value × Value) := [(.str "a", .set xs), (.int 3, .record t.toRecord)]
  have hxs : (set xs).Sound := by
    have hlist : (list [.bool true]).Sound := .list _ (List.forall_mem_singleton.2 (.bool true))
    exact .set xs (by simp [xs, Sound.int 1, hlist])
  have hread (n : String) (v : Value) (h : t.toRecord.read n = some v) : v.Sound := by
    rw [Tuple.read_toRecord] at h
    obtain ⟨d, hd, rfl⟩ := Option.map_eq_some_iff.1 h
    have hmem : (n, d) ∈ t.attributes := Names.mem_of_lookup hd
    simp only [t, List.mem_cons, Prod.mk.injEq, List.not_mem_nil, or_false] at hmem
    rcases hmem with ⟨-, rfl⟩ | ⟨-, rfl⟩
    · exact .int 2
    · exact .str "s"
  have ht : (record t.toRecord).Sound := by
    refine .record _ (.tuple t ?_) hread
    simp [t, Tuple.toDatum, Datum.Distinct, Datum.AttributesDistinct]
  have hes : (map es).Sound := by
    refine .map es ?_ ?_ ?_
    · simp only [es, List.pairwise_pair]
      decide
    · simp [es, Sound.str "a", Sound.int 3]
    · simp [es, hxs, ht]
  obtain ⟨-, sets, maps⟩ := same_equivalence
  exact ⟨xs, es, rfl, rfl, hxs, hes, sets xs _ hxs xs.reverse_perm.symm,
    maps es _ hes es.reverse_perm.symm⟩

end RecordRules.Value
