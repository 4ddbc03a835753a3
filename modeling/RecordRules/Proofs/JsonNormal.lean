import RecordRules.Proofs.Float.Whole
import RecordRules.Proofs.JsonTuple
import RecordRules.Proofs.Sameness

/-!
JSON objects written out again. What is written is what can be read: the unreadable members are
gone, and integers past 64 bits are floating-point numbers. The object that is written stands for
the same record, so that writing it once more gives it again.
-/

namespace RecordRules.Json

open Names (mapped lookup_mapped keys_mapped nodup_mapped mem_mapped)

/-! ### JSON values as they are held -/

/-- Integers have 64 bits, with a sign or without one, and all else is finite. -/
def Number.InRange : Number → Prop
  | .integer n => -0x8000000000000000 ≤ n ∧ n < 0x10000000000000000
  | .decimal x => x.isFinite = true

/-- The numbers are in range, and no object has two members of one name. -/
inductive Held : Json → Prop
  | null : Held .null
  | bool (b : Bool) : Held (.bool b)
  | number {n : Number} (h : n.InRange) : Held (.number n)
  | string (s : String) : Held (.string s)
  | array {js : List Json} (h : ∀ j ∈ js, Held j) : Held (.array js)
  | object {ms : List (String × Json)} (hd : (ms.map Prod.fst).Nodup)
      (h : ∀ m ∈ ms, Held m.2) : Held (.object ms)

variable {j : Json} {js : List Json} {ms : List (String × Json)} {v w : Value} {vs : List Value}

lemma Held.distinct (h : j.Held) : j.Distinct := by
  induction h with
  | null | bool | number | string => trivial
  | array h ih => exact eachDistinct_iff.2 ih
  | object hd h ih => exact distinct_object.2 ⟨hd, ih⟩

/-! ### Numbers -/

lemma Number.isInt_or_finite {n : Number} (h : n.InRange) :
    (∃ i, n.value = .int i) ∨ ∃ x, n.value = .float x ∧ x.isFinite = true := by
  cases n with
  | integer i =>
    simp only [Number.value]
    cases RecordRules.Number.int64? i with
    | some i => exact .inl ⟨i, rfl⟩
    | none =>
      obtain ⟨hlow, hhigh⟩ := h
      exact .inr ⟨_, rfl, RecordRules.Number.isFinite_ofInt (by omega) (by omega)⟩
  | decimal x => exact .inr ⟨x, rfl, h⟩

/-- A number is written as one that stands for the same. -/
lemma Number.exists_toJson {n : Number} (h : n.InRange) :
    ∃ m : Number, n.value.toJson = .number m ∧ m.InRange ∧ m.value = n.value := by
  obtain ⟨i, hi⟩ | ⟨x, hx, hf⟩ := isInt_or_finite h
  · rw [hi]
    have hlow := i.le_toInt
    have hhigh := i.toInt_lt
    refine ⟨.integer i.toInt, rfl, ⟨by omega, by omega⟩, ?_⟩
    rw [Number.value, RecordRules.Number.int64?_toInt]
  · rw [hx]
    exact ⟨.decimal x, if_pos hf, hf, rfl⟩

lemma not_isNaN_of_isFinite {x : Float} (h : x.isFinite = true) : x.isNaN = false := by
  change x.toModel.unpack.isFinite = true at h
  change x.toModel.unpack.isNaN = false
  cases hu : x.toModel.unpack with
  | notANumber => rw [hu] at h; cases h
  | infinity | zero | finite => rfl

/-! ### Arrays -/

lemma views_eq_some : views js = some vs ↔ List.Forall₂ (fun j v => view j = some v) js vs := by
  induction js generalizing vs with
  | nil => cases vs <;> simp [views]
  | cons j js ih =>
    cases vs with
    | nil => cases hj : view j <;> cases hjs : views js <;> simp [views, hj, hjs]
    | cons v vs =>
      rw [List.forall₂_cons, ← ih]
      cases hj : view j <;> cases hjs : views js <;> simp [views, hj, hjs]

lemma toJsons_eq_map (vs : List Value) : Value.toJsons vs = vs.map Value.toJson := by
  induction vs with
  | nil => rfl
  | cons v vs ih => rw [Value.toJsons, ih, List.map_cons]

/-- What is written for a value reads back as that value, with the type it had. -/
structure Restored (j : Json) (v : Value) : Prop where
  held : v.toJson.Held
  view : v.toJson.view = some v
  typeName : v.toJson.typeName = j.typeName

lemma restored_items (h : ∀ j ∈ js, ∀ v, view j = some v → Restored j v) (hv : views js = some vs) :
    List.Forall₂ Restored js vs := by
  rw [views_eq_some] at hv
  induction hv with
  | nil => exact .nil
  | cons hv _ ih =>
    rw [List.forall_mem_cons] at h
    exact .cons (h.1 _ hv) (ih h.2)

lemma held_toJsons (h : List.Forall₂ Restored js vs) : ∀ j ∈ Value.toJsons vs, j.Held := by
  induction h with
  | nil => nofun
  | cons h _ ih => exact List.forall_mem_cons.2 ⟨h.held, ih⟩

lemma views_toJsons (h : List.Forall₂ Restored js vs) : views (Value.toJsons vs) = some vs := by
  rw [views_eq_some, toJsons_eq_map, List.forall₂_map_left_iff]
  induction h with
  | nil => exact .nil
  | cons h _ ih => exact .cons h.view ih

lemma firstType_toJsons (h : List.Forall₂ Restored js vs) :
    firstType (Value.toJsons vs) = firstType js := by
  induction h with
  | nil => rfl
  | cons h _ ih => rw [Value.toJsons, firstType, firstType, h.typeName, ih]

lemma allReadable_of_views (hjs : ∀ j ∈ js, j.Held) (h : views js = some vs) :
    allReadable js = true := by
  have hd : EachDistinct js := eachDistinct_iff.2 fun j hj => (hjs j hj).distinct
  rw [← isSome_data?, ← Option.isSome_map (f := Datum.views), ← views_eq (items_agree js hd), h]
  rfl

lemma restored_array (hjs : ∀ j ∈ js, j.Held) (hv : views js = some vs)
    (h : List.Forall₂ Restored js vs) : Restored (.array js) (.list vs) := by
  have held : ∀ j ∈ Value.toJsons vs, j.Held := held_toJsons h
  have hback : views (Value.toJsons vs) = some vs := views_toJsons h
  refine ⟨.array held, ?_, ?_⟩
  · rw [Value.toJson, view, hback]
    rfl
  · rw [Value.toJson, typeName, typeName, if_pos (allReadable_of_views held hback),
      if_pos (allReadable_of_views hjs hv), firstType_toJsons h]

/-! ### Objects -/

/-- What a value is written as, if it can be read. -/
def normal? (j : Json) : Option Json := (view j).map Value.toJson

lemma isSome_view (h : j.Held) : (view j).isSome = readable j := by
  rw [(agrees_of_distinct j h.distinct).2, Option.isSome_map, isSome_datum?]

lemma isSome_normal? (h : j.Held) : (normal? j).isSome = readable j := by
  rw [normal?, Option.isSome_map, isSome_view h]

/-- Only what can be read has a type. -/
lemma typeName_of_view (h : j.Held) (hv : view j = none) : typeName j = none := by
  obtain ⟨htype, hview⟩ := agrees_of_distinct j h.distinct
  rw [hview, Option.map_eq_none_iff] at hv
  rw [htype, hv]
  rfl

lemma insert_of_not_mem {es : List (String × Json)} {n : String} (j : Json)
    (h : n ∉ es.map Prod.fst) : Entries.insert n j es = es ++ [(n, j)] := by
  induction es with
  | nil => rfl
  | cons e es ih =>
    rw [List.map_cons, List.mem_cons, not_or] at h
    rw [Entries.insert, if_neg (by simpa using Ne.symm h.1), ih h.2, List.cons_append]

/-- Entries under different names stay as they are. -/
lemma ofList_of_nodup {es : List (String × Json)} (h : (es.map Prod.fst).Nodup) :
    Entries.ofList es = es := by
  have fold (acc : List (String × Json)) (hacc : ((acc ++ es).map Prod.fst).Nodup) :
      es.foldl (fun acc e => Entries.insert e.1 e.2 acc) acc = acc ++ es := by
    induction es generalizing acc with
    | nil => rw [List.foldl_nil, List.append_nil]
    | cons e es ih =>
      have hnew : e.1 ∉ acc.map Prod.fst := by
        rw [List.map_append, List.nodup_append] at hacc
        exact fun hmem => hacc.2.2 _ hmem _ List.mem_cons_self rfl
      rw [List.append_cons] at hacc ⊢
      rw [List.foldl_cons, insert_of_not_mem e.2 hnew]
      exact ih (List.nodup_cons.1 h).2 _ hacc
  exact fold [] h

/-- An object is written with the members that can be read, in their order. -/
lemma recordToJson_toRecord (hd : (ms.map Prod.fst).Nodup) (h : ∀ m ∈ ms, m.2.Held) :
    Value.recordToJson (toRecord ms) = .object (mapped normal? ms) := by
  have look (m : String × Json) (hm : m ∈ ms) :
      (Value.readToJson ((toRecord ms).read m.1)).map (fun j => (m.1, j)) =
        (normal? m.2).map fun j => (m.1, j) := by
    change (Value.readToJson ((memberViews ms).lookup m.1).join).map _ = _
    rw [lookup_memberViews, Names.lookup_of_mem hd hm, Option.bind_some, normal?]
    cases view m.2 <;> rfl
  have hmembers : ((readableNames ms).filterMap fun n =>
      (Value.readToJson ((toRecord ms).read n)).map fun j => (n, j)) = mapped normal? ms := by
    rw [readableNames, List.filterMap_map, List.filterMap_filter, mapped]
    refine List.filterMap_congr fun m hm => ?_
    rw [Function.comp_apply, look m hm, ← isSome_normal? (h m hm)]
    cases normal? m.2 <;> rfl
  change ofMembers ((readableNames ms).filterMap fun n =>
    (Value.readToJson ((toRecord ms).read n)).map fun j => (n, j)) = _
  rw [hmembers, ofMembers, ofList_of_nodup (nodup_mapped normal? hd)]

lemma keys_normal (h : ∀ m ∈ ms, m.2.Held) :
    (mapped normal? ms).map Prod.fst = readableNames ms := by
  rw [keys_mapped, readableNames]
  exact congrArg _ (List.filter_congr fun m hm => isSome_normal? (h m hm))

lemma toRecord_normal (hd : (ms.map Prod.fst).Nodup) (h : ∀ m ∈ ms, m.2.Held)
    (hr : ∀ m ∈ ms, ∀ v, view m.2 = some v → Restored m.2 v) :
    toRecord (mapped normal? ms) = toRecord ms := by
  have back (n : String) : ((ms.lookup n).bind normal?).bind view = (ms.lookup n).bind view ∧
      ((ms.lookup n).bind normal?).bind typeName = (ms.lookup n).bind typeName := by
    cases hj : ms.lookup n with
    | none => exact ⟨rfl, rfl⟩
    | some j =>
      have hmem : (n, j) ∈ ms := Names.mem_of_lookup hj
      simp only [Option.bind_some, normal?]
      cases hv : view j with
      | none => exact ⟨rfl, (typeName_of_view (h _ hmem) hv).symm⟩
      | some v => exact ⟨(hr _ hmem v hv).view, (hr _ hmem v hv).typeName⟩
  have hnames : readableNames (mapped normal? ms) = readableNames ms := by
    have hall : ∀ m ∈ mapped normal? ms, readable m.2 = true := by
      intro m hm
      obtain ⟨j, hj, hm⟩ := mem_mapped.1 hm
      obtain ⟨v, hv, hm⟩ := Option.map_eq_some_iff.1 hm
      obtain ⟨hheld, hview, -⟩ := hr _ hj v hv
      rw [← hm, ← isSome_view hheld, hview]
      rfl
    rw [readableNames, List.filter_eq_self.2 hall, keys_normal h]
  have htypes (n : String) : ((memberTypes (mapped normal? ms)).lookup n).join =
      ((memberTypes ms).lookup n).join := by
    rw [lookup_memberTypes, lookup_memberTypes, lookup_mapped normal? hd]
    exact (back n).2
  have hviews (n : String) : ((memberViews (mapped normal? ms)).lookup n).join =
      ((memberViews ms).lookup n).join := by
    rw [lookup_memberViews, lookup_memberViews, lookup_mapped normal? hd]
    exact (back n).1
  simp only [toRecord, hnames, htypes, hviews]

lemma restored_object (hd : (ms.map Prod.fst).Nodup) (h : ∀ m ∈ ms, m.2.Held)
    (hr : ∀ m ∈ ms, ∀ v, view m.2 = some v → Restored m.2 v) :
    Restored (.object ms) (.record (toRecord ms)) := by
  have hsame := toRecord_normal hd h hr
  have hjson : (Value.record (toRecord ms)).toJson = .object (mapped normal? ms) :=
    recordToJson_toRecord hd h
  refine ⟨?_, ?_, ?_⟩ <;> rw [hjson]
  · refine .object (nodup_mapped normal? hd) fun m hm => ?_
    obtain ⟨j, hj, hm⟩ := mem_mapped.1 hm
    obtain ⟨v, hv, hm⟩ := Option.map_eq_some_iff.1 hm
    rw [← hm]
    exact (hr _ hj v hv).held
  · rw [view_object, hsame]
  · exact congrArg (fun r => some r.schema) hsame

theorem Held.restored (h : j.Held) : ∀ v, view j = some v → Restored j v := by
  induction h with
  | null => nofun
  | bool b =>
    rintro _ ⟨⟩
    exact ⟨.bool b, rfl, rfl⟩
  | string s =>
    rintro _ ⟨⟩
    exact ⟨.string s, rfl, rfl⟩
  | @number n h =>
    rintro _ ⟨⟩
    obtain ⟨m, hm, hrange, hvalue⟩ := Number.exists_toJson h
    refine ⟨?_, ?_, ?_⟩ <;> rw [hm]
    · exact .number hrange
    · rw [view, hvalue]
    · rw [typeName, typeName, hvalue]
  | array h ih =>
    intro v hv
    obtain ⟨vs, hvs, rfl⟩ := Option.map_eq_some_iff.1 hv
    exact restored_array h hvs (restored_items ih hvs)
  | object hd h ih =>
    rintro _ ⟨⟩
    exact restored_object hd h ih

/-! ### Values at the ends of paths -/

/-- The value is what some JSON value that is held is read as. -/
def Displayed (v : Value) : Prop := ∃ j : Json, j.Held ∧ view j = some v

lemma Displayed.step {path : String} {s : Segment} (hv : Displayed v)
    (h : Path.step path s v = .ok w) : Displayed w := by
  obtain ⟨j, hheld, hj⟩ := hv
  obtain ⟨r, n, rfl, hw⟩ | ⟨vs, rfl, hw⟩ | ⟨es, e, rfl, -, -⟩ := Path.step_cases h
  · obtain ⟨ms, rfl, rfl⟩ := exists_object hj
    obtain ⟨j, hmem, hview⟩ := exists_of_read hw
    cases hheld with
    | object hd h => exact ⟨j, h _ hmem, hview⟩
  · obtain ⟨js, rfl, hjs⟩ := exists_array hj
    obtain ⟨j, hmem, hview⟩ := exists_of_mem_views hjs w hw
    cases hheld with
    | array h => exact ⟨j, h _ hmem, hview⟩
  · exact absurd hj view_ne_map

/-- What is read from JSON is the same as itself. -/
lemma Held.same_self (h : j.Held) : ∀ v, view j = some v → v.same v = true := by
  induction h with
  | null => nofun
  | bool b =>
    rintro _ ⟨⟩
    exact beq_self_eq_true b
  | string s =>
    rintro _ ⟨⟩
    exact beq_self_eq_true s
  | @number n h =>
    rintro _ ⟨⟩
    obtain ⟨i, hi⟩ | ⟨x, hx, hf⟩ := Number.isInt_or_finite h
    · rw [hi]
      exact beq_self_eq_true i
    · rw [hx]
      exact float_beq_self (not_isNaN_of_isFinite hf)
  | array h ih =>
    intro v hv
    obtain ⟨vs, hvs, rfl⟩ := Option.map_eq_some_iff.1 hv
    refine Value.same_list.2 (List.forall₂_same.2 fun v hv => ?_)
    obtain ⟨j, hj, hv⟩ := exists_of_mem_views hvs v hv
    exact ih j hj v hv
  | @object ms hd h ih =>
    rintro _ ⟨⟩
    have hlawful := (Record.Stored.json ms (Held.object hd h).distinct).lawful
    change Value.sameRecords (toRecord ms) (toRecord ms) = true
    refine Comparing.sameRecords_iff.2 ⟨rfl, fun n hn => ?_⟩
    obtain ⟨v, hv⟩ := Option.isSome_iff_exists.1 ((hlawful.reads n).2 hn)
    obtain ⟨j, hmem, hj⟩ := exists_of_read hv
    rw [hv]
    exact ih _ hmem v hj

/-- The same error, or values of one kind that are the same. -/
def SameValue : Except RuleError Value → Except RuleError Value → Prop
  | .error e, .error e' => e = e'
  | .ok v, .ok w => v.same w = true ∧ v.kind = w.kind
  | _, _ => False

lemma sameValue_resolve (h : (Json.object ms).Held) (p : Path) :
    SameValue (p.resolve (toRecord ms)) (p.resolve (toRecord ms)) := by
  cases hp : p.resolve (toRecord ms) with
  | error e => rfl
  | ok v =>
    have hroot : Displayed (.record (toRecord ms)) := ⟨.object ms, h, view_object ms⟩
    obtain ⟨j, hj, hv⟩ := Path.follow_induct Displayed.step hroot hp
    exact ⟨hj.same_self v hv, rfl⟩

/-- **Writing JSON loses nothing that can be read**: what is written for the record of a JSON
object is an object, which is written as itself. Its record has the same names, schema and types,
fails alike along every path or leads to the same value, and every engine evaluates every rule
alike on both. -/
theorem toJson_toRecord (ms : List (String × Json)) (h : (Json.object ms).Held) :
    ∃ ns, (Value.record (toRecord ms)).toJson = .object ns ∧ (Json.object ns).Held ∧
      (Value.record (toRecord ns)).toJson = .object ns ∧
      (toRecord ns).names = (toRecord ms).names ∧
      (toRecord ns).schema = (toRecord ms).schema ∧
      (toRecord ns).describe = (toRecord ms).describe ∧
      (∀ p : Path, SameValue (p.resolve (toRecord ms)) (p.resolve (toRecord ns))) ∧
      ∀ (e : Engine) (text : String) (traced : Bool),
        let a := (e.evaluate text (toRecord ms) traced).1
        let b := (e.evaluate text (toRecord ns) traced).1
        a.matched = b.matched ∧ a.error? = b.error? := by
  obtain ⟨hheld, hview, -⟩ := h.restored _ (view_object ms)
  cases h with
  | object hd hms =>
    have hjson : (Value.record (toRecord ms)).toJson = .object (mapped normal? ms) :=
      recordToJson_toRecord hd hms
    rw [hjson] at hheld hview
    -- the record is the same one, and so is what is written for it
    have hsame : toRecord (mapped normal? ms) = toRecord ms :=
      Value.record.inj (Option.some.inj hview)
    refine ⟨mapped normal? ms, hjson, hheld, ?_, ?_, ?_, ?_, ?_, ?_⟩ <;> rw [hsame]
    · exact hjson
    · exact sameValue_resolve (.object hd hms)
    · exact fun e text traced => ⟨rfl, rfl⟩

/-- The null and the array with one inside are gone, and the integer past 63 bits is a
floating-point number. -/
theorem toJson_toRecord_pruned :
    ∃ ms ns : List (String × Json), (Json.object ms).Held ∧
      ms.map Prod.fst = ["none", "big", "in"] ∧ ns.map Prod.fst = ["big", "in"] ∧
      (Value.record (toRecord ms)).toJson = .object ns ∧
      (toRecord ns).schema = (toRecord ms).schema ∧
      (Value.record (toRecord ns)).toJson = .object ns := by
  let inner : List (String × Json) :=
    [("gone", .array [.array [.null]]), ("kept", .array [.bool true])]
  let ms : List (String × Json) := [
    ("none", .null), ("big", .number (.integer 0x8000000000000000)), ("in", .object inner)]
  have hnull : (Json.array [.array [.null]]).Held := by
    refine .array fun j hj => ?_
    rw [List.mem_singleton.1 hj]
    exact .array fun j hj => List.mem_singleton.1 hj ▸ .null
  have hinner : ∀ m ∈ inner, m.2.Held := by
    simp only [inner, List.forall_mem_cons, List.not_mem_nil, false_imp_iff, implies_true, and_true]
    exact ⟨hnull, .array fun j hj => List.mem_singleton.1 hj ▸ .bool true⟩
  have hms : ∀ m ∈ ms, m.2.Held := by
    simp only [ms, List.forall_mem_cons, List.not_mem_nil, false_imp_iff, implies_true, and_true]
    exact ⟨.null, .number ⟨by decide, by decide⟩, .object (by decide) hinner⟩
  have h : (Json.object ms).Held := .object (by decide) hms
  obtain ⟨ns, hjson, -, hagain, -, hschema, -⟩ := toJson_toRecord ms h
  refine ⟨ms, ns, h, rfl, ?_, hjson, hschema, hagain⟩
  have hns : Json.object ns = .object (mapped normal? ms) :=
    hjson.symm.trans (recordToJson_toRecord (by decide) hms)
  rw [Json.object.inj hns, keys_normal hms]
  rfl

end RecordRules.Json
