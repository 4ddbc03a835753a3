import RecordRules.Engine
import RecordRules.Proofs.Distinct

/-!
JSON objects and tuples as records. A JSON object is the same record as the tuple that
holds what can be read of it: the two answer alike for every name, and so nothing that the
engine does with a record can tell them apart.
-/

namespace RecordRules

/-! ### Steps -/

/-- A step goes to an attribute of a record, an element of a list or a value of a map. -/
lemma Path.step_cases {path : String} {s : Segment} {v w : Value} (h : step path s v = .ok w) :
    (∃ r n, v = .record r ∧ r.read n = some w) ∨ (∃ vs, v = .list vs ∧ w ∈ vs) ∨
      ∃ es e, v = .map es ∧ e ∈ es ∧ e.2 = w := by
  unfold step at h
  split at h
  · next n r =>
    split at h
    · next u hu =>
      cases h
      exact .inl ⟨r, n, rfl, hu⟩
    · cases h
  · next i vs =>
    split at h
    · cases h
    · split at h
      · next u hu =>
        cases h
        exact .inr (.inl ⟨vs, rfl, List.mem_of_getElem? hu⟩)
      · cases h
  · next k es =>
    split at h
    · next e he =>
      cases h
      exact .inr (.inr ⟨es, e, rfl, List.mem_of_find?_eq_some he, rfl⟩)
    · cases h
  · cases h

/-- What each step preserves holds at the end of a path. -/
lemma Path.follow_induct {P : Value → Prop} {path : String}
    (hstep : ∀ {s v w}, P v → step path s v = .ok w → P w) {ss : List Segment} {v w : Value}
    (hv : P v) (h : follow path ss v = .ok w) : P w := by
  induction ss generalizing v with
  | nil =>
    cases h
    exact hv
  | cons s ss ih =>
    unfold follow at h
    split at h
    · cases h
    · next u hu => exact ih (hstep hv hu) h

namespace Json

open Names (mapped lookup_map lookup_mapped keys_mapped)

/-- An integer of 64 bits, or else a floating-point number. -/
def Number.datum (n : Number) : Datum :=
  match n with
  | .integer i =>
    match RecordRules.Number.int64? i with
    | some i => .int i
    | none => .float (Float.ofInt i)
  | .decimal x => .float x

mutual

/-- The datum with the data of a value, if it can be read. -/
def datum? : Json → Option Datum
  | .null => none
  | .bool b => some (.bool b)
  | .number n => some n.datum
  | .string s => some (.str s)
  | .array items => (data? items).map .list
  | .object ms => some (.tuple (attributes ms))
termination_by structural j => j

def data? : List Json → Option (List Datum)
  | [] => some []
  | j :: js =>
    match datum? j, data? js with
    | some d, some ds => some (d :: ds)
    | _, _ => none
termination_by structural js => js

/-- The members that can be read, in order. -/
def attributes : List (String × Json) → List (String × Datum)
  | [] => []
  | (n, j) :: ms =>
    match datum? j with
    | some d => (n, d) :: attributes ms
    | none => attributes ms
termination_by structural ms => ms

end

/-- The tuple with the data of an object. -/
def tuple (ms : List (String × Json)) : Tuple := ⟨attributes ms⟩

variable {js : List Json} {ms : List (String × Json)}

/-! ### What can be read -/

lemma attributes_eq (ms : List (String × Json)) : attributes ms = mapped datum? ms := by
  induction ms with
  | nil => rfl
  | cons m ms ih =>
    obtain ⟨n, j⟩ := m
    simp only [attributes, ih, mapped, List.filterMap_cons]
    cases datum? j <;> rfl

mutual

theorem isSome_datum? : (j : Json) → (datum? j).isSome = readable j
  | .null => rfl
  | .bool _ => rfl
  | .number _ => rfl
  | .string _ => rfl
  | .array items => by rw [datum?, Option.isSome_map, isSome_data? items, readable]
  | .object _ => rfl
termination_by structural j => j

theorem isSome_data? : (js : List Json) → (data? js).isSome = allReadable js
  | [] => rfl
  | j :: js => by
    rw [data?, allReadable, ← isSome_datum? j, ← isSome_data? js]
    cases datum? j <;> cases data? js <;> rfl
termination_by structural js => js

end

/-! ### One record -/

/-- A value is typed and viewed as its datum is. -/
def Agrees (j : Json) : Prop :=
  typeName j = (datum? j).map Datum.typeName ∧ view j = (datum? j).map Datum.view

lemma lookup_memberTypes (ms : List (String × Json)) (n : String) :
    ((memberTypes ms).lookup n).join = (ms.lookup n).bind typeName := by
  have h : memberTypes ms = ms.map fun m => (m.1, typeName m.2) := by
    induction ms with
    | nil => rfl
    | cons m ms ih => rw [memberTypes, ih, List.map_cons]
  rw [h, lookup_map]
  cases ms.lookup n <;> rfl

lemma lookup_memberViews (ms : List (String × Json)) (n : String) :
    ((memberViews ms).lookup n).join = (ms.lookup n).bind view := by
  have h : memberViews ms = ms.map fun m => (m.1, view m.2) := by
    induction ms with
    | nil => rfl
    | cons m ms ih => rw [memberViews, ih, List.map_cons]
  rw [h, lookup_map]
  cases ms.lookup n <;> rfl

lemma Number.agrees (n : Number) : Agrees (.number n) := by
  cases n with
  | integer i =>
    simp only [Agrees, typeName, view, datum?, Number.value, Number.datum]
    cases RecordRules.Number.int64? i <;> exact ⟨rfl, rfl⟩
  | decimal x => exact ⟨rfl, rfl⟩

lemma views_eq (h : ∀ j ∈ js, Agrees j) : views js = (data? js).map Datum.views := by
  induction js with
  | nil => rfl
  | cons j js ih =>
    rw [List.forall_mem_cons] at h
    rw [views, data?, h.1.2, ih h.2]
    cases datum? j <;> cases data? js <;> rfl

lemma firstType_eq {ds : List Datum} (h : ∀ j ∈ js, Agrees j) (hd : data? js = some ds) :
    (firstType js).getD "unknown" = Datum.elementType ds := by
  cases js with
  | nil =>
    cases hd
    rfl
  | cons j js =>
    rw [List.forall_mem_cons] at h
    rw [data?] at hd
    split at hd
    · next d ds hj _ =>
      cases hd
      rw [firstType, h.1.1, hj]
      rfl
    · cases hd

lemma array_agrees (h : ∀ j ∈ js, Agrees j) : Agrees (.array js) := by
  constructor
  · rw [typeName, ← isSome_data?, datum?]
    cases hd : data? js with
    | none => rfl
    | some ds =>
      rw [firstType_eq h hd]
      rfl
  · rw [view, datum?, views_eq h]
    cases data? js <;> rfl

lemma toRecord_eq (hd : (ms.map Prod.fst).Nodup) (h : ∀ m ∈ ms, Agrees m.2) :
    toRecord ms = (tuple ms).toRecord := by
  have look (n : String) : (attributes ms).lookup n = (ms.lookup n).bind datum? := by
    rw [attributes_eq, lookup_mapped datum? hd]
  have names : readableNames ms = (attributes ms).map Prod.fst := by
    rw [attributes_eq, keys_mapped]
    simp only [readableNames, isSome_datum?]
  have types (n : String) : ((memberTypes ms).lookup n).join =
      (Datum.attributeTypes (attributes ms)).lookup n := by
    rw [lookup_memberTypes, Datum.lookup_attributeTypes, look]
    cases hj : ms.lookup n with
    | none => rfl
    | some j => exact (h _ (Names.mem_of_lookup hj)).1
  have values (n : String) : ((memberViews ms).lookup n).join =
      (Datum.attributeViews (attributes ms)).lookup n := by
    rw [lookup_memberViews, Datum.lookup_attributeViews, look]
    cases hj : ms.lookup n with
    | none => rfl
    | some j => exact (h _ (Names.mem_of_lookup hj)).2
  simp only [toRecord, Tuple.toRecord, Record.listed, tuple, names, types, values]

lemma object_agrees (hd : (ms.map Prod.fst).Nodup) (h : ∀ m ∈ ms, Agrees m.2) :
    Agrees (.object ms) := by
  have hr := toRecord_eq hd h
  refine ⟨?_, ?_⟩
  · exact congrArg (fun r => some r.schema) hr
  · exact congrArg (fun r => some (Value.record r)) hr

mutual

theorem agrees_of_distinct : (j : Json) → j.Distinct → Agrees j
  | .null, _ => ⟨rfl, rfl⟩
  | .bool _, _ => ⟨rfl, rfl⟩
  | .number n, _ => n.agrees
  | .string _, _ => ⟨rfl, rfl⟩
  | .array js, h => array_agrees (items_agree js h)
  | .object ms, h => object_agrees h.1 (members_agree ms h.2)
termination_by structural j => j

theorem items_agree : (js : List Json) → EachDistinct js → ∀ j ∈ js, Agrees j
  | [], _ => by simp
  | j :: js, h => List.forall_mem_cons.2 ⟨agrees_of_distinct j h.1, items_agree js h.2⟩
termination_by structural js => js

theorem members_agree : (ms : List (String × Json)) → MembersDistinct ms → ∀ m ∈ ms, Agrees m.2
  | [], _ => by simp
  | (_, j) :: ms, h => List.forall_mem_cons.2 ⟨agrees_of_distinct j h.1, members_agree ms h.2⟩
termination_by structural ms => ms

end

/-- A JSON object is the same record as the tuple with its data. -/
theorem toRecord_eq_tuple (h : (Json.object ms).Distinct) : toRecord ms = (tuple ms).toRecord :=
  toRecord_eq h.1 (members_agree ms h.2)

/-! ### Values at the ends of paths -/

/-- The value is what some JSON value is read as. -/
def Shown (v : Value) : Prop := ∃ j : Json, j.Distinct ∧ view j = some v

lemma Number.isNumeric_value (n : Number) : n.value.kind.isNumeric = true := by
  cases n with
  | integer i =>
    simp only [Number.value]
    cases RecordRules.Number.int64? i <;> rfl
  | decimal x => rfl

/-- An object shows a record, an array a list, and all else neither. -/
lemma view_cases {j : Json} {v : Value} (h : view j = some v) :
    (∃ ms, j = .object ms ∧ v = .record (toRecord ms)) ∨
    (∃ js vs, j = .array js ∧ views js = some vs ∧ v = .list vs) ∨
    v.kind.isCollection = false ∧ v.kind ≠ .record := by
  cases j with
  | null => cases h
  | bool b =>
    cases h
    exact .inr (.inr ⟨rfl, by simp [Value.kind]⟩)
  | string s =>
    cases h
    exact .inr (.inr ⟨rfl, by simp [Value.kind]⟩)
  | number n =>
    cases h
    have hn := n.isNumeric_value
    refine .inr (.inr ?_)
    cases hk : n.value.kind <;> simp_all [Kind.isNumeric, Kind.isCollection]
  | array js =>
    obtain ⟨vs, hvs, rfl⟩ := Option.map_eq_some_iff.1 h
    exact .inr (.inl ⟨js, vs, rfl, hvs, rfl⟩)
  | object ms =>
    cases h
    exact .inl ⟨ms, rfl, rfl⟩

/-- What is read as a record is an object. -/
lemma exists_object {j : Json} {r : Record} (h : view j = some (.record r)) :
    ∃ ms, j = .object ms ∧ r = toRecord ms := by
  obtain ⟨ms, rfl, hv⟩ | ⟨js, vs, rfl, -, hv⟩ | ⟨-, hv⟩ := view_cases h
  · exact ⟨ms, rfl, Value.record.inj hv⟩
  · cases hv
  · exact absurd rfl hv

/-- What is read as a list is an array. -/
lemma exists_array {j : Json} {vs : List Value} (h : view j = some (.list vs)) :
    ∃ js, j = .array js ∧ views js = some vs := by
  obtain ⟨ms, rfl, hv⟩ | ⟨js, vs, rfl, hjs, hv⟩ | ⟨hv, -⟩ := view_cases h
  · cases hv
  · cases hv
    exact ⟨js, rfl, hjs⟩
  · cases hv

/-- Nothing is read as a map. -/
lemma view_ne_map {j : Json} {es : List (Value × Value)} : view j ≠ some (.map es) := by
  intro h
  obtain ⟨ms, rfl, hv⟩ | ⟨js, vs, rfl, -, hv⟩ | ⟨hv, -⟩ := view_cases h <;> cases hv

lemma exists_of_mem_views {vs : List Value} (h : views js = some vs) :
    ∀ v ∈ vs, ∃ j ∈ js, view j = some v := by
  induction js generalizing vs with
  | nil =>
    cases h
    simp
  | cons j js ih =>
    rw [views] at h
    split at h
    · next w ws hw hws =>
      cases h
      rw [List.forall_mem_cons]
      refine ⟨⟨j, List.mem_cons_self, hw⟩, fun v hv => ?_⟩
      obtain ⟨j', hj', hv'⟩ := ih hws v hv
      exact ⟨j', List.mem_cons_of_mem j hj', hv'⟩
    · cases h

lemma exists_of_read {n : String} {v : Value} (h : (toRecord ms).read n = some v) :
    ∃ j, (n, j) ∈ ms ∧ view j = some v := by
  change ((memberViews ms).lookup n).join = some v at h
  rw [lookup_memberViews] at h
  obtain ⟨j, hj, hv⟩ := Option.bind_eq_some_iff.1 h
  exact ⟨j, Names.mem_of_lookup hj, hv⟩

lemma shown_of_read {n : String} {v : Value} (hd : (Json.object ms).Distinct)
    (h : (toRecord ms).read n = some v) : Shown v := by
  obtain ⟨j, hj, hv⟩ := exists_of_read h
  exact ⟨j, membersDistinct_iff.1 hd.2 _ hj, hv⟩

/-- No step leads out of what is read from JSON. -/
lemma Shown.step {path : String} {s : Segment} {v w : Value} (hv : Shown v)
    (h : Path.step path s v = .ok w) : Shown w := by
  obtain ⟨j, hd, hj⟩ := hv
  obtain ⟨r, n, rfl, hw⟩ | ⟨vs, rfl, hw⟩ | ⟨es, e, rfl, -, -⟩ := Path.step_cases h
  · obtain ⟨ms, rfl, rfl⟩ := exists_object hj
    exact shown_of_read hd hw
  · obtain ⟨js, rfl, hjs⟩ := exists_array hj
    obtain ⟨j, hmem, hview⟩ := exists_of_mem_views hjs w hw
    exact ⟨j, eachDistinct_iff.1 hd j hmem, hview⟩
  · exact absurd hj view_ne_map

lemma Shown.follow {path : String} {ss : List Segment} {v w : Value} (hv : Shown v)
    (h : Path.follow path ss v = .ok w) : Shown w :=
  Path.follow_induct Shown.step hv h

/-- What a value is read as, and what its datum shows. -/
def Correspond (v w : Value) : Prop :=
  ∃ j d, j.Distinct ∧ datum? j = some d ∧ view j = some v ∧ d.view = w

/-- The same error, or values that correspond. -/
def SameOutcome : Except RuleError Value → Except RuleError Value → Prop
  | .error e, .error e' => e = e'
  | .ok v, .ok w => Correspond v w
  | _, _ => False

lemma Shown.correspond {v : Value} (h : Shown v) : Correspond v v := by
  obtain ⟨j, hd, hv⟩ := h
  obtain ⟨d, hj, hview⟩ := Option.map_eq_some_iff.1 ((agrees_of_distinct j hd).2.symm.trans hv)
  exact ⟨j, d, hd, hj, hv, hview⟩

lemma sameOutcome_resolve (h : (Json.object ms).Distinct) (p : Path) :
    SameOutcome (p.resolve (toRecord ms)) (p.resolve (tuple ms).toRecord) := by
  rw [← toRecord_eq_tuple h]
  cases hp : p.resolve (toRecord ms) with
  | error e => rfl
  | ok v =>
    have hs : Shown (.record (toRecord ms)) := ⟨.object ms, h, view_object ms⟩
    exact (hs.follow hp).correspond

/-- **JSON objects and tuples agree**: a JSON object and the tuple with its data have the
same names, types and schemas, along every path they fail alike or lead to values of the
same data, and an engine evaluates every rule alike on both. -/
theorem records_agree (ms : List (String × Json)) (h : (Json.object ms).Distinct) :
    (toRecord ms).names = (tuple ms).toRecord.names ∧
    (∀ n, (toRecord ms).typeOf n = (tuple ms).toRecord.typeOf n) ∧
    (toRecord ms).schema = (tuple ms).toRecord.schema ∧
    (toRecord ms).describe = (tuple ms).toRecord.describe ∧
    (∀ p : Path, SameOutcome (p.resolve (toRecord ms)) (p.resolve (tuple ms).toRecord)) ∧
    ∀ (e : Engine) (text : String) (traced : Bool),
      let a := (e.evaluate text (toRecord ms) traced).1
      let b := (e.evaluate text (tuple ms).toRecord traced).1
      a.matched = b.matched ∧ a.error? = b.error? ∧ a.trace = b.trace := by
  have hr : toRecord ms = (tuple ms).toRecord := toRecord_eq_tuple h
  refine ⟨?_, ?_, ?_, ?_, sameOutcome_resolve h, ?_⟩ <;> rw [hr]
  · intro n
    rfl
  · intro e text traced
    exact ⟨rfl, rfl, rfl⟩

/-- An array with a null inside is left out, one of empty arrays and an integer past 64 bits
are not. -/
theorem records_agree_nested :
    ∃ ms : List (String × Json), (Json.object ms).Distinct ∧
      (tuple ms).toRecord.names = ["user", "big"] ∧
      (toRecord ms).schema = "tuple<tuple<list<list<unknown>> tags> user,float64 big>" ∧
      (toRecord ms).names = (tuple ms).toRecord.names ∧
      (toRecord ms).schema = (tuple ms).toRecord.schema ∧
      (toRecord ms).describe = (tuple ms).toRecord.describe := by
  let ms : List (String × Json) := [
    ("user", .object [("tags", .array [.array []]), ("gone", .array [.array [.null]])]),
    ("big", .number (.integer 0x8000000000000000)),
    ("none", .null)]
  have hd : (Json.object ms).Distinct := by
    simp [ms, Distinct, MembersDistinct, EachDistinct]
  obtain ⟨names, -, schema, describe, -⟩ := records_agree ms hd
  exact ⟨ms, hd, rfl, by decide, names, schema, describe⟩

end Json

end RecordRules
