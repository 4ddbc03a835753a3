import Mathlib.Logic.Relation
import RecordRules.Proofs.JsonTuple

/-!
The records that are stored as data, which are tuples and JSON objects. They keep what the
interface of records leaves open: each name stands once, what is named can be read, and the
type of a value is the one that its kind spells. So do the records that they hold.
-/

namespace RecordRules

/-- The type spells the kind of the value: as a whole for a plain value, and as far as the
angle bracket for one with parts. For a record it is the schema. -/
structure Value.TypedBy (v : Value) (type : String) : Prop where
  plain : v.kind.isCollection = false → v.kind ≠ .record → type = v.kind.name
  parts : v.kind.isCollection = true ∨ v.kind = .record →
    ∃ rest, type = v.kind.name ++ "<" ++ rest
  schema : ∀ r, v = .record r → type = r.schema

namespace Record

structure Lawful (r : Record) : Prop where
  nodup : r.names.Nodup
  reads : ∀ n, (r.read n).isSome = true ↔ n ∈ r.names
  types : ∀ n v, r.read n = some v → ∃ type, r.typeOf n = some type ∧ v.TypedBy type

/-- The first record has the second one as an attribute. -/
def Holds (r s : Record) : Prop := ∃ n ∈ r.names, r.read n = some (.record s)

/-- The property holds of the record and of all records inside it that are reached through
records alone. -/
def Throughout (P : Record → Prop) (r : Record) : Prop :=
  ∀ s, Relation.ReflTransGen Holds r s → P s

lemma Throughout.self {P : Record → Prop} {r : Record} (h : r.Throughout P) : P r := h r .refl

lemma Throughout.inside {P : Record → Prop} {r s : Record} (h : r.Throughout P)
    (hs : r.Holds s) : s.Throughout P :=
  fun u hu => h u (.head hs hu)

lemma Throughout.intro {P : Record → Prop} {r : Record} (self : P r)
    (inside : ∀ s, r.Holds s → s.Throughout P) : r.Throughout P := by
  intro s hs
  obtain rfl | ⟨t, ht, hts⟩ := hs.cases_head
  · exact self
  · exact inside t ht s hts

mutual

/-- Induction from the records inside to the record that holds them. -/
theorem induct {P : Record → Prop} (step : ∀ r, (∀ s, r.Holds s → P s) → P r) (r : Record) :
    P r := by
  cases r with
  | mk names typeOf read =>
    refine step _ fun s hs => ?_
    obtain ⟨n, -, hn⟩ := hs
    exact induct_read step (read n) s hn
termination_by structural r

theorem induct_read {P : Record → Prop} (step : ∀ r, (∀ s, r.Holds s → P s) → P r)
    (v : Option Value) (s : Record) (h : v = some (.record s)) : P s := by
  cases v with
  | none => cases h
  | some w =>
    cases w with
    | record r =>
      obtain rfl : r = s := by simpa using h
      exact induct step r
    | bool | int | float | str | set | list | map => cases h
termination_by structural v

end

/-- A tuple or a JSON object, as a record. -/
inductive Stored : Record → Prop
  | tuple (t : Tuple) (h : t.toDatum.Distinct) : Stored t.toRecord
  | json (ms : List (String × Json)) (h : (Json.object ms).Distinct) : Stored (Json.toRecord ms)

end Record

/-! ### Tuples -/

lemma Datum.typedBy (d : Datum) : d.view.TypedBy d.typeName := by
  -- one split for all kinds: the type is spelled as the kind is, or goes on with the bracket
  have spelled (kind rest : String) : kind ++ "<" ++ rest ++ ">" = kind ++ "<" ++ (rest ++ ">") :=
    String.append_assoc ..
  cases d with
  | bool | int | float | str =>
    exact ⟨fun _ _ => rfl, by simp [view, Value.kind, Kind.isCollection], by simp [view]⟩
  | set items =>
    exact ⟨by simp [view, Value.kind, Kind.isCollection],
      fun _ => ⟨_, spelled "set" (elementType items)⟩, by simp [view]⟩
  | list items =>
    exact ⟨by simp [view, Value.kind, Kind.isCollection],
      fun _ => ⟨_, spelled "list" (elementType items)⟩, by simp [view]⟩
  | map entries =>
    exact ⟨by simp [view, Value.kind, Kind.isCollection],
      fun _ => ⟨_, spelled "map" (entryType entries)⟩, by simp [view]⟩
  | tuple as =>
    refine ⟨by simp [view, Value.kind], fun _ => ⟨_, spelled "tuple" _⟩, ?_⟩
    intro r hr
    cases hr
    rfl

lemma Tuple.lawful (t : Tuple) (h : (t.attributes.map Prod.fst).Nodup) : t.toRecord.Lawful where
  nodup := h
  reads n := by
    rw [read_toRecord, Option.isSome_map]
    exact Names.isSome_lookup
  types n v hv := by
    rw [read_toRecord] at hv
    obtain ⟨d, hd, rfl⟩ := Option.map_eq_some_iff.1 hv
    exact ⟨d.typeName, by rw [typeOf_toRecord, hd, Option.map_some], d.typedBy⟩

namespace Record

variable {r s : Record}

lemma Stored.lawful (h : r.Stored) : r.Lawful := by
  cases h with
  | tuple t h => exact t.lawful h.1
  | json ms h =>
    rw [Json.toRecord_eq_tuple h]
    refine Tuple.lawful _ ?_
    change ((Json.attributes ms).map Prod.fst).Nodup
    rw [Json.attributes_eq]
    exact Names.nodup_mapped Json.datum? h.1

/-- What a stored record holds is stored in it. -/
lemma Stored.of_holds (h : r.Stored) (hs : r.Holds s) : s.Stored := by
  obtain ⟨n, -, hn⟩ := hs
  cases h with
  | tuple t h =>
    rw [Tuple.read_toRecord] at hn
    obtain ⟨d, hd, hview⟩ := Option.map_eq_some_iff.1 hn
    cases d with
    | tuple as =>
      have hrecord := (Tuple.view_toDatum ⟨as⟩).symm.trans hview
      obtain rfl := Value.record.inj hrecord
      have hmem : (n, Datum.tuple as) ∈ t.attributes := Names.mem_of_lookup hd
      exact .tuple ⟨as⟩ (Datum.attributesDistinct_iff.1 h.2 _ hmem)
    | bool | int | float | str | set | list | map => cases hview
  | json ms h =>
    obtain ⟨j, hd, hj⟩ := Json.shown_of_read h hn
    rcases Json.view_cases hj with ⟨ms', rfl, hr⟩ | ⟨js, vs, -, -, hv⟩ | ⟨-, hne⟩
    · cases hr
      exact .json ms' hd
    · cases hv
    · exact (hne rfl).elim

lemma Stored.throughout (h : r.Stored) : r.Throughout Lawful := by
  intro s hs
  refine Stored.lawful ?_
  induction hs with
  | refl => exact h
  | tail _ hs ih => exact ih.of_holds hs

end Record

end RecordRules
