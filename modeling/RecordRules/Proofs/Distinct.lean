import RecordRules.Proofs.Names
import RecordRules.Record.Json
import RecordRules.Record.Tuple

/-!
Data in which no name stands twice: neither an object of JSON nor a tuple, at any depth,
has two attributes of one name. All data that is built by insertion is such data.
-/

namespace RecordRules

/-! ### JSON -/

namespace Json

mutual

/-- No object in the value has two members of one name. -/
def Distinct : Json → Prop
  | .array items => EachDistinct items
  | .object ms => (ms.map Prod.fst).Nodup ∧ MembersDistinct ms
  | _ => True
termination_by structural j => j

def EachDistinct : List Json → Prop
  | [] => True
  | j :: js => Distinct j ∧ EachDistinct js
termination_by structural js => js

def MembersDistinct : List (String × Json) → Prop
  | [] => True
  | (_, j) :: ms => Distinct j ∧ MembersDistinct ms
termination_by structural ms => ms

end

lemma eachDistinct_iff {js : List Json} : EachDistinct js ↔ ∀ j ∈ js, j.Distinct := by
  induction js with
  | nil => simp [EachDistinct]
  | cons j js ih => rw [EachDistinct, ih, List.forall_mem_cons]

lemma membersDistinct_iff {ms : List (String × Json)} :
    MembersDistinct ms ↔ ∀ m ∈ ms, m.2.Distinct := by
  induction ms with
  | nil => simp [MembersDistinct]
  | cons m ms ih => rw [MembersDistinct, ih, List.forall_mem_cons]

lemma distinct_object {ms : List (String × Json)} :
    (object ms).Distinct ↔ Names.Apart Distinct ms :=
  and_congr_right' membersDistinct_iff

lemma distinct_ofMembers {ms : List (String × Json)} (h : ∀ m ∈ ms, m.2.Distinct) :
    (ofMembers ms).Distinct :=
  distinct_object.2 (Names.apart_ofList h)

end Json

/-! ### Tuples -/

namespace Datum

mutual

/-- No tuple in the datum has two attributes of one name. -/
def Distinct : Datum → Prop
  | .set items => EachDistinct items
  | .list items => EachDistinct items
  | .map entries => EntriesDistinct entries
  | .tuple as => (as.map Prod.fst).Nodup ∧ AttributesDistinct as
  | _ => True
termination_by structural d => d

def EachDistinct : List Datum → Prop
  | [] => True
  | d :: ds => Distinct d ∧ EachDistinct ds
termination_by structural ds => ds

def EntriesDistinct : List (Datum × Datum) → Prop
  | [] => True
  | (k, v) :: es => Distinct k ∧ Distinct v ∧ EntriesDistinct es
termination_by structural es => es

def AttributesDistinct : List (String × Datum) → Prop
  | [] => True
  | (_, d) :: as => Distinct d ∧ AttributesDistinct as
termination_by structural as => as

end

lemma eachDistinct_iff {ds : List Datum} : EachDistinct ds ↔ ∀ d ∈ ds, d.Distinct := by
  induction ds with
  | nil => simp [EachDistinct]
  | cons d ds ih => rw [EachDistinct, ih, List.forall_mem_cons]

lemma attributesDistinct_iff {as : List (String × Datum)} :
    AttributesDistinct as ↔ ∀ a ∈ as, a.2.Distinct := by
  induction as with
  | nil => simp [AttributesDistinct]
  | cons a as ih => rw [AttributesDistinct, ih, List.forall_mem_cons]

lemma distinct_tuple {as : List (String × Datum)} :
    (tuple as).Distinct ↔ Names.Apart Distinct as :=
  and_congr_right' attributesDistinct_iff

lemma lookup_attributeTypes (as : List (String × Datum)) (n : String) :
    (attributeTypes as).lookup n = (as.lookup n).map typeName := by
  have h : attributeTypes as = as.map fun a => (a.1, typeName a.2) := by
    induction as with
    | nil => rfl
    | cons a as ih => rw [attributeTypes, ih, List.map_cons]
  rw [h, Names.lookup_map]

lemma lookup_attributeViews (as : List (String × Datum)) (n : String) :
    (attributeViews as).lookup n = (as.lookup n).map view := by
  have h : attributeViews as = as.map fun a => (a.1, view a.2) := by
    induction as with
    | nil => rfl
    | cons a as ih => rw [attributeViews, ih, List.map_cons]
  rw [h, Names.lookup_map]

end Datum

namespace Tuple

@[simp] lemma names_toRecord (t : Tuple) : t.toRecord.names = t.attributes.map Prod.fst := rfl

@[simp] lemma typeOf_toRecord (t : Tuple) (n : String) :
    t.toRecord.typeOf n = (t.get? n).map Datum.typeName :=
  Datum.lookup_attributeTypes t.attributes n

@[simp] lemma read_toRecord (t : Tuple) (n : String) :
    t.toRecord.read n = (t.get? n).map Datum.view :=
  Datum.lookup_attributeViews t.attributes n

lemma attributes_ofList (as : List (String × Datum)) :
    (ofList as).attributes = Entries.ofList as :=
  (List.foldl_hom attributes fun _ _ => rfl).symm

/-- Insertions into the empty tuple give nothing else. -/
lemma distinct_ofList {as : List (String × Datum)} (h : ∀ a ∈ as, a.2.Distinct) :
    (ofList as).toDatum.Distinct := by
  rw [toDatum, attributes_ofList]
  exact Datum.distinct_tuple.2 (Names.apart_ofList h)

end Tuple

end RecordRules
