import RecordRules.Entries
import RecordRules.Value

/-!
Tuples: records that own their data.

A tuple is a list of named data in order of insertion. The type of a collection is that of
its first element or entry, and is unknown where there is none.
-/

namespace RecordRules

inductive Datum where
  | bool (b : Bool)
  | int (i : Int64)
  | float (x : Float)
  | str (s : String)
  | set (items : List Datum)
  | list (items : List Datum)
  | map (entries : List (Datum × Datum))
  | tuple (attributes : List (String × Datum))

namespace Datum

mutual

/-- Equality part by part, in order: unlike structural equality it tells an integer from a
floating-point number and heeds the order of sets and maps. -/
def equal : Datum → Datum → Bool
  | .bool a, .bool b => a == b
  | .int a, .int b => a == b
  | .float a, .float b => a == b
  | .str a, .str b => a == b
  | .set a, .set b => equalLists a b
  | .list a, .list b => equalLists a b
  | .map a, .map b => equalEntries a b
  | .tuple a, .tuple b => equalAttributes a b
  | _, _ => false
termination_by structural d => d

def equalLists : List Datum → List Datum → Bool
  | [], [] => true
  | x :: xs, y :: ys => equal x y && equalLists xs ys
  | _, _ => false
termination_by structural ds => ds

def equalEntries : List (Datum × Datum) → List (Datum × Datum) → Bool
  | [], [] => true
  | (k, v) :: es, (k', v') :: es' => equal k k' && equal v v' && equalEntries es es'
  | _, _ => false
termination_by structural es => es

def equalAttributes : List (String × Datum) → List (String × Datum) → Bool
  | [], [] => true
  | (n, d) :: as, (n', d') :: as' => n == n' && equal d d' && equalAttributes as as'
  | _, _ => false
termination_by structural as => as

end

instance : BEq Datum := ⟨equal⟩

/-- The set of the items, without those that equal an earlier one. -/
def ofItems (items : List Datum) : Datum := .set (Entries.distinct items)

/-- The map of the entries; of two with equal keys the later value counts. -/
def ofEntries (entries : List (Datum × Datum)) : Datum := .map (Entries.ofList entries)

mutual

def typeName : Datum → String
  | .bool _ => Kind.bool.name
  | .int _ => Kind.int.name
  | .float _ => Kind.float.name
  | .str _ => Kind.str.name
  | .set items => "set<" ++ elementType items ++ ">"
  | .list items => "list<" ++ elementType items ++ ">"
  | .map entries => "map<" ++ entryType entries ++ ">"
  | .tuple attributes =>
    let types := attributeTypes attributes
    Record.typeText (attributes.map Prod.fst) (types.lookup ·)
termination_by structural d => d

def elementType : List Datum → String
  | [] => "unknown"
  | d :: _ => typeName d
termination_by structural ds => ds

def entryType : List (Datum × Datum) → String
  | [] => "unknown,unknown"
  | (k, v) :: _ => typeName k ++ "," ++ typeName v
termination_by structural es => es

def attributeTypes : List (String × Datum) → List (String × String)
  | [] => []
  | (n, d) :: as => (n, typeName d) :: attributeTypes as
termination_by structural as => as

end

mutual

/-- The value that a datum shows. -/
def view : Datum → Value
  | .bool b => .bool b
  | .int i => .int i
  | .float x => .float x
  | .str s => .str s
  | .set items => .set (views items)
  | .list items => .list (views items)
  | .map entries => .map (entryViews entries)
  | .tuple attributes =>
    .record (.listed (attributes.map Prod.fst) (attributeTypes attributes)
      (attributeViews attributes))
termination_by structural d => d

def views : List Datum → List Value
  | [] => []
  | d :: ds => view d :: views ds
termination_by structural ds => ds

def entryViews : List (Datum × Datum) → List (Value × Value)
  | [] => []
  | (k, v) :: es => (view k, view v) :: entryViews es
termination_by structural es => es

def attributeViews : List (String × Datum) → List (String × Value)
  | [] => []
  | (n, d) :: as => (n, view d) :: attributeViews as
termination_by structural as => as

end

end Datum

structure Tuple where
  attributes : List (String × Datum)

namespace Tuple

def empty : Tuple := ⟨[]⟩

/-- Sets an attribute; one that is there already keeps its place. -/
def insert (t : Tuple) (name : String) (value : Datum) : Tuple :=
  ⟨Entries.insert name value t.attributes⟩

/-- The tuple made by the insertions, one after the other. -/
def ofList (attributes : List (String × Datum)) : Tuple :=
  attributes.foldl (fun t a => t.insert a.1 a.2) empty

def get? (t : Tuple) (name : String) : Option Datum := t.attributes.lookup name

def length (t : Tuple) : Nat := t.attributes.length

def isEmpty (t : Tuple) : Bool := t.attributes.isEmpty

def toDatum (t : Tuple) : Datum := .tuple t.attributes

def toRecord (t : Tuple) : Record :=
  .listed (t.attributes.map Prod.fst) (Datum.attributeTypes t.attributes)
    (Datum.attributeViews t.attributes)

theorem view_toDatum (t : Tuple) : t.toDatum.view = .record t.toRecord := rfl

end Tuple

end RecordRules
