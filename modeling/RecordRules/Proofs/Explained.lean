import RecordRules.Command.Run
import RecordRules.Proofs.Calls
import RecordRules.Proofs.RoundTrip

/-!
Rules told apart by their JSON. A rule is written as an object whose names say of which kind each
part is: a text is a path or a literal by the name that it stands under, a list of literals is told
from an operand, and an integer from a floating-point number by its kind. So two rules that texts
spell are written as equal JSON where they are equal rules, and only there, with floating-point
literals compared as numbers on both sides.
-/

namespace RecordRules

namespace Json

/-! ### Equality of JSON values -/

/-- Integers and floating-point numbers are of two kinds. -/
def Number.same : Number → Number → Bool
  | integer m, integer n => m == n
  | decimal x, decimal y => x == y
  | _, _ => false

mutual

/-- Equality that looks at the members of an object by their names, in whatever order. -/
def same : Json → Json → Bool
  | .null, .null => true
  | .bool a, .bool b => a == b
  | .number m, .number n => m.same n
  | .string s, .string t => s == t
  | .array js, .array ks => sameItems js ks
  | .object ms, .object ns => ms.length == ns.length && eachMemberIn ms ns
  | _, _ => false
termination_by structural j => j

def sameItems : List Json → List Json → Bool
  | [], [] => true
  | j :: js, k :: ks => same j k && sameItems js ks
  | _, _ => false
termination_by structural js => js

/-- Each member of the first object is the same as the one of its name in the second. -/
def eachMemberIn : List (String × Json) → List (String × Json) → Bool
  | [], _ => true
  | (n, j) :: ms, ns =>
    (match ns.lookup n with
      | some k => same j k
      | none => false) && eachMemberIn ms ns
termination_by structural ms => ms

end

end Json

namespace Explained

open Json

/-! ### Objects -/

lemma eachMemberIn_cons {n : String} {ms : List (String × Json)} (h : n ∉ ms.map Prod.fst)
    (k : Json) (ns : List (String × Json)) :
    eachMemberIn ms ((n, k) :: ns) = eachMemberIn ms ns := by
  induction ms with
  | nil => rfl
  | cons m ms ih =>
    obtain ⟨n', j⟩ := m
    rw [List.map_cons, List.mem_cons, not_or] at h
    have hne : (n' == n) = false := beq_eq_false_iff_ne.2 fun he => h.1 he.symm
    rw [eachMemberIn, eachMemberIn, ih h.2, List.lookup_cons, hne]

/-- Objects with one name in front are compared member by member. -/
lemma same_object_cons {n : String} {ms : List (String × Json)} (h : n ∉ ms.map Prod.fst)
    (j k : Json) (ns : List (String × Json)) :
    (object ((n, j) :: ms)).same (object ((n, k) :: ns)) =
      (j.same k && (object ms).same (object ns)) := by
  have hlength : (ms.length + 1 == ns.length + 1) = (ms.length == ns.length) := by
    rw [Bool.eq_iff_iff, beq_iff_eq, beq_iff_eq, Nat.add_right_cancel_iff]
  rw [Json.same, eachMemberIn, List.lookup_cons_self, eachMemberIn_cons h, List.length_cons,
    List.length_cons, hlength, Json.same]
  exact Bool.and_left_comm _ _ _

lemma same_member (n : String) (j k : Json) :
    (object [(n, j)]).same (object [(n, k)]) = j.same k := by
  rw [same_object_cons List.not_mem_nil]
  exact Bool.and_true _

/-- An object with another name in front than any of the second one's is another object. -/
lemma same_object_of_lookup {n : String} {ns : List (String × Json)} (h : ns.lookup n = none)
    (j : Json) (ms : List (String × Json)) :
    (object ((n, j) :: ms)).same (object ns) = false := by
  rw [Json.same, eachMemberIn, h, Bool.false_and, Bool.and_false]

/-! ### Operators and verbs -/

lemma name_relation (r r' : Relation) : (r.name == r'.name) = (r == r') := by
  cases r <;> cases r' <;> rfl

lemma name_connective (c c' : Connective) : (c.name == c'.name) = (c == c') := by
  cases c <;> cases c' <;> rfl

lemma name_arithmetic (op op' : Arithmetic) : (op.name == op'.name) = (op == op') := by
  cases op <;> cases op' <;> rfl

lemma keyword_verb (v v' : Verb) : (v.keyword == v'.keyword) = (v == v') := by
  rw [Bool.eq_iff_iff, beq_iff_eq, beq_iff_eq]
  refine ⟨fun h => ?_, fun h => h ▸ rfl⟩
  have hv := Verb.ofKeyword?_keyword v
  rw [h, Verb.ofKeyword?_keyword v'] at hv
  exact (Option.some.inj hv).symm

lemma text_path (p q : Path) : (p.text == q.text) = (p == q) := by
  rw [Bool.eq_iff_iff, beq_iff_eq, beq_iff_eq]
  exact ⟨Path.ext_text, fun h => h ▸ rfl⟩

/-! ### Literals -/

/-- The JSON of a literal, which is a number for a floating-point literal that is finite. -/
lemma toJson_literal {l : Literal} (h : l.WellFormed) :
    l.toJson = match l with
      | .str s => .string s
      | .int i => .int i.toInt
      | .float x => .number (.decimal x)
      | .bool b => .bool b := by
  cases l with
  | float x => exact if_pos h
  | _ => rfl

/-- The kind of a literal shows in the kind of its JSON. -/
lemma same_literal {l m : Literal} (hl : l.WellFormed) (hm : m.WellFormed) :
    l.toJson.same m.toJson = l.same m := by
  have ints (i j : Int64) : (i.toInt == j.toInt) = (i == j) := by
    rw [Bool.eq_iff_iff, beq_iff_eq, beq_iff_eq]
    exact Int64.toInt_inj
  rw [toJson_literal hl, toJson_literal hm]
  cases l <;> cases m <;> first | rfl | exact ints _ _

lemma same_items {ls ms : List Literal} (hl : ∀ l ∈ ls, l.WellFormed)
    (hm : ∀ m ∈ ms, m.WellFormed) :
    Json.sameItems (ls.map Literal.toJson) (ms.map Literal.toJson) =
      RecordRules.sameItems ls ms := by
  induction ls generalizing ms with
  | nil => cases ms <;> rfl
  | cons l ls ih =>
    cases ms with
    | nil => rfl
    | cons m ms =>
      rw [List.forall_mem_cons] at hl hm
      rw [List.map_cons, List.map_cons, Json.sameItems, RecordRules.sameItems,
        same_literal hl.1 hm.1, ih hl.2 hm.2]

/-! ### Operands -/

/-- The name that an operand stands under tells which of the three it is. -/
lemma same_operand {a b : Operand} (ha : a.WellFormed) (hb : b.WellFormed) :
    a.toJson.same b.toJson = a.same b := by
  induction a generalizing b with
  | path p =>
    cases b with
    | path q => exact (same_member _ _ _).trans (text_path p q)
    | literal | arithmetic => exact same_object_of_lookup rfl _ _
  | literal l =>
    cases b with
    | literal m => exact (same_member _ _ _).trans (same_literal ha hb)
    | path | arithmetic => exact same_object_of_lookup rfl _ _
  | arithmetic left op right ihl ihr =>
    cases b with
    | arithmetic left' op' right' =>
      rw [Operand.toJson, Operand.toJson, same_member, same_object_cons (by simp),
        same_object_cons (by simp), same_member, ihl ha.1 hb.1, ihr ha.2 hb.2, Operand.same,
        Bool.and_assoc, ← name_arithmetic]
      rfl
    | path | literal => exact same_object_of_lookup rfl _ _

lemma same_argument {verb verb' : Verb} {a b : Argument} (ha : a.WellFormed verb)
    (hb : b.WellFormed verb') : a.toJson.same b.toJson = a.same b := by
  cases a with
  | operand e =>
    cases b with
    | operand e' => exact (same_member _ _ _).trans (same_operand ha hb)
    | list => exact same_object_of_lookup rfl _ _
  | list items =>
    cases b with
    | list items' => exact (same_member _ _ _).trans (same_items ha.2 hb.2)
    | operand => exact same_object_of_lookup rfl _ _

/-! ### Rules -/

lemma same_typed {ms : List (String × Json)} (h : "type" ∉ ms.map Prod.fst) (type : String)
    (ns : List (String × Json)) :
    (object (("type", .string type) :: ms)).same (object (("type", .string type) :: ns)) =
      (object ms).same (object ns) := by
  rw [same_object_cons h, Json.same, beq_self_eq_true, Bool.true_and]

mutual

theorem same_rule {r s : Rule} (hr : r.WellFormed) (hs : s.WellFormed) :
    r.toJson.same s.toJson = r.same s := by
  cases r with
  | comparison a op b =>
    cases s with
    | comparison a' op' b' =>
      rw [Rule.toJson, Rule.toJson, same_typed (by simp), same_object_cons (by simp),
        same_object_cons (by simp), same_member, same_operand hr.1 hs.1, same_operand hr.2 hs.2,
        Rule.same, ← name_relation, Bool.and_assoc]
      rfl
    -- the strings under "type" differ
    | predicate | group => rfl
  | predicate e verb a =>
    cases s with
    | predicate e' verb' a' =>
      rw [Rule.toJson, Rule.toJson, same_typed (by simp), same_object_cons (by simp),
        same_object_cons (by simp), same_member, same_operand hr.1 hs.1, same_argument hr.2 hs.2,
        Rule.same, ← keyword_verb, Bool.and_assoc]
      rfl
    | comparison | group => rfl
  | group c rs =>
    cases s with
    | group c' rs' =>
      rw [Rule.toJson, Rule.toJson, same_typed (by simp), same_object_cons (by simp),
        same_member, Rule.same, ← name_connective, ← same_children hr.2 hs.2]
      rfl
    | comparison | predicate => rfl
termination_by structural r

theorem same_children {rs ss : List Rule} (hr : Rule.ChildrenWellFormed rs)
    (hs : Rule.ChildrenWellFormed ss) :
    Json.sameItems (Rule.childJsons rs) (Rule.childJsons ss) = Rule.sameChildren rs ss := by
  cases rs with
  | nil => cases ss <;> rfl
  | cons r rs =>
    cases ss with
    | nil => rfl
    | cons s ss =>
      rw [Rule.childJsons, Rule.childJsons, Json.sameItems, Rule.sameChildren,
        same_rule hr.1 hs.1, same_children hr.2 hs.2]
termination_by structural rs

end

/-! ### The command -/

/-- The tree in an answer, which an answer about a text without a rule does not have. -/
def tree? : Json → Option Json
  | .object ms => ms.lookup "tree"
  | _ => none

lemma tree?_runExplain {e : Engine} {s : String} {t : Rule}
    (h : Rule.parse e.options.maxDepth s = .ok t) :
    tree? (Command.runExplain e s).1 = some t.toJson := by
  obtain ⟨err, hp, -⟩ | ⟨r, hit, -, hp, hf⟩ := Calls.fetch_cases e.cache s
  · rw [show Rule.parse e.cache.compiler.limit s = .ok t from h] at hp
    cases hp
  · obtain rfl : t = r.root := Except.ok.inj (h.symm.trans hp)
    unfold Command.runExplain Engine.compile
    dsimp only
    rw [hf]
    rfl

/-- **The tree that is explained determines the rule**: two texts are explained by equal trees
exactly if they spell the same rule, with floating-point literals compared as numbers. -/
theorem explained_iff {limit limit' : Option ℕ} {s s' : String} {t t' : Rule}
    (h : Rule.parse limit s = .ok t) (h' : Rule.parse limit' s' = .ok t') :
    (t.toJson.same t'.toJson = true ↔ t.same t' = true) ∧
    ∀ e : Engine, e.options.maxDepth = limit →
      tree? (Command.runExplain e s).1 = some t.toJson := by
  refine ⟨?_, fun e he => tree?_runExplain (he ▸ h)⟩
  rw [same_rule (RoundTrip.wellFormed_of_parse h) (RoundTrip.wellFormed_of_parse h')]

/-- The two zeros are one number, and an integer is another literal than either of them. -/
theorem explained_iff_zeros :
    let isX (l : Literal) : Rule := .comparison (.literal l) .eq (.literal (.str "x"))
    Rule.parse none "0.0 == \"x\"" = .ok (isX (.float 0.0)) ∧
      Rule.parse none "-0.0 == \"x\"" = .ok (isX (.float (-0.0))) ∧
      Rule.parse none "0 == \"x\"" = .ok (isX (.int 0)) ∧
      (isX (.float 0.0)).toJson.same (isX (.float (-0.0))).toJson = true ∧
      (isX (.float 0.0)).toJson.same (isX (.int 0)).toJson = false := by
  intro isX
  have hparse (l : Literal) (hl : l.WellFormed) : Rule.parse none (isX l).text = .ok (isX l) :=
    RoundTrip.parse_text ⟨hl, trivial⟩
  have hzero : Rule.parse none "0.0 == \"x\"" = .ok (isX (.float 0.0)) := by
    have htext : (isX (.float 0.0)).text = "0.0 == \"x\"" := by decide
    exact htext ▸ hparse (.float 0.0) (by unfold Literal.WellFormed; decide)
  have hminus : Rule.parse none "-0.0 == \"x\"" = .ok (isX (.float (-0.0))) := by
    have htext : (isX (.float (-0.0))).text = "-0.0 == \"x\"" := by decide
    exact htext ▸ hparse (.float (-0.0)) (by unfold Literal.WellFormed; decide)
  have hinteger : Rule.parse none "0 == \"x\"" = .ok (isX (.int 0)) := by
    have htext : (isX (.int 0)).text = "0 == \"x\"" := by decide
    exact htext ▸ hparse (.int 0) trivial
  refine ⟨hzero, hminus, hinteger, (explained_iff hzero hminus).1.2 (by decide), ?_⟩
  rw [Bool.eq_false_iff]
  exact fun h => absurd ((explained_iff hzero hinteger).1.1 h) (by decide)

end Explained

end RecordRules
