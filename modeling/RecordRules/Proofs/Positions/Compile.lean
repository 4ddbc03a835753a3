import Mathlib
import RecordRules.Proofs.Positions.Excerpt
import RecordRules.Proofs.Positions.ParseAgrees
import RecordRules.Rule.Compile

/-!
Compiling by positions never gets stuck, and its errors lie at boundaries of the text.

Scanning takes a step for each character and once more, and parsing a few for each token.
-/

namespace RecordRules

/-- The byte that an error of the text of a rule points at. -/
def RuleError.offset? : RuleError → Option ℕ
  | lex _ offset | parse _ offset _ => some offset
  | _ => none

namespace Positions

open Text Token

variable {cs : List Char} {n offset : ℕ}

/-! ### Compiling -/

/-- The rule that a text spells, by positions. -/
def parse? (limit : Option ℕ) (n : ℕ) (source : String) : Option (Except RuleError Rule) :=
  match tokens? source.toList n 0 false with
  | none => none
  | some (.error (fault, offset)) => some (.error (.lex fault offset))
  | some (.ok ms) =>
    match rule ms limit n ⟨0, 0⟩ with
    | none => none
    | some (.error (fault, offset)) =>
      (excerpt? source.toList offset).map fun near =>
        .error (.parse fault offset (String.ofList near))
    | some (.ok (root, _)) => some (.ok root)

/-- What a compiler makes of a text, by positions. -/
def compile? (c : Compiler) (n : ℕ) (text : String) :
    Option (Except RuleError CompiledRule × Compiler) :=
  (parse? c.limit n text).map fun
    | .error e => (.error e, c)
    | .ok root => (.ok ⟨text, root, c.version + 1⟩, { c with version := c.version + 1 })

lemma length_scanFrom {b : Bool} {ts : List Token} (h : scanFrom offset b cs = .ok ts) :
    ts.length ≤ cs.length := by
  fun_induction scanFrom offset b cs generalizing ts with
  | case1 =>
    cases h
    exact Nat.le_refl 0
  | case2 offset b c r hc ih => exact Nat.le_succ_of_le (ih h)
  | case3 => cases h
  | case4 => cases h
  | case5 offset b c r hc s hs hlt us hus ih =>
    cases h
    have := ih hus
    simp only [List.length_cons] at hlt ⊢
    omega

lemma parse?_eq {limit : Option ℕ} {source : String}
    (hn : 8 * source.toList.length + 6 < n) :
    parse? limit n source = some (Rule.parse limit source) := by
  have htokens := tokens?_eq n [] source.toList false (by omega)
  unfold parse? Rule.parse scan
  rw [show tokens? source.toList n 0 false = _ from htokens]
  cases hs : scanFrom 0 false source.toList with
  | error e =>
    rw [show bytes [] = 0 from rfl, hs]
    rfl
  | ok ts =>
    have hlen := length_scanFrom hs
    have hrule := rule_agrees (bytes source.toList) limit (by omega : 8 * ts.length + 6 < n)
    rw [show bytes [] = 0 from rfl, hs]
    dsimp only [Except.map, List.nil_append]
    rcases hr : rule (marks (bytes source.toList) ts) limit n ⟨0, 0⟩ with
      _ | ⟨fault, o⟩ | ⟨root, c⟩
    · rw [hr] at hrule
      cases hrule
    · rw [hr] at hrule
      have hparse := (Option.some.inj hrule).symm
      dsimp only
      rw [hparse, excerpt?_eq]
      rfl
    · rw [hr] at hrule
      have hparse := (Option.some.inj hrule).symm
      rw [hparse]
      rfl

/-! ### Where errors lie -/

lemma scanFrom_fault {b : Bool} {fault : LexFault} {o : ℕ}
    (h : scanFrom offset b cs = .error (fault, o)) :
    ∃ u v, cs = u ++ v ∧ o = offset + bytes u := by
  fun_induction scanFrom offset b cs with
  | case1 => cases h
  | case2 offset b c r hc ih =>
    obtain ⟨u, v, rfl, rfl⟩ := ih h
    exact ⟨c :: u, v, rfl, by rw [bytes_cons, Nat.add_assoc]⟩
  | case3 offset b c r hc fault' f hs =>
    cases h
    obtain ⟨u, hu⟩ := scanOne_suffix hs
    refine ⟨u, f, hu.symm, ?_⟩
    rw [← hu, bytes_append, Nat.add_sub_cancel]
  | case4 offset b c r hc s hs hlt e he ih =>
    cases h
    obtain ⟨u, v, hrest, rfl⟩ := ih he
    refine ⟨s.text ++ u, v, ?_, by rw [bytes_append, Nat.add_assoc]⟩
    rw [List.append_assoc, ← hrest, (scanOne_text hs).1]
  | case5 => cases h

/-- A fault of the parser lies at a boundary of the text, also one inside of a path. -/
lemma parse_fault {limit : Option ℕ} {source : String} {ts : List Token} {fault : ParseFault}
    {o : ℕ} (hs : scan source = .ok ts)
    (h : Parse.rule (bytes source.toList) limit ts = .error (fault, o)) :
    IsBoundary source.toList o := by
  have hscan : scanFrom 0 false source.toList = .ok ts := by
    unfold scan at hs
    split at hs
    · next hus =>
      cases hs
      exact hus
    · cases hs
  cases Faults.rule_arises h with
  | atStart => exact ⟨[], source.toList, rfl, rfl⟩
  | atEnd => exact ⟨source.toList, [], (List.append_nil _).symm, rfl⟩
  | atToken ht =>
    obtain ⟨u, c, v, -, -, hsplit, hoff, -⟩ := exists_of_mem_scanFrom hscan ht
    exact ⟨u, c :: v, hsplit, by rw [hoff, Nat.zero_add]⟩
  | inPath ht hl hread =>
    obtain ⟨⟨u, v, hsplit, hoff⟩, -⟩ := path_of_mem_scan hs ht hl
    obtain ⟨f, hf, rfl⟩ := exists_of_read_error hread
    obtain ⟨w, hw⟩ := readAll_suffix hf
    refine ⟨u ++ w, f ++ v, ?_, ?_⟩
    · rw [hsplit, ← hw, List.append_assoc, List.append_assoc]
    · rw [hoff, ← hw, bytes_append, Nat.add_sub_cancel, bytes_append]

lemma parse_offset {limit : Option ℕ} {source : String} {err : RuleError}
    (h : Rule.parse limit source = .error err) :
    ∃ o, err.offset? = some o ∧ IsBoundary source.toList o := by
  unfold Rule.parse at h
  split at h
  · next e hs =>
    cases h
    unfold scan at hs
    split at hs
    · cases hs
    · next fault o he =>
      cases hs
      obtain ⟨u, v, hsplit, rfl⟩ := scanFrom_fault he
      exact ⟨_, rfl, u, v, hsplit, Nat.zero_add _⟩
  · next ts hs =>
    split at h
    · cases h
    · next fault o hp =>
      cases h
      exact ⟨o, rfl, parse_fault hs hp⟩

/-- With a number of steps that the length of the text bounds, a compiler is never stuck and
does what it does; and every error that it finds lies in the text, before, between or after
its characters. -/
theorem compile_total (c : Compiler) (text : String) :
    (∀ n, 8 * text.toList.length + 6 < n → compile? c n text = some (c.compile text)) ∧
      ∀ err, (c.compile text).1 = .error err → ∃ offset, err.offset? = some offset ∧
        offset ≤ bytes text.toList ∧ IsBoundary text.toList offset := by
  constructor
  · intro n hn
    cases hp : Rule.parse c.limit text with
    | error e => simp [compile?, Compiler.compile, parse?_eq hn, hp]
    | ok root => simp [compile?, Compiler.compile, parse?_eq hn, hp]
  · intro err h
    have hparse : Rule.parse c.limit text = .error err := by
      unfold Compiler.compile at h
      split at h
      · next e he =>
        cases h
        exact he
      · cases h
    obtain ⟨offset, hoffset, hboundary⟩ := parse_offset hparse
    exact ⟨offset, hoffset, le_of_isBoundary hboundary, hboundary⟩

/-- A parenthesis that is never closed, after characters of more than one byte. -/
theorem compile_total_unclosed :
    compile? {} 63 "é == (é" = some (({} : Compiler).compile "é == (é") ∧
      ∃ offset, (RuleError.parse .unbalancedParenthesis 6 "é == (é").offset? = some offset ∧
        offset ≤ bytes "é == (é".toList ∧ IsBoundary "é == (é".toList offset := by
  have hrun : compile? {} 63 "é == (é" =
      some (.error (.parse .unbalancedParenthesis 6 "é == (é"), {}) := by cbv
  have hsame := (compile_total {} "é == (é").1 63 (by decide)
  have herr := congrArg Prod.fst (Option.some.inj (hsame.symm.trans hrun))
  exact ⟨hsame, (compile_total {} "é == (é").2 _ herr⟩

end Positions

end RecordRules
