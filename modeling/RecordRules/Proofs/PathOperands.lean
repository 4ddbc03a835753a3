import RecordRules.Proofs.Calls
import RecordRules.Proofs.Footprint
import RecordRules.Proofs.Kinds
import RecordRules.Proofs.Limit
import RecordRules.Proofs.PathGrammar
import RecordRules.Proofs.Positions.Scan
import RecordRules.Proofs.RoundTrip

/-!
Paths alone and in rules. The scan finds the end of a path with a reader of its own; a text that
is read as a path on its own, and is no reserved word, is one token of a rule from its first
character to its last. As an operand it leads to what resolving the text gives, with the text in
the errors.
-/

namespace RecordRules.PathOperands

open Text Token
open PathGrammar (StepText PathText)

variable {text : String} {p : Path}

/-! ### The token -/

/-- The text of a path is one token. -/
lemma scanFrom_path (hw : Unreserved p.text) :
    scanFrom 0 false p.text.toList = .ok [⟨.path p.text, 0⟩] := by
  have hscans : Scans false p.text.toList [.path p.text] := by
    simpa using Scans.path hw .nil (.nil true)
  obtain ⟨ts, hts, hls⟩ := hscans 0
  obtain ⟨t, rfl, hl⟩ := List.map_eq_singleton_iff.1 hls
  -- the text of the token is as long as the whole text, so nothing stands before it
  obtain ⟨⟨u, v, htext, ho⟩, -⟩ := path_of_mem_scan (scan_of_scanFrom hts) List.mem_cons_self hl
  have hlen := congrArg List.length htext
  simp only [List.length_append] at hlen
  obtain rfl : u = [] := List.eq_nil_of_length_eq_zero (by omega)
  obtain ⟨l, o⟩ := t
  cases hl
  cases ho
  exact hts

/-- With the end of the text, which is where the text ends. -/
lemma tokens?_path (hw : Unreserved p.text) {n : ℕ} (hn : p.text.toList.length < n) :
    Positions.tokens? p.text.toList n 0 false =
      some (.ok [⟨some (.path p.text), 0⟩, ⟨none, bytes p.text.toList⟩]) := by
  have htokens := Positions.tokens?_eq n [] p.text.toList false hn
  rw [List.nil_append, bytes_nil, scanFrom_path hw] at htokens
  exact htokens

/-! ### A rule on the path alone -/

/-- The path compared with itself. -/
def twice (p : Path) : Rule := .comparison (.path p) .eq (.path p)

lemma text_twice (p : Path) : (twice p).text = p.text ++ " == " ++ p.text := by
  apply String.toList_inj.1
  simp [twice, Rule.text, Rule.chars, Operand.chars, Relation.symbol]

lemma scan_twice (hw : Unreserved p.text) :
    ∃ ts, Token.scan (p.text ++ " == " ++ p.text) = .ok ts ∧
      ts.map Token.lexeme = [.path p.text, .relation .eq, .path p.text] := by
  have hright : Scans false p.text.toList [.path p.text] := by
    simpa using Scans.path hw .nil (.nil true)
  have hscans : Scans false (p.text ++ " == " ++ p.text).toList
      [.path p.text, .relation .eq, .path p.text] := by
    have h : Scans false (p.text.toList ++ ' ' :: ("==".toList ++ ' ' :: p.text.toList))
        [.path p.text, .relation .eq, .path p.text] :=
      .path hw (.cons (by simp) _) (.space (.relation .eq hright))
    simpa using h
  obtain ⟨ts, hts, hls⟩ := hscans 0
  exact ⟨ts, scan_of_scanFrom hts, hls⟩

/-- No limit on parentheses is in the way, as there are none. -/
lemma parse_twice (hw : Unreserved p.text) (limit : Option ℕ) :
    Rule.parse limit (p.text ++ " == " ++ p.text) = .ok (twice p) := by
  have hparse : Rule.parse none (twice p).text = .ok (twice p) := RoundTrip.parse_text ⟨hw, hw⟩
  rw [text_twice] at hparse
  cases limit with
  | none => exact hparse
  | some m =>
    obtain ⟨ts, hts, hls⟩ := scan_twice hw
    have hwithin : Nesting.Within m ts := by
      unfold Nesting.Within
      rw [hls]
      nofun
    rw [Rule.parse_of_scan hts] at hparse ⊢
    rw [Nesting.rule_of_within hwithin (Nesting.of_mapError_ok hparse)]
    rfl

lemma fetch_twice (hw : Unreserved p.text) (c : Cache) :
    ∃ r hit, (c.fetch (p.text ++ " == " ++ p.text)).1 = .ok (r, hit) ∧ r.root = twice p := by
  have hparse := parse_twice hw c.compiler.limit
  obtain ⟨e, he, -⟩ | ⟨r, hit, -, hr, hf⟩ := Calls.fetch_cases c (p.text ++ " == " ++ p.text)
  · rw [hparse] at he
    cases he
  · rw [hparse] at hr
    exact ⟨r, hit, hf, (Except.ok.inj hr).symm⟩

lemma compile_twice (hw : Unreserved p.text) (e : Engine) :
    ∃ r, (e.compile (p.text ++ " == " ++ p.text)).1 = .ok r ∧ r.root = twice p ∧
      r.requiredFields = [p.text] := by
  obtain ⟨r, hit, hf, hr⟩ := fetch_twice hw e.cache
  refine ⟨r, ?_, hr, ?_⟩
  · unfold Engine.compile
    dsimp only
    rw [hf]
    rfl
  · rw [CompiledRule.requiredFields, hr]
    simp [twice, Rule.paths, Operand.paths, Sorted.ofList, Sorted.insert]

/-! ### Evaluation -/

lemma operand_path (R : Record) (p : Path) :
    Evaluate.operand R (.path p) = R.resolve p.text := (Footprint.resolve_text R p).symm

/-- Evaluated twice, the operand gives the same. -/
lemma evaluate_twice (hw : Unreserved p.text) (e : Engine) (R : Record) (traced : Bool) :
    (e.evaluate (p.text ++ " == " ++ p.text) R traced).1.outcome =
      (R.resolve p.text).bind fun v => Evaluate.compare e.ordering v .eq v := by
  obtain ⟨r, hit, hf, hr⟩ := fetch_twice hw e.cache
  rw [Calls.evaluate_ok hf, hr]
  change Evaluate.comparison e.ordering R (.path p) .eq (.path p) = _
  rw [Kinds.comparison_eq, operand_path]
  cases R.resolve p.text <;> rfl

/-- **Paths in rules**: a text that is read as a path, and is neither a boolean nor a verb, scans
to that path at its beginning and the end of the text. Compared with itself it compiles, and
requires itself alone. In every rule that compiles, the operand with this text is the path, and
leads on every record to the value or the error that resolving the text gives. -/
theorem path_in_rules (hp : Path.parse text = .ok p) (hw : Unreserved text) :
    Token.scan text = .ok [⟨.path text, 0⟩] ∧
    (∀ n, text.toList.length < n → Positions.tokens? text.toList n 0 false =
      some (.ok [⟨some (.path text), 0⟩, ⟨none, bytes text.toList⟩])) ∧
    (∀ e : Engine, ∃ r, (e.compile (text ++ " == " ++ text)).1 = .ok r ∧
      r.root = .comparison (.path p) .eq (.path p) ∧ r.requiredFields = [text]) ∧
    (∀ (e : Engine) (R : Record) (traced : Bool),
      (e.evaluate (text ++ " == " ++ text) R traced).1.outcome =
        (R.resolve text).bind fun v => Evaluate.compare e.ordering v .eq v) ∧
    ∀ (e : Engine) (source : String) (r : CompiledRule), (e.compile source).1 = .ok r →
      ∀ q ∈ r.root.paths, q.text = text →
        q = p ∧ ∀ R : Record, Evaluate.operand R (.path q) = R.resolve text := by
  obtain rfl := PathGrammar.parse_eq_ok.1 hp
  refine ⟨scan_of_scanFrom (scanFrom_path hw), fun n hn => tokens?_path hw hn,
    compile_twice hw, evaluate_twice hw, ?_⟩
  intro e source r hr q hq hqt
  obtain rfl := Path.ext_text hqt
  exact ⟨rfl, fun R => operand_path R q⟩

/-- A bracket and a quote between quotes, blanks in brackets, and a verb that is no word here. -/
theorem path_in_rules_mixed :
    Token.scan "in['a]\\'b'][ -3 ].x" = .ok [⟨.path "in['a]\\'b'][ -3 ].x", 0⟩] ∧
      ∃ r,
        ((Engine.ofOptions {}).compile "in['a]\\'b'][ -3 ].x == in['a]\\'b'][ -3 ].x").1 = .ok r ∧
        r.requiredFields = ["in['a]\\'b'][ -3 ].x"] := by
  have hkey : StepText (PathGrammar.written '\'' (.index (.str "a]'b"))) (.index (.str "a]'b")) :=
    PathGrammar.stepText_written rfl nofun
  have hblank : PathGrammar.Blanks [' '] := List.forall_mem_singleton.2 rfl
  have hindex : StepText "[ -3 ]".toList (.index (.int (-3))) :=
    .index hblank (PathGrammar.keyText_intDigits (-3)) hblank
  have hlast : StepText ".x".toList (.attr "x") := .point (w := ['x']) rfl
  have hpath := PathText.mk (w := "in".toList) rfl (.cons hkey (.cons hindex (.cons hlast .nil)))
  change PathText "in['a]\\'b'][ -3 ].x".toList _ at hpath
  have hpoint : '.' ∈ "in['a]\\'b'][ -3 ].x".toList := by decide
  have hw := Token.unreserved_of_step hpoint rfl
  rw [String.ofList_toList] at hw
  obtain ⟨p, hp, -⟩ := PathGrammar.parse_iff.2 hpath
  obtain ⟨hscan, -, hcompile, -⟩ := path_in_rules hp hw
  obtain ⟨r, hr, -, hfields⟩ := hcompile (.ofOptions {})
  exact ⟨hscan, r, hr, hfields⟩

end RecordRules.PathOperands
