import RecordRules.Proofs.GrammarComplete
import RecordRules.Proofs.GrammarSound
import RecordRules.Proofs.Locality

/-!
Which rule a text spells: the tree of the derivation whose lexemes the text scans to.
-/

namespace RecordRules.Spelling

open Grammar Token

variable {source : String} {t : Rule}

/-- A text that spells a rule has tokens, and these have a derivation with that tree, whatever the
limit on parentheses. -/
theorem exists_tokens {limit : Option ℕ} (h : Rule.parse limit source = .ok t) :
    ∃ ts, Token.scan source = .ok ts ∧
      ∃ g : Group, g.lexemes = ts.map Token.lexeme ∧ g.tree = t := by
  obtain ⟨ts, hts, hrule⟩ := Rule.exists_of_parse h
  exact ⟨ts, hts, GrammarSound.rule_sound hrule⟩

theorem exists_derivation {limit : Option ℕ} (h : Rule.parse limit source = .ok t) :
    ∃ g : Group, Scans false source.toList g.lexemes ∧ g.tree = t := by
  obtain ⟨ts, hts, g, hg, ht⟩ := exists_tokens h
  refine ⟨g, ?_, ht⟩
  rw [hg]
  exact .of_scanFrom (scanFrom_of_scan hts)

/-- A text that scans to the lexemes of a derivation spells its tree. -/
theorem parse_of_scans (g : Group) (h : Scans false source.toList g.lexemes) :
    Rule.parse none source = .ok g.tree := by
  obtain ⟨ts, hts, hls⟩ := h 0
  rw [Rule.parse_of_scan (scan_of_scanFrom hts), GrammarComplete.rule_complete _ g hls.symm]
  rfl

end RecordRules.Spelling
