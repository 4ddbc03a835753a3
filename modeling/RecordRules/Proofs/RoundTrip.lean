import RecordRules.Proofs.Canonical
import RecordRules.Proofs.Spelling

/-!
The canonical text of a rule and what it reads back as.
-/

namespace RecordRules.RoundTrip

open Grammar Token

/-- The text of a well-formed rule spells that rule. -/
lemma parse_text {t : Rule} (h : t.WellFormed) : Rule.parse none t.text = .ok t := by
  obtain ⟨c, rfl, hp⟩ := Canonical.exists_term t h
  have hs : Scans false c.tree.chars c.lexemes := by
    simpa using hp [] [] .nil (.nil true)
  refine Spelling.parse_of_scans (.single c) ?_
  rw [Rule.text, String.toList_ofList]
  exact hs

/-- What a text spells is well formed, whatever the limit on its parentheses. -/
lemma wellFormed_of_parse {limit : Option ℕ} {source : String} {t : Rule}
    (h : Rule.parse limit source = .ok t) : t.WellFormed := by
  obtain ⟨ts, hts, g, hg, rfl⟩ := Spelling.exists_tokens h
  apply g.tree_wellFormed
  rw [hg]
  exact scanFrom_wellFormed (scanFrom_of_scan hts)

/-- **Round trip of the canonical text**: the trees that texts spell are exactly the
well-formed ones, and exactly these are spelled by their own canonical texts. -/
theorem parse_text_iff (t : Rule) :
    ((∃ source, Rule.parse none source = .ok t) ↔ t.WellFormed) ∧
    (Rule.parse none t.text = .ok t ↔ t.WellFormed) :=
  ⟨⟨fun ⟨_, h⟩ => wellFormed_of_parse h, fun h => ⟨t.text, parse_text h⟩⟩,
    ⟨wellFormed_of_parse, parse_text⟩⟩

end RecordRules.RoundTrip
