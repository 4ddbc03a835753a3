import RecordRules.Proofs.GrammarComplete
import RecordRules.Proofs.GrammarSound
import RecordRules.Proofs.GrammarUnique
import RecordRules.Proofs.Levels

/-!
The parser accepts exactly its grammar.
-/

namespace RecordRules.GrammarExact

open Grammar

/-- The parser gives a rule exactly when the tokens have a derivation with that tree, and the
derivation is the only one. Tokens whose parentheses do not balance, and tokens with both
connectives on one level, are always rejected. -/
theorem rule_ok_iff_derives (stop : ℕ) (ts : List Token) :
    (∀ t, Parse.rule stop none ts = .ok t ↔
      ∃ g : Group, g.lexemes = ts.map Token.lexeme ∧ g.tree = t) ∧
    (∀ g g' : Group, g.lexemes = ts.map Token.lexeme → g'.lexemes = ts.map Token.lexeme →
      g = g') ∧
    (¬Balanced (ts.map Token.lexeme) ∨ Mixed (ts.map Token.lexeme) →
      ∃ e, Parse.rule stop none ts = .error e) := by
  refine ⟨fun t => ⟨GrammarSound.rule_sound, ?_⟩, ?_, ?_⟩
  · rintro ⟨g, hg, rfl⟩
    exact GrammarComplete.rule_complete stop g hg
  · intro g g' hg hg'
    exact lexemes_injective (hg.trans hg'.symm)
  · intro h
    rcases hr : Parse.rule stop none ts with e | t
    · exact ⟨e, rfl⟩
    · obtain ⟨g, hg, -⟩ := GrammarSound.rule_sound hr
      rw [← hg] at h
      rcases h with h | h
      · exact absurd g.balanced h
      · exact absurd h g.not_mixed

end RecordRules.GrammarExact
