import RecordRules.Proofs.Faults
import RecordRules.Proofs.Lookups
import RecordRules.Proofs.RoundTrip
import RecordRules.Proofs.SideBySide

/-!
A parenthesis too many. The tokens of a rule are balanced, so a closing parenthesis after them
closes nothing, and an opening one before them is never closed. The parser reads the rule as it
does alone: the look ahead from a parenthesis of the rule ends inside the rule, and that from the
additional one comes to the end of the text. What it reports is the additional parenthesis.
-/

namespace RecordRules.StrayParenthesis

open Grammar Text Token

variable {s : String} {t : Rule} {ts : List Token} {g : Group} {stop o : ℕ}

/-! ### Tokens -/

/-- A group is read up to a closing parenthesis behind it. -/
lemma group_before_close (stop o : ℕ) (h : g.lexemes = ts.map Token.lexeme) :
    Readers.group stop none 0 (ts ++ [⟨.closeParen, o⟩]) = .ok (g.tree, [⟨.closeParen, o⟩]) := by
  have hlexemes : List.map Token.lexeme (ts ++ [⟨.closeParen, o⟩]) =
      g.lexemes ++ [.closeParen] := by
    rw [List.map_append, ← h]
    rfl
  obtain ⟨r, hr, hrest⟩ :=
    GrammarComplete.group_complete stop g 0 _ [.closeParen] hlexemes (by simp [GroupEnds])
  -- one token is left of those that were given, and so it is the last one
  have hsuffix : r <:+ ts ++ [⟨.closeParen, o⟩] := by
    have hwithin : Faults.Within stop (ts ++ [⟨.closeParen, o⟩])
        (Readers.group stop none 0 (ts ++ [⟨.closeParen, o⟩])) :=
      Faults.group_within (List.suffix_refl _)
    rw [hr] at hwithin
    exact hwithin
  have hlength : r.length = 1 := by
    rw [← List.length_map Token.lexeme, hrest]
    rfl
  have hlast : r <:+ [⟨.closeParen, o⟩] :=
    List.suffix_of_suffix_length_le hsuffix (List.suffix_append ts _) hlength.le
  rw [hr, hlast.eq_of_length hlength]

lemma rule_closed (h : g.lexemes = ts.map Token.lexeme) :
    Parse.rule stop none (ts ++ [⟨.closeParen, o⟩]) = .error (.unbalancedParenthesis, o) := by
  have hgroup := group_before_close stop o h
  obtain ⟨u, us, hus⟩ := List.exists_cons_of_ne_nil (l := ts ++ [⟨.closeParen, o⟩]) (by simp)
  rw [hus] at hgroup ⊢
  rw [Readers.rule_cons, hgroup]
  rfl

/-- From an unclosed parenthesis before balanced tokens the look ahead comes to the end. -/
lemma opensOperand_balanced (h : Balanced (ts.map Token.lexeme)) :
    Parse.opensOperand 0 ts = false := by
  have hopens := opens_append h 0 []
  rw [List.append_nil] at hopens
  rw [opensOperand_eq, hopens]
  rfl

lemma rule_opened (h : g.lexemes = ts.map Token.lexeme) :
    Parse.rule stop none (⟨.openParen, o⟩ :: ts) = .error (.unbalancedParenthesis, o) := by
  have hlook : Parse.opensOperand 0 ts = false := opensOperand_balanced (h ▸ g.balanced)
  have hclose : Parse.closesAtOnce ts = false := by
    obtain ⟨l, w, hl, hs⟩ := g.exists_head
    exact GrammarComplete.closesAtOnce_eq_false (h.symm.trans hl) hs
  -- inside the parenthesis the whole group is read, and nothing is left to close it
  obtain ⟨r, hr, hrest⟩ := GrammarComplete.group_complete stop g 1 ts [] (by simp [h])
    (by simp [GroupEnds])
  obtain rfl : r = [] := List.map_eq_nil_iff.1 hrest
  have hterm : Readers.term stop none 0 (⟨.openParen, o⟩ :: ts) =
      .error (.unbalancedParenthesis, o) := by
    rw [Readers.term_enclosed hlook, Readers.enclosed, hclose, hr]
    rfl
  rw [Readers.rule_cons, Readers.group_eq, hterm]

/-! ### Texts -/

lemma scan_closed (h : Token.scan s = .ok ts) :
    Token.scan (s ++ ")") = .ok (ts ++ [⟨.closeParen, bytes s.toList⟩]) := by
  obtain ⟨b, hb⟩ := scanFrom_append (x := [')']) (.cons (by simp) _) (scanFrom_of_scan h)
  have hone : scanOne b ')' [] = .ok ⟨.closeParen, [')'], []⟩ := by cases b <;> rfl
  have htext : (s ++ ")").toList = s.toList ++ [')'] := String.toList_append
  rw [Token.scan, htext, hb, scanFrom_lexeme rfl hone, scanFrom_nil, Nat.zero_add]
  rfl

lemma scan_opened (h : Token.scan s = .ok ts) :
    ∃ us, us.map Token.lexeme = ts.map Token.lexeme ∧
      Token.scan ("(" ++ s) = .ok (⟨.openParen, 0⟩ :: us) := by
  have hone : scanOne false '(' s.toList = .ok ⟨.openParen, ['('], s.toList⟩ := rfl
  obtain ⟨us, hus, hlexemes⟩ := Scans.of_scanFrom (scanFrom_of_scan h) (0 + bytes ['('])
  have htext : ("(" ++ s).toList = '(' :: s.toList := String.toList_append
  refine ⟨us, hlexemes, ?_⟩
  rw [Token.scan, htext, scanFrom_lexeme rfl hone]
  dsimp only [Lexeme.endsOperand]
  rw [hus]
  rfl

lemma parse_closed (h : Rule.parse none s = .ok t) :
    Rule.parse none (s ++ ")") =
      .error (.parseAt (s ++ ")") .unbalancedParenthesis (bytes s.toList)) := by
  obtain ⟨ts, hts, g, hg, -⟩ := Spelling.exists_tokens h
  rw [Rule.parse_of_scan (scan_closed hts), rule_closed hg]
  rfl

lemma parse_opened (h : Rule.parse none s = .ok t) :
    Rule.parse none ("(" ++ s) = .error (.parseAt ("(" ++ s) .unbalancedParenthesis 0) := by
  obtain ⟨ts, hts, g, hg, -⟩ := Spelling.exists_tokens h
  obtain ⟨us, hus, hscan⟩ := scan_opened hts
  rw [Rule.parse_of_scan hscan, rule_opened (hg.trans hus.symm)]
  rfl

/-- What fails without a limit fails with each one. -/
lemma not_compiles {e : RuleError} (h : Rule.parse none s = .error e) (limit : Option ℕ) :
    ¬Compiles limit s := by
  rintro ⟨t, ht⟩
  obtain ⟨g, hs, -⟩ := Spelling.exists_derivation ht
  rw [Spelling.parse_of_scans g hs] at h
  cases h

/-- **A stray parenthesis** is reported where it stands: behind a text that spells a rule at the
end of that text, and before it at the beginning. Neither text is ever in the cache of an engine,
and no call that looks it up changes the rules there. -/
theorem parse_stray (h : Rule.parse none s = .ok t) :
    Rule.parse none (s ++ ")") =
      .error (.parseAt (s ++ ")") .unbalancedParenthesis (bytes s.toList)) ∧
    Rule.parse none ("(" ++ s) = .error (.parseAt ("(" ++ s) .unbalancedParenthesis 0) ∧
    ParseFault.unbalancedParenthesis.code = 201 ∧
    ∀ text ∈ [s ++ ")", "(" ++ s], ∀ e : Engine, e.cache.contains text = false ∧
      ∀ c : Calls.Call, c.text? = some text →
        (Calls.call e c).2.cache.contains text = false ∧
          (Calls.call e c).2.cache.rules = e.cache.rules := by
  have hclosed := parse_closed h
  have hopened := parse_opened h
  refine ⟨hclosed, hopened, rfl, fun text htext => ?_⟩
  have hnot (limit : Option ℕ) : ¬Compiles limit text := by
    rw [List.mem_pair] at htext
    rcases htext with rfl | rfl
    · exact not_compiles hclosed limit
    · exact not_compiles hopened limit
  have hlacks (e : Engine) : e.cache.contains text = false := by
    rw [Cache.contains, Cache.get?_eq_none.2 fun hhas => hnot _ hhas.compiles]
    rfl
  refine fun e => ⟨hlacks e, fun c hc => ⟨hlacks _, ?_⟩⟩
  obtain ⟨looked, hlooked, hcache⟩ | ⟨rfl, -⟩ | ⟨hnone, -⟩ := Calls.call_cases e c
  · rw [hc, Option.some.injEq] at hlooked
    subst hlooked
    rw [hcache]
    exact (e.cache.fetched text).rules_eq (hnot _)
  · cases hc
  · rw [hc] at hnone
    cases hnone

/-- The first parenthesis of the rule opens a group, and the next one an operand. -/
theorem parse_stray_group :
    let product := Operand.arithmetic
      (.arithmetic (.literal (.int 1)) .sub (.literal (.int 2))) .mul (.literal (.int 3))
    let either := Rule.group .or [.comparison product .gt (.literal (.int 4)),
      .comparison (.literal (.int 5)) .eq (.literal (.int 6))]
    Rule.parse none "(((1 - 2) * 3) > 4 || 5 == 6)" = .ok either ∧
      Rule.parse none "(((1 - 2) * 3) > 4 || 5 == 6))" =
        .error (.parseAt "(((1 - 2) * 3) > 4 || 5 == 6))" .unbalancedParenthesis 29) ∧
      Rule.parse none "((((1 - 2) * 3) > 4 || 5 == 6)" =
        .error (.parseAt "((((1 - 2) * 3) > 4 || 5 == 6)" .unbalancedParenthesis 0) := by
  intro product either
  have htext : either.text = "(((1 - 2) * 3) > 4 || 5 == 6)" := by decide
  have heither : Rule.parse none "(((1 - 2) * 3) > 4 || 5 == 6)" = .ok either := by
    rw [← htext]
    exact RoundTrip.parse_text
      ⟨by decide, ⟨⟨⟨trivial, trivial⟩, trivial⟩, trivial⟩, ⟨trivial, trivial⟩, trivial⟩
  obtain ⟨hclosed, hopened, -⟩ := parse_stray heither
  exact ⟨heither, hclosed, hopened⟩

end RecordRules.StrayParenthesis
