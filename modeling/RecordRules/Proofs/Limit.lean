import RecordRules.Proofs.GrammarSound
import RecordRules.Proofs.SideBySide

/-!
The limit on nesting is exact. Parsing with a limit is parsing without one until the first
parenthesis that is nested deeper than the limit, and stops there; what is accepted with a limit
is no deeper than one group more.
-/

namespace RecordRules.Nesting

variable {m stop : ℕ} {ts : List Token} {t : Rule} {s : String}

/-- The parser without a limit, and with the limit `m`. -/
def limitedRuns (m stop : ℕ) : Runs where
  place := Eq
  place_zero := rfl
  place_add := by
    rintro d o _ rfl
    rfl
  stop := stop
  stop' := stop
  place_stop := rfl
  limit := none
  limit' := some m
  limits := .inr rfl

lemma alike_self (ts : List Token) : List.Forall₂ (limitedRuns m stop).Alike ts ts :=
  List.forall₂_same.2 fun t _ => .mk t.lexeme rfl

/-- The two runs on the same tokens. -/
lemma verdicts_limited (m stop : ℕ) (ts : List Token) :
    (limitedRuns m stop).Verdicts ts (Parse.rule stop none ts) (Parse.rule stop (some m) ts) :=
  Runs.verdicts (alike_self ts)

/-- No parenthesis is nested deeper than `m`. -/
def Within (m : ℕ) (ts : List Token) : Prop := ∀ n ∈ nestings 0 (ts.map Token.lexeme), n ≤ m

lemma rule_of_within (hts : Within m ts) (h : Parse.rule stop none ts = .ok t) :
    Parse.rule stop (some m) ts = .ok t := by
  have hruns := verdicts_limited m stop ts
  rw [h] at hruns
  generalize Parse.rule stop (some m) ts = y at hruns
  cases hruns with
  | accepted => rfl
  | beyond _ hsome ht _ =>
    cases hsome
    obtain ⟨n, hn, hle⟩ := ht.exists_nesting
    exact absurd (hts n hn) hle

/-- Where the parser without a limit goes on, the one with a limit stops at the first
parenthesis beyond it. -/
lemma rule_of_beyond (hts : ¬Within m ts) (h : Parse.rule stop none ts = .ok t) :
    ∃ p, FirstBeyond m 0 ts p ∧
      Parse.rule stop (some m) ts = .error (.nestingTooDeep m, p.offset) := by
  have hruns := verdicts_limited m stop ts
  rw [h] at hruns
  generalize Parse.rule stop (some m) ts = y at hruns
  cases hruns with
  | accepted hle => exact absurd (hle m rfl) hts
  | beyond _ hsome hp ho =>
    cases hsome
    cases ho
    exact ⟨_, hp, rfl⟩

lemma rule_of_error {f : Parse.Fault} (h : Parse.rule stop none ts = .error f) :
    Parse.rule stop (some m) ts = .error f ∨ ∃ p, FirstBeyond m 0 ts p ∧
      Parse.rule stop (some m) ts = .error (.nestingTooDeep m, p.offset) := by
  have hruns := verdicts_limited m stop ts
  rw [h] at hruns
  generalize Parse.rule stop (some m) ts = y at hruns
  cases hruns with
  | fault ho =>
    cases ho
    exact .inl rfl
  | beyond _ hsome hp ho =>
    cases hsome
    cases ho
    exact .inr ⟨_, hp, rfl⟩

/-- What is accepted with a limit has its parentheses within it, and its groups too. -/
lemma depth_of_limited (h : Parse.rule stop (some m) ts = .ok t) : t.depth ≤ m + 1 := by
  obtain ⟨g, hg, rfl⟩ := GrammarSound.rule_sound h
  have hruns := verdicts_limited m stop ts
  rw [h] at hruns
  generalize Parse.rule stop none ts = x at hruns
  cases hruns with
  | accepted hle =>
    refine depth_tree g ?_
    rw [hg]
    exact hle m rfl

lemma of_mapError_ok {ε ε' α : Type} {f : ε → ε'} {x : Except ε α} {a : α}
    (h : x.mapError f = .ok a) : x = .ok a := by
  cases x with
  | error e => cases h
  | ok b => exact congrArg Except.ok (Except.ok.inj h)

lemma of_mapError_error {ε ε' α : Type} {f : ε → ε'} {x : Except ε α} {e : ε'}
    (h : x.mapError f = .error e) : ∃ e', x = .error e' ∧ f e' = e := by
  cases x with
  | error e' => exact ⟨e', rfl, Except.error.inj h⟩
  | ok b => cases h

/-- **The nesting limit is exact.** A text that spells a rule spells the same rule with a limit
that its parentheses keep, and otherwise fails at the first parenthesis beyond it. A text that
spells none fails in the same way, or at such a parenthesis. A rule that is accepted with a limit
has at most one group more than that in each other. -/
theorem parse_limited (m : ℕ) (s : String) :
    (∀ t, Rule.parse none s = .ok t → ∃ ts, Token.scan s = .ok ts ∧
      (Within m ts → Rule.parse (some m) s = .ok t) ∧
      (¬Within m ts → ∃ p, FirstBeyond m 0 ts p ∧
        Rule.parse (some m) s = .error (.parseAt s (.nestingTooDeep m) p.offset))) ∧
    (∀ e, Rule.parse none s = .error e → Rule.parse (some m) s = .error e ∨
      ∃ ts p, Token.scan s = .ok ts ∧ FirstBeyond m 0 ts p ∧
        Rule.parse (some m) s = .error (.parseAt s (.nestingTooDeep m) p.offset)) ∧
    ∀ t, Rule.parse (some m) s = .ok t → t.depth ≤ m + 1 := by
  cases hs : Token.scan s with
  | error e =>
    have hfails (limit : Option ℕ) : Rule.parse limit s = .error e := by rw [Rule.parse, hs]
    rw [hfails none, hfails (some m)]
    refine ⟨fun t ht => ?_, fun e' he => .inl he, fun t ht => ?_⟩
    · cases ht
    · cases ht
  | ok ts =>
    rw [Rule.parse_of_scan hs, Rule.parse_of_scan hs]
    refine ⟨fun t ht => ⟨ts, rfl, fun hts => ?_, fun hts => ?_⟩, fun e he => ?_, fun t ht => ?_⟩
    · have hrule := of_mapError_ok ht
      rw [rule_of_within hts hrule]
      rfl
    · obtain ⟨p, hp, hrule⟩ := rule_of_beyond hts (of_mapError_ok ht)
      rw [hrule]
      exact ⟨p, hp, rfl⟩
    · obtain ⟨f, hf, rfl⟩ := of_mapError_error he
      rcases rule_of_error hf with hsame | ⟨p, hp, hrule⟩
      · rw [hsame]
        exact .inl rfl
      · rw [hrule]
        exact .inr ⟨ts, p, rfl, hp, rfl⟩
    · exact depth_of_limited (of_mapError_ok ht)

end RecordRules.Nesting
