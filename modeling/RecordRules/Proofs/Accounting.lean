import Mathlib.Data.List.Induction
import Mathlib.Data.List.Nodup
import RecordRules.Proofs.Lookups

/-!
What a history of calls on a new engine leaves in its cache. A text is known when a call has
compiled it since the cache was last cleared. Then the next look-up of the text is a hit; the
cache holds the known texts and no others, each with the number of its compilation, and the
compilations are numbered as they come, whatever failed or was cleared in between.
-/

namespace RecordRules.Calls

/-! ### Histories -/

/-- Since the cache was last cleared there was a call with the text, and the text compiles. -/
def Known (limit : Option Nat) (past : List Call) (text : String) : Prop :=
  Compiles limit text ∧ ∃ before c since, past = before ++ c :: since ∧ c.text? = some text ∧
    Call.clear ∉ since

variable {limit : Option Nat} {past : List Call} {b : Call} {t text : String}

lemma not_known_nil (limit : Option Nat) (text : String) : ¬Known limit [] text := by
  rintro ⟨-, before, c, since, h, -⟩
  simp at h

lemma known_snoc : Known limit (past ++ [b]) text ↔
    Compiles limit text ∧ b.text? = some text ∨ b ≠ .clear ∧ Known limit past text := by
  constructor
  · rintro ⟨hc, before, c, since, hpast, htext, hclear⟩
    rcases List.eq_nil_or_concat since with rfl | ⟨since, d, rfl⟩
    · obtain ⟨rfl, rfl⟩ := List.append_singleton_inj.1 hpast
      exact .inl ⟨hc, htext⟩
    · rw [List.concat_eq_append, ← List.cons_append, ← List.append_assoc] at hpast
      obtain ⟨rfl, rfl⟩ := List.append_singleton_inj.1 hpast
      rw [List.concat_eq_append, List.mem_append, List.mem_singleton, not_or] at hclear
      exact .inr ⟨Ne.symm hclear.2, hc, before, c, since, rfl, htext, hclear.1⟩
  · rintro (⟨hc, htext⟩ | ⟨hne, hc, before, c, since, rfl, htext, hclear⟩)
    · exact ⟨hc, past, b, [], rfl, htext, List.not_mem_nil⟩
    · refine ⟨hc, before, c, since ++ [b], by simp, htext, ?_⟩
      rw [List.mem_append, List.mem_singleton, not_or]
      exact ⟨hclear, Ne.symm hne⟩

lemma known_lookup (hb : b.text? = some text) : Known limit (past ++ [b]) t ↔
    t = text ∧ Compiles limit text ∨ Known limit past t := by
  have hne : b ≠ .clear := by
    rintro rfl
    cases hb
  rw [known_snoc, hb, Option.some_inj]
  constructor
  · rintro (⟨hc, rfl⟩ | ⟨-, h⟩)
    · exact .inl ⟨rfl, hc⟩
    · exact .inr h
  · rintro (⟨rfl, hc⟩ | h)
    · exact .inl ⟨hc, rfl⟩
    · exact .inr ⟨hne, h⟩

lemma known_other (hb : b.text? = none) : Known limit (past ++ [b]) t ↔
    b ≠ .clear ∧ Known limit past t := by
  simp [known_snoc, hb]

/-- The rule that a look-up has compiled, if it has compiled one. -/
def fresh : Except RuleError (CompiledRule × Bool) → List CompiledRule
  | .ok (r, hit) => if hit then [] else [r]
  | .error _ => []

/-- An engine, and the rules that calls have compiled on it, in order. -/
structure Session where
  engine : Engine
  made : List CompiledRule

namespace Session

def next (s : Session) (b : Call) : Session where
  engine := (call s.engine b).2
  made := s.made ++ match b.text? with
    | some text => fresh (s.engine.cache.fetch text).1
    | none => []

/-- The calls one after the other on a new engine. -/
def after (o : Engine.Options) (past : List Call) : Session :=
  past.foldl next ⟨.ofOptions o, []⟩

lemma after_snoc (o : Engine.Options) (past : List Call) (b : Call) :
    after o (past ++ [b]) = (after o past).next b := by
  simp [after]

lemma made_lookup (s : Session) {b : Call} {text : String} (hb : b.text? = some text) :
    (s.next b).made = s.made ++ fresh (s.engine.cache.fetch text).1 := by
  simp only [next, hb]

lemma made_other (s : Session) {b : Call} (hb : b.text? = none) : (s.next b).made = s.made := by
  simp only [next, hb, List.append_nil]

end Session

/-! ### One call -/

/-- What a history leaves in a cache, where `made` are the rules that it has compiled. The
cached rules are the last of them. -/
structure Ledger (limit : Option Nat) (past : List Call) (made : List CompiledRule)
    (c : Cache) : Prop where
  under : c.compiler.limit = limit
  total : c.hits + c.misses = past.countP fun b => b.text?.isSome
  known : ∀ t, c.Has t ↔ Known limit past t
  apart : (c.rules.map (·.text)).Nodup
  version : c.compiler.version = made.length
  versions : made.map (·.version) = List.range' 1 made.length
  kept : c.rules.reverse <:+ made

variable {made : List CompiledRule} {c d : Cache}
  {outcome : Except RuleError (CompiledRule × Bool)}

lemma countP_lookup (hb : b.text? = some text) :
    (past ++ [b]).countP (fun b => b.text?.isSome) = past.countP (fun b => b.text?.isSome) + 1 := by
  simp [hb]

lemma countP_other (hb : b.text? = none) :
    (past ++ [b]).countP (fun b => b.text?.isSome) = past.countP (fun b => b.text?.isSome) := by
  simp [hb]

namespace Ledger

lemma fetched (h : Ledger limit past made c) (hb : b.text? = some text)
    (hf : c.Fetched text outcome d) : Ledger limit (past ++ [b]) (made ++ fresh outcome) d := by
  have htotal := h.total
  cases hf with
  | hit r hr =>
    have hknown := (h.known text).1 (Cache.has_of_get? hr)
    rw [fresh, if_pos rfl, List.append_nil]
    refine { h with total := ?_, known := fun t => ?_ }
    · rw [countP_lookup hb, ← htotal]
      exact Nat.add_right_comm ..
    · rw [known_lookup hb]
      refine (h.known t).trans ⟨.inr, ?_⟩
      rintro (⟨rfl, -⟩ | ht)
      · exact hknown
      · exact ht
  | failed err hnot hp =>
    have hfails : ¬Compiles limit text := by
      rintro ⟨root, hroot⟩
      rw [← h.under, hp] at hroot
      cases hroot
    rw [fresh, List.append_nil]
    refine { h with total := ?_, known := fun t => ?_ }
    · rw [countP_lookup hb, ← htotal]
      exact (Nat.add_assoc ..).symm
    · rw [known_lookup hb]
      exact (h.known t).trans (by simp [hfails])
  | compiled root _ hnot hp hrules hcompiler hhits hmisses =>
    have hcompiles : Compiles limit text := ⟨root, h.under ▸ hp⟩
    rw [fresh, if_neg Bool.false_ne_true]
    constructor
    · rw [hcompiler, h.under]
    · rw [hhits, hmisses, countP_lookup hb]
      omega
    · intro t
      rw [known_lookup hb, ← h.known, Cache.Has, hrules, List.map_cons, List.mem_cons]
      simp [hcompiles, Cache.Has]
    · rw [hrules, List.map_cons, List.nodup_cons]
      exact ⟨hnot, h.apart⟩
    · rw [hcompiler, List.length_append, List.length_singleton, h.version]
    · rw [List.map_append, h.versions, List.length_append, List.length_singleton,
        List.range'_1_concat, h.version, Nat.add_comm 1]
      rfl
    · rw [hrules, List.reverse_cons, List.suffix_append_self_iff]
      exact h.kept

lemma cleared (h : Ledger limit past made c) :
    Ledger limit (past ++ [.clear]) made c.clear where
  under := h.under
  total := (countP_other (b := .clear) rfl).symm ▸ h.total
  known t := by
    rw [known_other rfl]
    exact iff_of_false List.not_mem_nil fun h => h.1 rfl
  apart := .nil
  version := h.version
  versions := h.versions
  kept := List.nil_suffix

lemma unchanged (h : Ledger limit past made c) (hb : b.text? = none) (hne : b ≠ .clear) :
    Ledger limit (past ++ [b]) made c :=
  { h with
    total := (countP_other hb).symm ▸ h.total
    known := fun t => by rw [known_other hb, and_iff_right hne, h.known] }

lemma next {s : Session} (h : Ledger limit past s.made s.engine.cache) (b : Call) :
    Ledger limit (past ++ [b]) (s.next b).made (s.next b).engine.cache := by
  rcases call_cases s.engine b with ⟨text, hb, hcache⟩ | ⟨rfl, hcache⟩ | ⟨hb, hne, heq⟩
  · rw [s.made_lookup hb, Session.next, hcache]
    exact h.fetched hb (s.engine.cache.fetched text)
  · rw [s.made_other rfl, Session.next, hcache]
    exact h.cleared
  · rw [s.made_other hb, Session.next, heq]
    exact h.unchanged hb hne

end Ledger

/-! ### Calls one after the other -/

lemma ledger_after (o : Engine.Options) (past : List Call) :
    Ledger o.maxDepth past (Session.after o past).made (Session.after o past).engine.cache := by
  induction past using List.reverseRecOn with
  | nil =>
    refine ⟨rfl, rfl, fun t => ?_, .nil, rfl, rfl, List.suffix_rfl⟩
    exact iff_of_false List.not_mem_nil (not_known_nil o.maxDepth t)
  | append_singleton past b ih =>
    rw [Session.after_snoc]
    exact ih.next b

namespace Ledger

/-- A rule is found under its text. -/
lemma get?_eq_some (h : Ledger limit past made c) {r : CompiledRule} :
    c.get? text = some r ↔ r ∈ c.rules ∧ r.text = text := by
  constructor
  · intro hr
    exact ⟨List.mem_of_find?_eq_some hr, (parse_of_get? hr).1⟩
  · rintro ⟨hr, rfl⟩
    cases hfound : c.get? r.text with
    | none => exact absurd (List.mem_map_of_mem hr) (Cache.get?_eq_none.1 hfound)
    | some q =>
      have hq : q ∈ c.rules := List.mem_of_find?_eq_some hfound
      exact congrArg some (List.inj_on_of_nodup_map h.apart hq hr (parse_of_get? hfound).1)

lemma rules_subset (h : Ledger limit past made c) : c.rules ⊆ made :=
  fun _ hr => h.kept.subset (List.mem_reverse.2 hr)

lemma nodup_versions (h : Ledger limit past made c) : (c.rules.map (·.version)).Nodup := by
  have hmade : (made.map (·.version)).Nodup := h.versions ▸ List.nodup_range'
  have hkept := hmade.sublist (h.kept.sublist.map (·.version))
  rw [List.map_reverse] at hkept
  exact List.nodup_reverse.1 hkept

lemma length_texts (h : Ledger limit past made c) : c.texts.length = c.entries := by
  have hnodup : c.texts.Nodup := by
    refine (Sorted.pairwise_ofList _).imp ?_
    rintro s _ hlt rfl
    exact String.lt_irrefl s hlt
  have hperm : c.texts.Perm (c.rules.map (·.text)) :=
    (List.perm_ext_iff_of_nodup hnodup h.apart).2 fun _ => Cache.mem_texts
  rw [hperm.length_eq, List.length_map]
  rfl

/-- A look-up compiles the rule of its text under the next number, or compiles nothing. -/
lemma fresh_cases (h : Ledger limit past made c) (hf : c.Fetched text outcome d) :
    (∃ root, Rule.parse limit text = .ok root ∧ ¬Known limit past text ∧
      fresh outcome = [⟨text, root, made.length + 1⟩]) ∨
    ¬(Compiles limit text ∧ ¬Known limit past text) ∧ fresh outcome = [] := by
  cases hf with
  | hit r hr =>
    have hknown := (h.known text).1 (Cache.has_of_get? hr)
    exact .inr ⟨fun hnew => hnew.2 hknown, rfl⟩
  | failed err hnot hp =>
    refine .inr ⟨?_, rfl⟩
    rintro ⟨⟨root, hroot⟩, -⟩
    rw [← h.under, hp] at hroot
    cases hroot
  | compiled root _ hnot hp =>
    exact .inl ⟨root, h.under ▸ hp, mt (h.known text).2 hnot, by rw [h.version]; rfl⟩

/-- What a look-up hands out was compiled earlier or is compiled now. -/
lemma mem_made (h : Ledger limit past made c) {r : CompiledRule} {hit : Bool}
    (hf : c.Fetched text (.ok (r, hit)) d) : r ∈ made ++ fresh (.ok (r, hit)) := by
  cases hf with
  | hit _ hr => exact List.mem_append_left _ (h.rules_subset (h.get?_eq_some.1 hr).1)
  | compiled => exact List.mem_append_right _ (List.mem_singleton.2 rfl)

variable {s : Session}

lemma counters_call {e : Engine} (h : Ledger limit past made e.cache) (b : Call) :
    ((call e b).2.cache.hits = e.cache.hits + 1 ↔
      ∃ text, b.text? = some text ∧ Known limit past text) ∧
    ((call e b).2.cache.misses = e.cache.misses + 1 ↔
      ∃ text, b.text? = some text ∧ ¬Known limit past text) := by
  rcases call_cases e b with ⟨text, hb, hcache⟩ | ⟨rfl, hcache⟩ | ⟨hb, -, heq⟩
  · have hf := e.cache.fetched text
    rw [hcache, hf.hits_iff, hf.misses_iff, hb]
    simp [h.known]
  · rw [hcache]
    simp [Cache.clear, Call.text?]
  · rw [heq, hb]
    simp

lemma made_next (h : Ledger limit past s.made s.engine.cache) (b : Call) :
    (∃ text root, b.text? = some text ∧ Rule.parse limit text = .ok root ∧
      ¬Known limit past text ∧ (s.next b).made = s.made ++ [⟨text, root, s.made.length + 1⟩]) ∨
    (¬∃ text, b.text? = some text ∧ Compiles limit text ∧ ¬Known limit past text) ∧
      (s.next b).made = s.made := by
  cases hb : b.text? with
  | none => exact .inr ⟨by simp, s.made_other hb⟩
  | some text =>
    rw [s.made_lookup hb]
    rcases h.fresh_cases (s.engine.cache.fetched text) with ⟨root, hp, hnew, hfresh⟩ |
      ⟨hold, hfresh⟩
    · exact .inl ⟨text, root, rfl, hp, hnew, by rw [hfresh]⟩
    · refine .inr ⟨?_, by rw [hfresh, List.append_nil]⟩
      rintro ⟨_, ⟨⟩, hnew⟩
      exact hold hnew

lemma mem_made_compile (h : Ledger limit past s.made s.engine.cache) {r : CompiledRule}
    (hr : (s.engine.compile text).1 = .ok r) : r ∈ (s.next (.compile text)).made := by
  have hf := s.engine.cache.fetched text
  change (s.engine.cache.fetch text).1.map Prod.fst = .ok r at hr
  rw [s.made_lookup rfl]
  cases hout : (s.engine.cache.fetch text).1 with
  | error err =>
    rw [hout] at hr
    cases hr
  | ok found =>
    rw [hout] at hr hf
    cases hr
    exact h.mem_made hf

end Ledger

/-- The word in the answer of an evaluation tells whether the text was in the cache. -/
lemma cacheHit_iff (e : Engine) (text : String) (record : Record) (traced : Bool) :
    (e.evaluate text record traced).1.cacheHit = true ↔ e.cache.Has text := by
  have hf := e.cache.fetched text
  generalize hout : (e.cache.fetch text).1 = outcome at hf
  generalize (e.cache.fetch text).2 = d at hf
  cases hf with
  | hit r hr =>
    rw [evaluate_ok hout]
    exact iff_of_true rfl (Cache.has_of_get? hr)
  | failed err hnot =>
    rw [evaluate_error hout]
    exact iff_of_false Bool.false_ne_true hnot
  | compiled root _ hnot =>
    rw [evaluate_ok hout]
    exact iff_of_false Bool.false_ne_true hnot

/-- **A history accounts for the cache**: all look-ups are counted, and the next one is a hit
exactly when its text is known. The cache holds the known texts, each once and found by itself.
The compilations are numbered from one on, each in its turn; nothing else is ever numbered, and
all that the cache holds or hands out has the number of its compilation. -/
theorem history_accounts (o : Engine.Options) (past : List Call) :
    ∃ e made, Session.after o past = ⟨e, made⟩ ∧
      (e.cache.hits + e.cache.misses = past.countP fun b => b.text?.isSome) ∧
      (∀ b, ((call e b).2.cache.hits = e.cache.hits + 1 ↔
          ∃ text, b.text? = some text ∧ Known o.maxDepth past text) ∧
        ((call e b).2.cache.misses = e.cache.misses + 1 ↔
          ∃ text, b.text? = some text ∧ ¬Known o.maxDepth past text)) ∧
      (∀ text record traced, (e.evaluate text record traced).1.cacheHit = true ↔
        Known o.maxDepth past text) ∧
      (∀ text, text ∈ e.cache.texts ↔ Known o.maxDepth past text) ∧
      e.cache.texts.length = e.cache.entries ∧
      (∀ text r, e.cache.get? text = some r ↔ r ∈ e.cache.rules ∧ r.text = text) ∧
      made.map (·.version) = List.range' 1 made.length ∧
      e.cache.rules ⊆ made ∧ (e.cache.rules.map (·.version)).Nodup ∧
      (∀ b, (∃ text root, b.text? = some text ∧ Rule.parse o.maxDepth text = .ok root ∧
          ¬Known o.maxDepth past text ∧
          (Session.after o (past ++ [b])).made = made ++ [⟨text, root, made.length + 1⟩]) ∨
        (¬∃ text, b.text? = some text ∧ Compiles o.maxDepth text ∧ ¬Known o.maxDepth past text) ∧
          (Session.after o (past ++ [b])).made = made) ∧
      ∀ text r, (e.compile text).1 = .ok r →
        r ∈ (Session.after o (past ++ [.compile text])).made := by
  have h := ledger_after o past
  simp only [Session.after_snoc]
  exact ⟨_, _, rfl, h.total, h.counters_call,
    fun text record traced => (cacheHit_iff _ text record traced).trans (h.known text),
    fun text => Cache.mem_texts.trans (h.known text), h.length_texts, fun _ _ => h.get?_eq_some,
    h.versions, h.rules_subset, h.nodup_versions, h.made_next, fun _ _ => h.mem_made_compile⟩

end RecordRules.Calls
