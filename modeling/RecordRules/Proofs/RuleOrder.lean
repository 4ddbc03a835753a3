import Mathlib.Data.Finset.Insert
import Mathlib.Data.List.Perm.Basic
import Mathlib.Data.List.Sort
import RecordRules.Command.Run
import RecordRules.Proofs.Lookups

/-!
The order of the rules that one command evaluates. The rules share the cache of the engine, so
the order settles which of several rules of one text is the miss, and which number a rule gets.
All that is counted stays the same, because look-ups of two texts commute; and the results stay
the same, because they do not depend on the cache.
-/

namespace RecordRules

/-- What can be told of a cache from outside: what it has counted, and which texts it holds. -/
structure Books where
  hits : Nat
  misses : Nat
  entries : Nat
  texts : Finset String

namespace Books

/-- A look-up of the text. -/
def note (limit : Option Nat) (b : Books) (text : String) : Books :=
  if text ∈ b.texts then { b with hits := b.hits + 1 }
  else match Rule.parse limit text with
    | .ok _ => ⟨b.hits, b.misses + 1, b.entries + 1, insert text b.texts⟩
    | .error _ => { b with misses := b.misses + 1 }

lemma note_comm (limit : Option Nat) (b : Books) (s t : String) :
    (b.note limit s).note limit t = (b.note limit t).note limit s := by
  obtain rfl | hne := eq_or_ne s t
  · rfl
  · unfold note
    by_cases hs : s ∈ b.texts <;> by_cases ht : t ∈ b.texts <;>
      rcases Rule.parse limit s with _ | _ <;> rcases Rule.parse limit t with _ | _ <;>
      simp [hs, ht, hne, hne.symm, Finset.insert_comm]

/-- The order of look-ups does not show in the books. -/
lemma notes_perm (limit : Option Nat) (b : Books) {ss ts : List String} (h : ss.Perm ts) :
    ss.foldl (note limit) b = ts.foldl (note limit) b :=
  haveI : RightCommutative (note limit) := ⟨note_comm limit⟩
  h.foldl_eq b

end Books

namespace Cache

def books (c : Cache) : Books := ⟨c.hits, c.misses, c.entries, (c.rules.map (·.text)).toFinset⟩

lemma mem_books {c : Cache} {text : String} : text ∈ c.books.texts ↔ c.Has text :=
  List.mem_toFinset

lemma books_fetch (c : Cache) (text : String) :
    (c.fetch text).2.books = c.books.note c.compiler.limit text := by
  have hf := c.fetched text
  generalize (c.fetch text).1 = outcome at hf
  generalize (c.fetch text).2 = d at hf
  unfold Books.note
  cases hf with
  | hit r hr =>
    rw [if_pos (mem_books.2 (has_of_get? hr))]
    rfl
  | failed err hnot hp =>
    rw [if_neg (mt mem_books.1 hnot), hp]
    rfl
  | compiled root _ hnot hp hrules hcompiler hhits hmisses =>
    rw [if_neg (mt mem_books.1 hnot), hp]
    simp [books, entries, hrules, hhits, hmisses]

/-- The texts are listed in ascending order, whatever the order of the rules. -/
lemma texts_eq {c d : Cache} (h : c.books = d.books) : c.texts = d.texts := by
  refine List.Pairwise.eq_of_mem_iff (Sorted.pairwise_ofList _) (Sorted.pairwise_ofList _) ?_
  intro text
  rw [mem_texts, mem_texts, ← mem_books, ← mem_books, h]

end Cache

/-- The object without the member of a name. -/
def Json.without (name : String) : Json → Json
  | .object ms => .object (ms.filter fun m => m.1 != name)
  | j => j

namespace Command

/-- A result, but for the word that the rule was in the cache. -/
def plainResult (rule : String) (e : Evaluation) : Json :=
  (evaluationJson rule e).without "cache_hit"

lemma plainResult_congr (rule : String) {a b : Evaluation} (ho : a.outcome = b.outcome)
    (ht : a.trace = b.trace) : plainResult rule a = plainResult rule b := by
  obtain ⟨outcome, hit, trace⟩ := a
  obtain ⟨_, hit', _⟩ := b
  cases ho
  cases ht
  simp [plainResult, evaluationJson, Json.without, Evaluation.matched, Evaluation.code,
    Evaluation.error?]

variable {d e : Engine}

/-- Each rule has the result that it has by itself. -/
lemma results_evaluateAll (h : d.options = e.options) (record : Record) (traced : Bool)
    (rules : List String) :
    (evaluateAll d record traced rules).1.map (Json.without "cache_hit") =
      rules.map fun rule => plainResult rule (e.evaluate rule record traced).1 := by
  induction rules generalizing d with
  | nil => rfl
  | cons rule rules ih =>
    have hnext : (d.evaluate rule record traced).2.options = e.options :=
      (Calls.options_call d (.evaluate rule record traced)).trans h
    obtain ⟨ho, ht⟩ := Calls.evaluate_agree h rule record traced
    simp only [evaluateAll, List.map_cons, ih hnext]
    exact congrArg₂ _ (plainResult_congr rule ho ht) rfl

lemma books_evaluateAll (e : Engine) (record : Record) (traced : Bool) (rules : List String) :
    (evaluateAll e record traced rules).2.cache.books =
      rules.foldl (Books.note e.cache.compiler.limit) e.cache.books := by
  induction rules generalizing e with
  | nil => rfl
  | cons rule rules ih =>
    have hcache : (e.evaluate rule record traced).2.cache = (e.cache.fetch rule).2 :=
      congrArg Engine.cache (Calls.fetch_evaluate e rule record traced)
    rw [evaluateAll, List.foldl_cons, ← Cache.books_fetch]
    simp only [ih, hcache, Calls.limit_fetch]

/-- The answer of a command that evaluates rules: the results, and what the cache has counted. -/
def report (results : List Json) (c : Cache) : Json :=
  .object [
    ("results", .array results),
    ("cache", .object [
      ("hits", .nat c.hits), ("misses", .nat c.misses), ("entries", .nat c.entries)])]

variable {file : String → Option String} {record : String}

lemma runEval_error {failure : Failure} (h : load file record = .error failure) (e : Engine)
    (rules : List String) (traced : Bool) :
    runEval file e rules record traced = (.error failure, e) := by
  simp only [runEval, h]

lemma runEval_ok {r : Record} (h : load file record = .ok r) (e : Engine) (rules : List String)
    (traced : Bool) : runEval file e rules record traced =
      (.ok (report (evaluateAll e r traced rules).1 (evaluateAll e r traced rules).2.cache),
        (evaluateAll e r traced rules).2) := by
  simp only [runEval, h]
  rfl

/-- **The order of the rules does not matter**: in any order each rule has the result that it
has by itself, but for the word that it was in the cache; the counts are the same, and so are
the texts that are cached in the end. A record that cannot be loaded leaves the engine as it
is. -/
theorem runEval_reordered (file : String → Option String) (engine : Engine)
    {rules rules' : List String} (h : rules.Perm rules') (record : String) (traced : Bool) :
    (∀ failure, load file record = .error failure →
      runEval file engine rules record traced = (.error failure, engine)) ∧
    ∀ r, load file record = .ok r → ∃ results results' e e',
      runEval file engine rules record traced = (.ok (report results e.cache), e) ∧
      runEval file engine rules' record traced = (.ok (report results' e'.cache), e') ∧
      results.map (Json.without "cache_hit") =
        (rules.map fun rule => plainResult rule (engine.evaluate rule r traced).1) ∧
      results'.map (Json.without "cache_hit") =
        (rules'.map fun rule => plainResult rule (engine.evaluate rule r traced).1) ∧
      e.cache.hits = e'.cache.hits ∧ e.cache.misses = e'.cache.misses ∧
      e.cache.entries = e'.cache.entries ∧ e.cache.texts = e'.cache.texts := by
  refine ⟨fun failure hload => runEval_error hload engine rules traced, fun r hload => ?_⟩
  have hbooks : (evaluateAll engine r traced rules).2.cache.books =
      (evaluateAll engine r traced rules').2.cache.books := by
    rw [books_evaluateAll, books_evaluateAll, Books.notes_perm _ _ h]
  exact ⟨_, _, _, _, runEval_ok hload engine rules traced, runEval_ok hload engine rules' traced,
    results_evaluateAll rfl r traced rules, results_evaluateAll rfl r traced rules',
    congrArg Books.hits hbooks, congrArg Books.misses hbooks, congrArg Books.entries hbooks,
    Cache.texts_eq hbooks⟩

/-- A rule that stands twice, and one that does not compile. -/
theorem runEval_reordered_repeated :
    ["a == 1", "a ==", "a == 1"].Perm ["a ==", "a == 1", "a == 1"] ∧
      ∃ results results' e e',
        runEval (fun _ => none) (.ofOptions {}) ["a == 1", "a ==", "a == 1"] "\x7b\x7d" true =
          (.ok (report results e.cache), e) ∧
        runEval (fun _ => none) (.ofOptions {}) ["a ==", "a == 1", "a == 1"] "\x7b\x7d" true =
          (.ok (report results' e'.cache), e') ∧
        results.length = 3 ∧ results'.length = 3 ∧ e.cache.hits = e'.cache.hits ∧
        e.cache.texts = e'.cache.texts := by
  have hperm : ["a == 1", "a ==", "a == 1"].Perm ["a ==", "a == 1", "a == 1"] := .swap ..
  have hload : ∃ r, load (fun _ => none) "\x7b\x7d" = .ok r := by
    have hok : (load (fun _ => none) "\x7b\x7d").isOk = true := by decide +kernel
    cases hr : load (fun _ => none) "\x7b\x7d" with
    | ok r => exact ⟨r, rfl⟩
    | error failure =>
      rw [hr] at hok
      cases hok
  obtain ⟨r, hr⟩ := hload
  obtain ⟨results, results', e, e', hrun, hrun', hres, hres', hhits, -, -, htexts⟩ :=
    (runEval_reordered (fun _ => none) (.ofOptions {}) hperm "\x7b\x7d" true).2 r hr
  have hlength := congrArg List.length hres
  have hlength' := congrArg List.length hres'
  rw [List.length_map, List.length_map] at hlength hlength'
  exact ⟨hperm, results, results', e, e', hrun, hrun', hlength, hlength', hhits, htexts⟩

end Command

end RecordRules
