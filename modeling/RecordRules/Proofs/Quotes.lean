import RecordRules.Text.Quoted
import Mathlib.Data.Nat.Basic

/-!
Quoted texts: what is read does not depend on what follows it, and reading undoes writing.
-/

namespace RecordRules.Text

lemma isQuote_iff {c : Char} : isQuote c = true ↔ c = '\'' ∨ c = '"' := by
  simp [isQuote]

namespace Quoted

variable {quote c e : Char} {cs : List Char}

/-! ### One character -/

lemma read_quote (quote : Char) (cs : List Char) :
    read quote (quote :: cs) = some ⟨[], [quote], cs⟩ := by
  rw [read.eq_def]
  exact if_pos rfl

lemma read_escape (hq : '\\' ≠ quote) (he : isEscapable e = true) :
    read quote ('\\' :: e :: cs) = (read quote cs).map (·.push e ['\\', e]) := by
  rw [read.eq_def]
  dsimp only
  rw [if_neg hq]
  exact if_pos he

lemma read_backslash (hq : '\\' ≠ quote) (he : ¬isEscapable e = true) :
    read quote ('\\' :: e :: cs) = (read quote (e :: cs)).map (·.push '\\' ['\\']) := by
  rw [read.eq_def]
  dsimp only
  rw [if_neg hq]
  exact if_neg he

lemma read_other (hq : c ≠ quote) (hc : c ≠ '\\') :
    read quote (c :: cs) = (read quote cs).map (·.push c [c]) := by
  rw [read.eq_def]
  dsimp only
  rw [if_neg hq]
  split
  · exact absurd rfl hc
  · rfl

/-! ### Whole texts -/

/-- What was read reads the same, whatever follows it. -/
lemma read_again {u : List Char} {q : Quoted} (h : read quote u = some q) (w : List Char) :
    read quote (q.text ++ w) = some { q with rest := w } := by
  fun_induction read quote u generalizing q with
  | case1 => cases h
  | case2 cs =>
    cases h
    exact read_quote _ _
  | case3 e cs he hq ih =>
    obtain ⟨p, hp, rfl⟩ := Option.map_eq_some_iff.1 h
    simp only [push, List.cons_append, List.nil_append]
    rw [read_escape hq he, ih hp]
    rfl
  | case4 e cs he hq ih =>
    obtain ⟨p, hp, rfl⟩ := Option.map_eq_some_iff.1 h
    obtain ⟨t, ht⟩ : ∃ t, p.text = e :: t := by
      obtain ⟨happ, hne⟩ := read_text hp
      cases hpt : p.text with
      | nil => exact absurd hpt hne
      | cons d t =>
        rw [hpt] at happ
        exact ⟨t, by rw [(List.cons.inj happ).1]⟩
    have ih := ih hp
    rw [ht, List.cons_append] at ih
    simp only [push, ht, List.cons_append, List.nil_append]
    rw [read_backslash hq he, ih, Option.map_some]
    simp [push]
  | case5 c cs hesc hq ih =>
    obtain ⟨p, hp, rfl⟩ := Option.map_eq_some_iff.1 h
    have hc : c ≠ '\\' := by
      rintro rfl
      cases cs with
      | nil => cases hp
      | cons e cs => exact hesc e cs rfl rfl
    simp only [push, List.cons_append, List.nil_append]
    rw [read_other hq hc, ih hp]
    rfl

/-- The characters between the quotes of a written text. -/
def escapes (quote : Char) (value : List Char) : List Char :=
  value.flatMap fun c => if c = quote ∨ c = '\\' then ['\\', c] else [c]

lemma write_eq (quote : Char) (value : List Char) :
    write quote value = quote :: (escapes quote value ++ [quote]) := rfl

/-- What is written between quotes reads back, whatever follows it. -/
theorem read_escapes {quote : Char} (hq : isQuote quote = true) (value w : List Char) :
    read quote (escapes quote value ++ quote :: w) =
      some ⟨value, escapes quote value ++ [quote], w⟩ := by
  have hs : '\\' ≠ quote := by
    rintro rfl
    cases hq
  induction value with
  | nil => exact read_quote quote w
  | cons c value ih =>
    unfold escapes at ih ⊢
    rw [List.flatMap_cons, List.append_assoc, List.append_assoc]
    split
    · next h =>
      have he : isEscapable c = true := by
        rcases h with rfl | rfl
        · simp [isEscapable, hq]
        · rfl
      rw [List.cons_append, List.cons_append, List.nil_append, read_escape hs he, ih]
      rfl
    · next h =>
      obtain ⟨hc, hb⟩ := not_or.1 h
      rw [List.cons_append, List.nil_append, read_other hc hb, ih]
      rfl

end Quoted

end RecordRules.Text
