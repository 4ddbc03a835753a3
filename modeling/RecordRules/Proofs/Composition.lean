import Mathlib.Data.List.Forall2
import RecordRules.Proofs.RoundTrip

/-!
Rule texts compose. Texts in parentheses with one connective between them spell the group of
the rules that they spell alone: no text takes part in the reading of its neighbours.
-/

namespace RecordRules.Composition

open Canonical Grammar Token

/-- A text in parentheses. -/
def enclosed (s : String) : String := "(" ++ s ++ ")"

/-- Texts in parentheses, with a connective between each and the next. -/
def joined (op : Connective) (texts : List String) : String :=
  (" " ++ op.symbol ++ " ").intercalate (texts.map enclosed)

lemma joined_single (op : Connective) (s : String) : joined op [s] = enclosed s := by
  rw [joined, List.map_singleton, String.intercalate_singleton]

lemma joined_cons (op : Connective) (s t : String) (texts : List String) :
    joined op (s :: t :: texts) =
      enclosed s ++ (" " ++ op.symbol ++ " ") ++ joined op (t :: texts) := by
  simp only [joined, List.map_cons, String.intercalate_cons_cons]

/-! ### Texts and the terms they are printed for -/

/-- A text in parentheses prints a term whose tree is what the text spells alone. -/
lemma exists_term {s : String} {t : Rule} (h : Rule.parse none s = .ok t) :
    ∃ c : Term, c.tree = t ∧ Prints (enclosed s).toList c.lexemes := by
  obtain ⟨g, hs, rfl⟩ := Spelling.exists_derivation h
  refine ⟨.paren g, rfl, fun rest w _ hw => ?_⟩
  have hclose (b : Bool) : Scans b (')' :: rest) (.closeParen :: w) := .mark (by simp [marks]) hw
  have hin := hs.append (.cons (by simp) rest) hclose
  have hopen := Scans.mark (b := false) (c := '(') (l := .openParen) (by simp [marks]) hin
  simpa [enclosed, Term.lexemes] using hopen

lemma exists_terms {texts : List String} {rules : List Rule}
    (h : List.Forall₂ (fun s t => Rule.parse none s = .ok t) texts rules) :
    ∃ cs : List Term, Term.trees cs = rules ∧
      List.Forall₂ (fun s (c : Term) => Prints (enclosed s).toList c.lexemes) texts cs := by
  induction h with
  | nil => exact ⟨[], rfl, .nil⟩
  | cons h _ ih =>
    obtain ⟨c, rfl, hc⟩ := exists_term h
    obtain ⟨cs, rfl, hcs⟩ := ih
    exact ⟨c :: cs, rfl, .cons hc hcs⟩

/-- The first text is printed before the connective and the others, which are a joined text
again. -/
lemma prints_joined (op : Connective) {s : String} {c : Term} {texts : List String}
    {cs : List Term} (hc : Prints (enclosed s).toList c.lexemes)
    (h : List.Forall₂ (fun s (c : Term) => Prints (enclosed s).toList c.lexemes) texts cs) :
    Prints (joined op (s :: texts)).toList (c.lexemes ++ Term.moreLexemes op cs) := by
  induction h generalizing s c with
  | nil =>
    rw [joined_single, Term.moreLexemes, List.append_nil]
    exact hc
  | cons hd _ ih =>
    intro rest w hr hw
    have htail := ih hd rest w hr hw
    have hop := Scans.connective (b := true) op htail
    have hfirst := hc _ _ (.cons (by simp) _) hop.space
    simpa [joined_cons, Term.moreLexemes] using hfirst

/-- **Composition**: two texts and more, each in parentheses and with one connective between
them, spell the group of the rules that they spell alone; and each alone in parentheses spells
the same rule as without them. -/
theorem parse_joined (op : Connective) {texts : List String} {rules : List Rule}
    (h : List.Forall₂ (fun s t => Rule.parse none s = .ok t) texts rules) :
    (2 ≤ texts.length → Rule.parse none (joined op texts) = .ok (.group op rules)) ∧
    List.Forall₂ (fun s t => Rule.parse none (enclosed s) = .ok t) texts rules := by
  constructor
  · intro hlen
    obtain ⟨cs, rfl, hcs⟩ := exists_terms h
    match texts, cs, hcs with
    | _ :: _ :: _, c :: d :: cs, .cons hc (.cons hd hcs) =>
      have hp := prints_joined op hc (.cons hd hcs)
      have hs := hp [] [] .nil (.nil true)
      refine Spelling.parse_of_scans (.joined op c d cs) ?_
      simpa [Group.lexemes, Term.moreLexemes] using hs
    | [_], [_], _ => simp at hlen
    | [], [], _ => simp at hlen
  · refine h.imp fun s t hst => ?_
    obtain ⟨c, rfl, hc⟩ := exists_term hst
    refine Spelling.parse_of_scans (.single c) ?_
    simpa [Group.lexemes] using hc [] [] .nil (.nil true)

/-- An alternative stays within its parentheses, and the parenthesis with which a product begins
within its comparison. -/
theorem parse_joined_mixed :
    let either := Rule.group .or [.comparison (.literal (.int 1)) .lt (.literal (.int (-2))),
      .comparison (.literal (.int 3)) .eq (.literal (.int 4))]
    let product := Rule.comparison
      (.arithmetic (.arithmetic (.literal (.int 1)) .sub (.literal (.int 2))) .mul
        (.literal (.int 3))) .gt (.literal (.int 5))
    Rule.parse none "((1 < -2 || 3 == 4)) && (((1 - 2) * 3) > 5)" =
      .ok (.group .and [either, product]) := by
  intro either product
  have heither : Rule.parse none "(1 < -2 || 3 == 4)" = .ok either := by
    have ht : either.text = "(1 < -2 || 3 == 4)" := by decide
    rw [← ht]
    exact RoundTrip.parse_text ⟨by decide, ⟨trivial, trivial⟩, ⟨trivial, trivial⟩, trivial⟩
  have hproduct : Rule.parse none "((1 - 2) * 3) > 5" = .ok product := by
    have ht : product.text = "((1 - 2) * 3) > 5" := by decide
    rw [← ht]
    exact RoundTrip.parse_text ⟨⟨⟨trivial, trivial⟩, trivial⟩, trivial⟩
  exact (parse_joined .and (.cons heither (.cons hproduct .nil))).1 (by decide)

end RecordRules.Composition
