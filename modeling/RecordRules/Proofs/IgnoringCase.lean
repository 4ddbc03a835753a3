import Mathlib.Data.List.TakeWhile
import RecordRules.Proofs.Equating

/-!
Finding a text with and without heed of case.

A verb that ignores case looks for one text in small letters in another one. Small letters
are made character by character, so that a part of a text gives a part of its small letters,
with one exception: the form of a small sigma depends on what stands around the capital one.
A match is kept where each capital sigma takes the form that it takes in the part alone.
-/

namespace RecordRules.Text

/-- A text in small letters where it stands between others; `before` is read backwards. -/
def smallBetween (before : List Char) : List Char → List Char → List Char
  | [], _ => []
  | c :: cs, after =>
    (if c = 'Σ' then [smallSigma before (cs ++ after)] else smallForm c) ++
      smallBetween (c :: before) cs after

lemma lowerFrom_eq (before cs : List Char) : lowerFrom before cs = smallBetween before cs [] := by
  induction cs generalizing before with
  | nil => rfl
  | cons c cs ih => rw [lowerFrom, smallBetween, ih, List.append_nil]

lemma lowerFrom_append (before cs ds : List Char) : lowerFrom before (cs ++ ds) =
    smallBetween before cs ds ++ lowerFrom (cs.reverse ++ before) ds := by
  induction cs generalizing before with
  | nil => rfl
  | cons c cs ih =>
    rw [List.cons_append, lowerFrom, ih, smallBetween, List.reverse_cons, List.append_assoc,
      List.append_assoc, List.singleton_append]

/-- What stands around a text bears on its sigmas alone, and not on how many letters it has. -/
lemma length_smallBetween (before before' cs after after' : List Char) :
    (smallBetween before cs after).length = (smallBetween before' cs after').length := by
  induction cs generalizing before before' with
  | nil => rfl
  | cons c cs ih =>
    simp only [smallBetween, List.length_append, ih (c :: before) (c :: before')]
    split <;> rfl

/-- Each capital sigma of the text takes between the two others the form that it takes in the
text alone. -/
def SigmasKept (before cs after : List Char) : Prop :=
  ∀ u v, cs = u ++ 'Σ' :: v →
    smallSigma (before ++ u).reverse (v ++ after) = smallSigma u.reverse v

lemma smallBetween_eq_iff (before before' cs after after' : List Char) :
    smallBetween before cs after = smallBetween before' cs after' ↔
      ∀ u v, cs = u ++ 'Σ' :: v →
        smallSigma (u.reverse ++ before) (v ++ after) =
          smallSigma (u.reverse ++ before') (v ++ after') := by
  induction cs generalizing before before' with
  | nil => simp [smallBetween]
  | cons c cs ih =>
    have hsplit : (∀ u v, c :: cs = u ++ 'Σ' :: v →
          smallSigma (u.reverse ++ before) (v ++ after) =
            smallSigma (u.reverse ++ before') (v ++ after')) ↔
        (c = 'Σ' → smallSigma before (cs ++ after) = smallSigma before' (cs ++ after')) ∧
          smallBetween (c :: before) cs after = smallBetween (c :: before') cs after' := by
      rw [ih]
      constructor
      · intro h
        refine ⟨fun hc => h [] cs (by rw [hc]; rfl), fun u v hcs => ?_⟩
        simpa using h (c :: u) v (by rw [hcs]; rfl)
      · rintro ⟨hhead, htail⟩ u v hcs
        cases u with
        | nil =>
          obtain ⟨rfl, rfl⟩ := List.cons.inj hcs
          exact hhead rfl
        | cons d u =>
          obtain ⟨rfl, rfl⟩ := List.cons.inj hcs
          simpa using htail u v rfl
    rw [hsplit, smallBetween, smallBetween]
    by_cases hc : c = 'Σ'
    · simp [hc]
    · simp [hc]

lemma sigmasKept_iff {before cs after : List Char} : SigmasKept before cs after ↔
    smallBetween before.reverse cs after = lowerFrom [] cs := by
  rw [lowerFrom_eq, smallBetween_eq_iff]
  simp [SigmasKept]

/-- Before and after each capital sigma of the text stands a character that is not
case-ignorable, so that no other text around it is looked at. -/
def SigmasInside (cs : List Char) : Prop :=
  ∀ u v, cs = u ++ 'Σ' :: v →
    (∃ c ∈ u, isCaseIgnorable c = false) ∧ ∃ c ∈ v, isCaseIgnorable c = false

lemma meetsCased_append {cs : List Char} (h : ∃ c ∈ cs, isCaseIgnorable c = false)
    (ds : List Char) : meetsCased (cs ++ ds) = meetsCased cs := by
  have hne : cs.dropWhile isCaseIgnorable ≠ [] := by
    obtain ⟨c, hc, hci⟩ := h
    rw [ne_eq, List.dropWhile_eq_nil_iff]
    exact fun hall => Bool.false_ne_true (hci.symm.trans (hall c hc))
  unfold meetsCased
  cases hd : cs.dropWhile isCaseIgnorable with
  | nil => exact (hne hd).elim
  | cons c rest => rw [List.dropWhile_append, hd]; rfl

lemma sigmasKept_of_inside {cs : List Char} (h : SigmasInside cs) (before after : List Char) :
    SigmasKept before cs after := by
  intro u v hcs
  obtain ⟨hu, hv⟩ := h u v hcs
  have hu' : ∃ c ∈ u.reverse, isCaseIgnorable c = false := by simpa using hu
  rw [List.reverse_append, smallSigma, smallSigma, meetsCased_append hu', meetsCased_append hv]

/-! ### Searching -/

variable {s t : String}

lemma contains_iff : contains s t = true ↔
    ∃ before after, s.toList = before ++ t.toList ++ after := by
  rw [contains, occursIn_iff]
  exact ⟨fun ⟨u, v, h⟩ => ⟨u, v, h.symm⟩, fun ⟨u, v, h⟩ => ⟨u, v, h.symm⟩⟩

lemma startsWith_iff : startsWith s t = true ↔ ∃ after, s.toList = t.toList ++ after := by
  rw [startsWith, List.isPrefixOf_iff_prefix]
  exact ⟨fun ⟨v, h⟩ => ⟨v, h.symm⟩, fun ⟨v, h⟩ => ⟨v, h.symm⟩⟩

lemma endsWith_iff : endsWith s t = true ↔ ∃ before, s.toList = before ++ t.toList := by
  rw [endsWith, List.isSuffixOf_iff_suffix]
  exact ⟨fun ⟨u, h⟩ => ⟨u, h.symm⟩, fun ⟨u, h⟩ => ⟨u, h.symm⟩⟩

lemma toList_lowercase (s : String) : (lowercase s).toList = lowerFrom [] s.toList :=
  String.toList_ofList

lemma contains_lowercase {before after : List Char}
    (hs : s.toList = before ++ t.toList ++ after) (hk : SigmasKept before t.toList after) :
    contains (lowercase s) (lowercase t) = true := by
  rw [contains_iff, toList_lowercase, toList_lowercase, hs, List.append_assoc, lowerFrom_append,
    lowerFrom_append, List.append_nil, sigmasKept_iff.1 hk]
  exact ⟨_, _, (List.append_assoc ..).symm⟩

lemma startsWith_lowercase {after : List Char} (hs : s.toList = t.toList ++ after) :
    startsWith (lowercase s) (lowercase t) = true ↔ SigmasKept [] t.toList after := by
  rw [startsWith_iff, toList_lowercase, toList_lowercase, hs, lowerFrom_append, sigmasKept_iff]
  constructor
  · rintro ⟨rest, h⟩
    refine (List.append_inj h ?_).1
    rw [lowerFrom_eq]
    exact length_smallBetween ..
  · intro h
    exact ⟨_, by rw [← h]; rfl⟩

lemma endsWith_lowercase {before : List Char} (hs : s.toList = before ++ t.toList) :
    endsWith (lowercase s) (lowercase t) = true ↔ SigmasKept before t.toList [] := by
  rw [endsWith_iff, toList_lowercase, toList_lowercase, hs, lowerFrom_append, sigmasKept_iff,
    List.append_nil, lowerFrom_eq before.reverse]
  constructor
  · rintro ⟨rest, h⟩
    refine (List.append_inj' h ?_).2
    rw [lowerFrom_eq]
    exact length_smallBetween ..
  · intro h
    exact ⟨_, by rw [h]⟩

end RecordRules.Text

namespace RecordRules.Evaluate

open Text

/-- A verb that ignores case and is not negated is its test in small letters. -/
lemma apply_eq_folded {verb : Verb} {x y : Value} (hn : verb.isNegated = false)
    (hi : verb.ignoresCase = true) : apply x verb y = test verb x.foldCase y.foldCase := by
  unfold apply
  rw [hn, hi]
  cases test verb x.foldCase y.foldCase <;> simp [Except.map]

/-- **Ignoring case** keeps a match at which each capital sigma has the form that it has in
the text looked for. At the start and at the end it keeps no other match. A text that has
other letters on both sides of its capital sigmas is always found. -/
theorem ignoring_case (s t : String) :
    (apply (.str s) (.contains false false) (.str t) = .ok true →
      (∃ before after, s.toList = before ++ t.toList ++ after ∧
        SigmasKept before t.toList after) →
      apply (.str s) (.contains false true) (.str t) = .ok true) ∧
    (apply (.str s) (.startsWith false false) (.str t) = .ok true →
      ∃ after, s.toList = t.toList ++ after ∧
        (apply (.str s) (.startsWith false true) (.str t) = .ok true ↔
          SigmasKept [] t.toList after)) ∧
    (apply (.str s) (.endsWith false false) (.str t) = .ok true →
      ∃ before, s.toList = before ++ t.toList ∧
        (apply (.str s) (.endsWith false true) (.str t) = .ok true ↔
          SigmasKept before t.toList [])) ∧
    (SigmasInside t.toList → ∀ verb ∈ [Verb.contains false, .startsWith false, .endsWith false],
      apply (.str s) (verb false) (.str t) = .ok true →
        apply (.str s) (verb true) (.str t) = .ok true) := by
  have hcontains : apply (.str s) (.contains false false) (.str t) = .ok (contains s t) :=
    apply_eq_test rfl rfl
  have hstarts : apply (.str s) (.startsWith false false) (.str t) = .ok (startsWith s t) :=
    apply_eq_test rfl rfl
  have hends : apply (.str s) (.endsWith false false) (.str t) = .ok (endsWith s t) :=
    apply_eq_test rfl rfl
  have hcontains' : apply (.str s) (.contains false true) (.str t) =
      .ok (contains (lowercase s) (lowercase t)) := apply_eq_folded rfl rfl
  have hstarts' : apply (.str s) (.startsWith false true) (.str t) =
      .ok (startsWith (lowercase s) (lowercase t)) := apply_eq_folded rfl rfl
  have hends' : apply (.str s) (.endsWith false true) (.str t) =
      .ok (endsWith (lowercase s) (lowercase t)) := apply_eq_folded rfl rfl
  simp only [List.forall_mem_cons, hcontains, hstarts, hends, hcontains', hstarts', hends',
    Except.ok.injEq]
  refine ⟨?contains, ?startsWith, ?endsWith, ?inside⟩
  case contains =>
    rintro - ⟨before, after, hs, hk⟩
    exact contains_lowercase hs hk
  case startsWith =>
    intro h
    obtain ⟨after, hs⟩ := startsWith_iff.1 h
    exact ⟨after, hs, startsWith_lowercase hs⟩
  case endsWith =>
    intro h
    obtain ⟨before, hs⟩ := endsWith_iff.1 h
    exact ⟨before, hs, endsWith_lowercase hs⟩
  case inside =>
    intro hinside
    have kept := sigmasKept_of_inside hinside
    refine ⟨fun h => ?_, fun h => ?_, fun h => ?_, fun _ h => nomatch h⟩
    · obtain ⟨before, after, hs⟩ := contains_iff.1 h
      exact contains_lowercase hs (kept before after)
    · obtain ⟨after, hs⟩ := startsWith_iff.1 h
      exact (startsWith_lowercase hs).2 (kept [] after)
    · obtain ⟨before, hs⟩ := endsWith_iff.1 h
      exact (endsWith_lowercase hs).2 (kept before [])

/-- A text that ends with a capital sigma is kept at the end and lost at the start; one that
has letters around its capital sigma is found. -/
theorem ignoring_case_sigma :
    (∃ after, "ΑΣΑΣ".toList = "ΑΣ".toList ++ after ∧ ¬SigmasKept [] "ΑΣ".toList after) ∧
    (∃ before, "ΑΣΑΣ".toList = before ++ "ΑΣ".toList ∧ SigmasKept before "ΑΣ".toList []) ∧
    SigmasInside "ΑΣΑ".toList ∧
    apply (.str "ΑΣΑΣ") (.contains false true) (.str "ΑΣΑ") = .ok true ∧
    apply (.str "ΑΣΑΣ") (.startsWith false true) (.str "ΑΣΑ") = .ok true := by
  obtain ⟨-, starts, ends, -⟩ := ignoring_case "ΑΣΑΣ" "ΑΣ"
  obtain ⟨contains, -, -, inside⟩ := ignoring_case "ΑΣΑΣ" "ΑΣΑ"
  obtain ⟨after, hafter, hstarts⟩ := starts rfl
  obtain ⟨before, hbefore, hends⟩ := ends rfl
  have hinside : SigmasInside "ΑΣΑ".toList := by
    intro u v h
    change ['Α', 'Σ', 'Α'] = u ++ 'Σ' :: v at h
    rcases u with _ | ⟨a, _ | ⟨b, _ | ⟨c, u⟩⟩⟩
    · simp at h
    · simp only [List.cons_append, List.nil_append, List.cons.injEq, true_and] at h
      obtain ⟨rfl, rfl⟩ := h
      have hletter : ∃ c ∈ ['Α'], isCaseIgnorable c = false := ⟨'Α', by simp, rfl⟩
      exact ⟨hletter, hletter⟩
    · simp at h
    · simp at h
  refine ⟨⟨after, hafter, fun hk => ?_⟩, ⟨before, hbefore, hends.1 rfl⟩, hinside, ?_, ?_⟩
  · cases hstarts.2 hk
  · exact contains rfl ⟨[], "Σ".toList, rfl, sigmasKept_of_inside hinside _ _⟩
  · exact inside hinside (.startsWith false) (by simp) rfl

/-- Not every match is kept. -/
theorem final_sigma_lost :
    apply (.str "ΑΣ") (.contains false false) (.str "Σ") = .ok true ∧
    apply (.str "ΑΣ") (.contains false true) (.str "Σ") = .ok false ∧
    apply (.str "ΑΣΑ") (.startsWith false false) (.str "ΑΣ") = .ok true ∧
    apply (.str "ΑΣΑ") (.startsWith false true) (.str "ΑΣ") = .ok false ∧
    apply (.str "ΑΣ") (.endsWith false false) (.str "Σ") = .ok true ∧
    apply (.str "ΑΣ") (.endsWith false true) (.str "Σ") = .ok false := by
  refine ⟨rfl, ?_, rfl, ?_, rfl, ?_⟩ <;> rfl

end RecordRules.Evaluate
