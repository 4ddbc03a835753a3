import RecordRules.Proofs.Digits
import RecordRules.Proofs.Quotes
import RecordRules.Proofs.Scans

/-!
The scan of words and paths. Where the text of a path is read as a path, the scan finds its
steps and stops at its end.
-/

namespace RecordRules.Token

open Text

variable {b : Bool} {cs : List Char} {ls : List Lexeme}

/-! ### Where a word begins -/

lemma ne_of_isIdentStart {c d : Char} (hc : isIdentStart c = true)
    (hd : isIdentStart d = false) : c ≠ d := by
  rintro rfl
  rw [hc] at hd
  cases hd

lemma not_isIdentStart_of_isDigit {c : Char} (hc : c.isDigit = true) :
    isIdentStart c = false :=
  Number.not_of_isDigit (by decide) hc

/-- The members of a set of characters that is bounded above, one by one. -/
def codes : List ℕ → List ℕ
  | a :: b :: bs => List.range' a (b - a) ++ codes bs
  | _ => []

lemma mem_codes {n : ℕ} (bounds : List ℕ) (hlen : bounds.length % 2 = 0)
    (h : CharSet.odd n false bounds = true) : n ∈ codes bounds := by
  fun_induction codes bounds with
  | case1 a b bs ih =>
    rw [List.mem_append, List.mem_range'_1]
    simp only [CharSet.odd, Bool.not_false, Bool.not_true] at h
    split at h
    · split at h
      · exact .inr (ih (by simp only [List.length_cons] at hlen; omega) h)
      · omega
    · cases h
  | case2 bounds hne =>
    match bounds, hlen, h, hne with
    | [a], hlen, _, _ => simp at hlen
    | a :: b :: bs, _, _, hne => exact (hne a b bs rfl).elim

lemma not_isIdentStart_of_isBlank {c : Char} (hc : isBlank c = true) : isIdentStart c = false := by
  have hall : ∀ n ∈ codes blanks.bounds, isIdentStart (Char.ofNat n) = false := by decide +kernel
  rw [← Char.ofNat_toNat c]
  exact hall c.toNat (mem_codes blanks.bounds rfl hc)

lemma symbol?_of_isIdentStart {c : Char} (hc : isIdentStart c = true) (cs : List Char) :
    symbol? (c :: cs) = none := by
  unfold symbol?
  rw [Option.map_eq_none_iff, List.find?_eq_none]
  intro s hs hp
  have hall : ∀ s ∈ symbols, s.1.head?.any isIdentStart = false ∧ s.1 ≠ [] := by decide
  obtain ⟨hstart, hne⟩ := hall s hs
  obtain ⟨sym, l⟩ := s
  cases sym with
  | nil => exact hne rfl
  | cons d sym =>
    have hdc : d = c := by simp_all
    simp [hdc, hc] at hstart

lemma scanOne_word {c : Char} (hc : isIdentStart c = true) (cs : List Char) :
    scanOne b c cs = word c cs := by
  have hn : startsNumber b c cs = false := by
    have hm : c ≠ '-' := ne_of_isIdentStart hc (by decide)
    have hd : c.isDigit = false := by
      by_contra h
      rw [not_isIdentStart_of_isDigit (by simpa using h)] at hc
      cases hc
    simp [startsNumber, hd, hm]
  have hq : isQuote c = false := by
    have h₁ : c ≠ '\'' := ne_of_isIdentStart hc (by decide)
    have h₂ : c ≠ '"' := ne_of_isIdentStart hc (by decide)
    simp [isQuote, h₁, h₂]
  unfold scanOne
  simp [hn, symbol?_of_isIdentStart hc, hq, hc]

/-! ### Indices -/

lemma push_push (u v : List Char) (t : Bracketed) : (t.push v).push u = t.push (u ++ v) := by
  cases t <;> simp [Bracketed.push]

/-- Within brackets, a text that is passed over as a whole. -/
def Passed (u : List Char) : Prop := ∀ w, bracketed (u ++ w) = (bracketed w).push u

lemma Passed.append {u v : List Char} (hu : Passed u) (hv : Passed v) : Passed (u ++ v) := by
  intro w
  rw [List.append_assoc, hu, hv, push_push]

/-- Neither a quote nor the closing bracket. -/
def isInner (c : Char) : Bool := !isQuote c && c != ']'

lemma passed_inner {u : List Char} (h : ∀ c ∈ u, isInner c = true) : Passed u := by
  intro w
  induction u with
  | nil => cases hb : bracketed w <;> simp [hb, Bracketed.push]
  | cons c u ih =>
    rw [List.forall_mem_cons] at h
    obtain ⟨hq, hc⟩ : isQuote c = false ∧ c ≠ ']' := by simpa [isInner] using h.1
    rw [List.cons_append, bracketed.eq_def]
    dsimp only
    rw [if_neg hc, if_neg (by simp [hq]), ih h.2, push_push]
    rfl

lemma passed_quoted {c : Char} {r : List Char} {q : Quoted} (hc : isQuote c = true)
    (h : Quoted.read c r = some q) : Passed (c :: q.text) := by
  intro w
  have hne : c ≠ ']' := by
    rintro rfl
    cases hc
  have hr : Quoted.read c (q.text ++ w) = some { q with rest := w } := Quoted.read_again h w
  rw [List.cons_append, bracketed.eq_def]
  dsimp only
  rw [if_neg hne, if_pos hc]
  split
  · next hr' => rw [hr] at hr'; cases hr'
  · next q' hr' =>
    rw [hr] at hr'
    cases hr'
    rfl

lemma isInner_of {p : Char → Bool} (hp : ['\'', '"', ']'].any p = false) {c : Char}
    (hc : p c = true) : isInner c = true := by
  rw [List.any_eq_false] at hp
  have hne (d : Char) (hd : d ∈ ['\'', '"', ']']) : c ≠ d := by
    rintro rfl
    exact hp c hd hc
  simp [isInner, isQuote, hne '\'' (by simp), hne '"' (by simp), hne ']' (by simp)]

lemma passed_takeWhile {p : Char → Bool} (hp : ['\'', '"', ']'].any p = false)
    (u : List Char) : Passed (u.takeWhile p) :=
  passed_inner fun c hc => isInner_of hp (List.all_eq_true.1 List.all_takeWhile c hc)

/-- An index is passed over up to its closing bracket. -/
lemma exists_of_closeIndex {k k' : Key} {u r : List Char}
    (h : Segment.closeIndex k u = .ok (k', r)) :
    ∃ t, u = t ++ ']' :: r ∧ Passed t := by
  unfold Segment.closeIndex skipBlanks at h
  split at h
  · cases h
  · next c r' hs =>
    split at h
    · next hc =>
      cases h
      refine ⟨u.takeWhile isBlank, ?_, passed_takeWhile (by decide) u⟩
      rw [← hc, ← hs, List.takeWhile_append_dropWhile]
    · cases h

lemma exists_of_readIndex {k : Key} {u r : List Char} (h : Segment.readIndex u = .ok (k, r)) :
    ∃ t, u = t ++ ']' :: r ∧ Passed t := by
  -- blanks, the key and what closes the index are passed over one after the other
  have key {m v : List Char} {k' : Key} (hs : u.dropWhile isBlank = m ++ v) (hm : Passed m)
      (hv : Segment.closeIndex k' v = .ok (k, r)) : ∃ t, u = t ++ ']' :: r ∧ Passed t := by
    obtain ⟨t, rfl, ht⟩ := exists_of_closeIndex hv
    have hb : Passed (u.takeWhile isBlank) := passed_takeWhile (by decide) u
    refine ⟨u.takeWhile isBlank ++ (m ++ t), ?_, hb.append (hm.append ht)⟩
    rw [List.append_assoc, List.append_assoc, ← hs, List.takeWhile_append_dropWhile]
  have single {c : Char} (hc : isInner c = true) : Passed [c] :=
    passed_inner (List.forall_mem_singleton.2 hc)
  unfold Segment.readIndex skipBlanks at h
  split at h
  · cases h
  · next c r' hs =>
    split at h
    · next hq =>
      split at h
      · next q hread =>
        refine key (m := c :: q.text) ?_ (passed_quoted hq hread) h
        rw [hs, List.cons_append, (Quoted.read_text hread).1]
      · cases h
    · split at h
      · next hd =>
        split at h
        · refine key (m := [c] ++ r'.takeWhile (·.isDigit)) ?_ ?_ h
          · rw [hs, List.append_assoc, List.takeWhile_append_dropWhile]
            rfl
          · have hc : isInner c = true :=
              isInner_of (p := fun c => c.isDigit || c == '-') (by decide) hd
            exact (single hc).append (passed_takeWhile (by decide) r')
        · cases h
      · split at h
        · next hi =>
          refine key (m := [c] ++ r'.takeWhile isIdentPart) ?_ ?_ h
          · rw [hs, List.append_assoc, List.takeWhile_append_dropWhile]
            rfl
          · exact (single (isInner_of (by decide) hi)).append (passed_takeWhile (by decide) r')
        · cases h

/-! ### Paths -/

lemma bracketed_of_readIndex {k : Key} {u r : List Char}
    (h : Segment.readIndex u = .ok (k, r)) (w : List Char) :
    ∃ t, u = t ++ r ∧ bracketed (u ++ w) = .closed t (r ++ w) := by
  obtain ⟨t, rfl, ht⟩ := exists_of_readIndex h
  refine ⟨t ++ [']'], by simp, ?_⟩
  rw [List.append_assoc, List.cons_append, ht, bracketed.eq_def]
  simp [Bracketed.push]

lemma exists_of_readName {u r : List Char} {n : String} (h : Segment.readName u = .ok (n, r)) :
    ∃ c v, u = c :: v ∧ isIdentStart c = true ∧ r = v.dropWhile isIdentPart := by
  unfold Segment.readName at h
  split at h
  · cases h
  · next c v =>
    split at h
    · next hc =>
      cases h
      exact ⟨c, v, rfl, hc, rfl⟩
    · cases h

lemma steps_stop (hdot : '.' ∉ cs.head?) (hopen : '[' ∉ cs.head?) : steps cs = .ok ([], cs) := by
  cases cs with
  | nil => rw [steps.eq_def]
  | cons c cs =>
    rw [steps.eq_def]
    dsimp only
    rw [if_neg fun h => hdot (by simp [h]), if_neg fun h => hopen (by simp [h])]

/-- What follows an operand is no step of it. -/
lemma steps_closed (hc : Closed cs) : steps cs = .ok ([], cs) :=
  steps_stop (fun h => absurd (hc _ h) (by decide)) fun h => absurd (hc _ h) (by decide)

/-- A step to an attribute, before steps that are taken. -/
lemma steps_point {d : Char} {v t r : List Char} (hd : isIdentStart d = true)
    (h : steps (v.dropWhile isIdentPart) = .ok (t, r)) :
    steps ('.' :: d :: v) = .ok ('.' :: d :: v.takeWhile isIdentPart ++ t, r) := by
  rw [steps.eq_def]
  dsimp only
  rw [if_pos rfl, if_pos hd, h]

/-- A step to an index, before steps that are taken. -/
lemma steps_bracket {v t r t' r' : List Char} (hb : bracketed v = .closed t r)
    (h : steps r = .ok (t', r')) : steps ('[' :: v) = .ok ('[' :: t ++ t', r') := by
  rw [steps.eq_def]
  dsimp only
  rw [if_neg (by decide), if_pos rfl]
  split
  · next hb' => rw [hb] at hb'; cases hb'
  · next hb' => rw [hb] at hb'; cases hb'
  · next hb' =>
    rw [hb] at hb'
    cases hb'
    rw [h]

/-- The scan takes the steps of a path as far as the path reads them. -/
lemma steps_of_readSteps {u : List Char} {ss : List Segment}
    (h : Segment.readSteps u = .ok ss) (hc : Closed cs) : steps (u ++ cs) = .ok (u, cs) := by
  fun_induction Segment.readSteps u generalizing ss with
  | case1 => exact steps_closed hc
  | case2 r e he => cases h
  | case3 r n r' hr hlt e he ih => cases h
  | case4 r n r' hr hlt ss' hs ih =>
    have ih := ih hs
    obtain ⟨d, v, rfl, hd, rfl⟩ := exists_of_readName hr
    rw [← dropWhile_closed hc.not_identPart] at ih
    rw [List.cons_append, List.cons_append, steps_point hd ih, takeWhile_closed hc.not_identPart]
    simp only [List.cons_append, List.takeWhile_append_dropWhile]
  | case5 => cases h
  | case6 => cases h
  | case7 r k r' hr hlt ss' hs hne ih =>
    obtain ⟨t, rfl, hb⟩ := bracketed_of_readIndex hr cs
    rw [List.cons_append, steps_bracket hb (ih hs)]
    rfl
  | case8 => cases h

/-- A word is scanned up to where the steps end that are read after its first identifier. -/
lemma Scans.word {c : Char} {v : List Char} {ss : List Segment} {l : Lexeme}
    (hs : isIdentStart c = true) (hv : Segment.readSteps (v.dropWhile isIdentPart) = .ok ss)
    (hl : wordLexeme (String.ofList (c :: v)) = l)
    (hp : v.dropWhile isIdentPart ≠ [] → l = .path (String.ofList (c :: v)))
    (hc : Closed cs) (h : Scans l.endsOperand cs ls) : Scans b (c :: (v ++ cs)) (l :: ls) := by
  have hb : isBlank c = false := by
    by_contra hb
    rw [not_isIdentStart_of_isBlank (by simpa using hb)] at hs
    cases hs
  refine Scans.lexeme (s := ⟨l, c :: v, cs⟩) hb ?_ h
  have hsteps : steps ((v ++ cs).dropWhile isIdentPart) = .ok (v.dropWhile isIdentPart, cs) := by
    rw [dropWhile_closed hc.not_identPart]
    exact steps_of_readSteps hv hc
  have hname : v.takeWhile isIdentPart ++ v.dropWhile isIdentPart = v :=
    List.takeWhile_append_dropWhile
  rw [scanOne_word hs, Token.word, takeWhile_closed hc.not_identPart,
    hsteps]
  cases hd : v.dropWhile isIdentPart with
  | nil =>
    rw [hd, List.append_nil] at hname
    simp only [hname, hl]
  | cons d t =>
    rw [hd] at hname
    simp only [List.cons_append, hname, hp (by simp [hd])]

/-- The text of a path that is no reserved word is scanned as one lexeme. -/
theorem Scans.path {p : Path} (hp : Unreserved p.text) (hc : Closed cs) (h : Scans true cs ls) :
    Scans b (p.text.toList ++ cs) (.path p.text :: ls) := by
  obtain ⟨n, r, ss, hn, hss, -⟩ := Segment.exists_of_readAll p.reads
  obtain ⟨c, v, htext, hstart, rfl⟩ := exists_of_readName hn
  have hof : String.ofList (c :: v) = p.text := by rw [← htext, String.ofList_toList]
  rw [htext, List.cons_append]
  refine .word hstart hss ?_ (fun _ => by rw [hof]) hc h
  rw [hof, wordLexeme_of_unreserved hp]

/-- An identifier without steps is scanned as what it means. -/
lemma Scans.ident {w : List Char} (hw : isIdent w = true) (hc : Closed cs)
    (h : Scans (wordLexeme (String.ofList w)).endsOperand cs ls) :
    Scans b (w ++ cs) (wordLexeme (String.ofList w) :: ls) := by
  cases w with
  | nil => cases hw
  | cons c v =>
    obtain ⟨hstart, hpart⟩ : isIdentStart c = true ∧ v.all isIdentPart = true := by
      simpa [isIdent] using hw
    have hd : v.dropWhile isIdentPart = [] := by
      rw [← List.append_nil v, List.dropWhile_append_of_pos (List.all_eq_true.1 hpart)]
      rfl
    have hr : Segment.readSteps (v.dropWhile isIdentPart) = .ok [] := by
      rw [hd, Segment.readSteps.eq_def]
    exact .word hstart hr rfl (fun hne => absurd hd hne) hc h

theorem Scans.verb (v : Verb) (h : Scans false cs ls) :
    Scans b (v.keyword.toList ++ ' ' :: cs) (.verb v :: ls) := by
  have hall : ∀ v ∈ Verb.all, isIdent v.keyword.toList = true ∧
      wordLexeme v.keyword = .verb v := by
    decide
  obtain ⟨hi, hl⟩ := hall v v.mem_all
  have hs : Scans (wordLexeme (String.ofList v.keyword.toList)).endsOperand (' ' :: cs) ls := by
    rw [String.ofList_toList, hl]
    exact h.space
  have := Scans.ident (b := b) hi (Closed.cons (by simp) cs) hs
  rwa [String.ofList_toList, hl] at this

theorem Scans.bool (t : Bool) (hc : Closed cs) (h : Scans true cs ls) :
    Scans b ((Literal.bool t).text ++ cs) (.literal (.bool t) :: ls) := by
  cases t with
  | true => exact .ident (w := "true".toList) (by decide) hc h
  | false => exact .ident (w := "false".toList) (by decide) hc h

/-- Nothing but a quoted text begins with a quote. -/
lemma scanOne_quote {quote : Char} (hq : isQuote quote = true) (cs : List Char) :
    scanOne b quote cs = match Quoted.read quote cs with
      | some q => .ok ⟨.literal (.str (String.ofList q.value)), quote :: q.text, q.rest⟩
      | none => .error (.unterminatedString, quote :: cs) := by
  have hn : startsNumber b quote cs = false := by obtain rfl | rfl := isQuote_iff.1 hq <;> rfl
  have hsym : symbol? (quote :: cs) = none := by obtain rfl | rfl := isQuote_iff.1 hq <;> rfl
  unfold scanOne
  rw [if_neg (by simp [hn]), hsym]
  exact if_pos hq

theorem Scans.str (s : String) (h : Scans true cs ls) :
    Scans b ((Literal.str s).text ++ cs) (.literal (.str s) :: ls) := by
  let u := Quoted.escapes '"' s.toList ++ '"' :: cs
  have hq : Quoted.read '"' u = some ⟨s.toList, Quoted.escapes '"' s.toList ++ ['"'], cs⟩ :=
    Quoted.read_escapes (by decide) s.toList cs
  have htext : (Literal.str s).text ++ cs = '"' :: u := by
    simp [Literal.text, Quoted.write_eq, u]
  rw [htext]
  refine Scans.lexeme (s := ⟨.literal (.str s), '"' :: (Quoted.escapes '"' s.toList ++ ['"']), cs⟩)
    (by decide) ?_ h
  rw [scanOne_quote (by decide), hq]
  simp only [String.ofList_toList]

end RecordRules.Token
