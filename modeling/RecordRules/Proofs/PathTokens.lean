import RecordRules.Proofs.Locality

/-!
The tokens of paths, which are scanned by one reader and read by another. Each token stands
in the text where its offset says, and the scan closes every quote in the indices of a path:
the reading of the path finds the same brackets, or a fault before them, and never an open
quote. An open quote is what the scan stops at.
-/

namespace RecordRules.Token

open Text Segment

variable {b : Bool} {cs u v w t r f : List Char} {text : String} {s : Scanned}

/-! ### Where tokens stand -/

/-- Each token is a lexeme that begins at its offset. -/
lemma exists_of_mem_scanFrom {offset : ℕ} {ts : List Token} {t : Token}
    (h : scanFrom offset b cs = .ok ts) (ht : t ∈ ts) :
    ∃ u c v b' s, cs = u ++ c :: v ∧ t.offset = offset + bytes u ∧ scanOne b' c v = .ok s ∧
      s.lexeme = t.lexeme := by
  fun_induction scanFrom offset b cs generalizing ts with
  | case1 =>
    cases h
    cases ht
  | case2 offset b c r hc ih =>
    obtain ⟨u, d, v, b', s, rfl, hoff, hs, hl⟩ := ih h ht
    refine ⟨c :: u, d, v, b', s, rfl, ?_, hs, hl⟩
    rw [hoff, bytes_cons, Nat.add_assoc]
  | case3 => cases h
  | case4 => cases h
  | case5 offset b c r hc s hs hlt us hus ih =>
    cases h
    rcases List.mem_cons.1 ht with rfl | ht
    · exact ⟨[], c, r, b, s, rfl, rfl, hs, rfl⟩
    · obtain ⟨u, d, v, b', s', hrest, hoff, hs', hl⟩ := ih hus ht
      refine ⟨s.text ++ u, d, v, b', s', ?_, ?_, hs', hl⟩
      · rw [List.append_assoc, ← hrest, (scanOne_text hs).1]
      · rw [hoff, bytes_append, Nat.add_assoc]

lemma wordLexeme_path {word : String} (h : wordLexeme word = .path text) : text = word := by
  unfold wordLexeme at h
  split at h
  · cases h
  · split at h
    · cases h
    · split at h
      · cases h
      · exact (Lexeme.path.inj h).symm

lemma word_path {c : Char} (h : word c v = .ok s) (hl : s.lexeme = .path text) :
    ∃ t r, steps (v.dropWhile isIdentPart) = .ok (t, r) ∧
      text.toList = c :: v.takeWhile isIdentPart ++ t ∧ s.text = text.toList := by
  unfold word at h
  dsimp only at h
  split at h
  · cases h
  · next r hs =>
    cases h
    rw [wordLexeme_path hl, String.toList_ofList]
    exact ⟨[], r, hs, (List.append_nil _).symm, rfl⟩
  · next t r hne hs =>
    cases h
    rw [← Lexeme.path.inj hl, String.toList_ofList]
    exact ⟨t, r, hs, rfl, rfl⟩

/-- The text of a path comes from the scan of a word. -/
lemma scanOne_path {c : Char} (h : scanOne b c v = .ok s) (hl : s.lexeme = .path text) :
    isIdentStart c = true ∧ word c v = .ok s := by
  unfold scanOne at h
  split at h
  · unfold number at h
    dsimp only at h
    split at h
    · cases h
      cases hl
    · cases h
  · split at h
    · next hs =>
      cases h
      obtain ⟨e, he, rfl⟩ := Option.map_eq_some_iff.1 hs
      have hall : ∀ e ∈ symbols, ∀ text, e.2 ≠ .path text := by
        simp [symbols]
      exact absurd hl (hall e (List.mem_of_find?_eq_some he) text)
    · split at h
      · split at h
        · cases h
          cases hl
        · cases h
      · split at h
        · next hi => exact ⟨hi, h⟩
        · cases h

/-! ### Open quotes -/

lemma closeIndex_error {k : Key} {e : PathFault × List Char} (h : closeIndex k cs = .error e) :
    e.1 = .invalid := by
  unfold closeIndex at h
  split at h
  · cases h
    rfl
  · split at h
    · cases h
    · cases h
      rfl

/-- A quote that an index leaves open is left open by the brackets too. -/
lemma bracketed_of_openQuote (h : readIndex cs = .error (.openQuote, f)) :
    bracketed cs = .openQuote f := by
  have close {k : Key} {v : List Char} : closeIndex k v ≠ .error (.openQuote, f) :=
    fun hc => nomatch closeIndex_error hc
  unfold readIndex skipBlanks at h
  split at h
  · cases h
  · next c r hs =>
    split at h
    · next hq =>
      split at h
      · exact absurd h close
      · next hread =>
        cases h
        have hne : c ≠ ']' := by
          rintro rfl
          cases hq
        have hpass : Passed (cs.takeWhile isBlank) := passed_takeWhile (by decide) cs
        rw [← List.takeWhile_append_dropWhile (p := isBlank) (l := cs), hpass, hs,
          bracketed.eq_def]
        dsimp only
        rw [if_neg hne, if_pos hq]
        split
        · rfl
        · next hread' =>
          rw [hread] at hread'
          cases hread'
    · split at h
      · split at h
        · exact absurd h close
        · cases h
      · split at h
        · exact absurd h close
        · cases h

lemma readAll_eq {n : String} (h : readName u = .ok (n, r)) :
    readAll u = (readSteps r).map (.attr n :: ·) := by
  unfold readAll
  rw [h]
  dsimp only
  cases readSteps r <;> rfl

lemma readSteps_point {n : String} (h : readName u = .ok (n, r)) :
    readSteps ('.' :: u) = (readSteps r).map (.attr n :: ·) := by
  rw [readSteps.eq_def]
  dsimp only
  rw [if_pos rfl]
  split
  · next h' => rw [h] at h'; cases h'
  · next h' =>
    rw [h] at h'
    cases h'
    cases readSteps r <;> rfl

lemma readSteps_point_error {e : PathFault × List Char} (h : readName u = .error e) :
    readSteps ('.' :: u) = .error e := by
  rw [readSteps.eq_def]
  dsimp only
  rw [if_pos rfl]
  split
  · next h' => rw [h] at h'; cases h'; rfl
  · next h' => rw [h] at h'; cases h'

lemma readSteps_bracket {k : Key} (h : readIndex u = .ok (k, r)) :
    readSteps ('[' :: u) = (readSteps r).map (.index k :: ·) := by
  rw [readSteps.eq_def]
  dsimp only
  rw [if_neg (by decide), if_pos rfl]
  split
  · next h' => rw [h] at h'; cases h'
  · next h' =>
    rw [h] at h'
    cases h'
    cases readSteps r <;> rfl

lemma readSteps_bracket_error {e : PathFault × List Char} (h : readIndex u = .error e) :
    readSteps ('[' :: u) = .error e := by
  rw [readSteps.eq_def]
  dsimp only
  rw [if_neg (by decide), if_pos rfl]
  split
  · next h' => rw [h] at h'; cases h'; rfl
  · next h' => rw [h] at h'; cases h'

lemma map_ne_error {α β ε : Type} {g : α → β} {x : Except ε α} {e : ε} (h : x ≠ .error e) :
    x.map g ≠ .error e := by
  cases x with
  | error e' => exact fun hc => h (congrArg _ (Except.error.inj hc))
  | ok a => nofun

lemma readName_ident {d : Char} (hd : isIdentStart d = true)
    (ht : (v.takeWhile isIdentPart ++ t).dropWhile isIdentPart = t) :
    ∃ n, readName (d :: (v.takeWhile isIdentPart ++ t)) = .ok (n, t) := by
  unfold readName
  dsimp only
  rw [if_pos hd, ht]
  exact ⟨_, rfl⟩

/-- What the steps take begins no later than the identifier before it ends. -/
lemma dropWhile_steps (h : t ++ r = v.dropWhile isIdentPart) :
    (v.takeWhile isIdentPart ++ t).dropWhile isIdentPart = t := by
  have hall : ∀ c ∈ v.takeWhile isIdentPart, isIdentPart c = true :=
    List.all_eq_true.1 List.all_takeWhile
  rw [List.dropWhile_append_of_pos hall]
  cases t with
  | nil => rfl
  | cons c t =>
    have hhead := List.head?_dropWhile_not isIdentPart v
    rw [← h] at hhead
    exact List.dropWhile_cons_of_neg (by simpa using hhead)

/-- The steps that the scan takes leave no quote open when they are read. -/
lemma readSteps_of_steps (h : steps w = .ok (t, r)) (f : List Char) :
    readSteps t ≠ .error (.openQuote, f) := by
  have nil : readSteps [] ≠ .error (.openQuote, f) := by
    rw [readSteps.eq_def]
    nofun
  fun_induction steps w generalizing t r with
  | case1 => cases h; exact nil
  | case2 => cases h; exact nil
  | case3 => cases h
  | case4 d v hd t' r' hs ih =>
    cases h
    obtain ⟨n, hn⟩ := readName_ident hd (dropWhile_steps (steps_text hs))
    rw [List.cons_append, List.cons_append, readSteps_point hn]
    exact map_ne_error (ih hs)
  | case5 => cases h; exact nil
  | case6 => cases h
  | case7 => cases h
  | case8 => cases h
  | case9 v t₁ u₁ hb hlt t₂ u₂ hs hne ih =>
    cases h
    have hclosed : bracketed (t₁ ++ t₂) = .closed t₁ t₂ := bracketed_again hb t₂
    rw [List.cons_append]
    cases hi : readIndex (t₁ ++ t₂) with
    | error e =>
      rw [readSteps_bracket_error hi]
      intro he
      cases he
      rw [bracketed_of_openQuote hi] at hclosed
      cases hclosed
    | ok kr =>
      obtain ⟨k, r'⟩ := kr
      obtain ⟨t', -, ht'⟩ := bracketed_of_readIndex hi []
      rw [List.append_nil, List.append_nil, hclosed] at ht'
      cases ht'
      rw [readSteps_bracket hi]
      exact map_ne_error (ih hs)
  | case10 => cases h; exact nil

/-- The text of a path stands at the offset of its token, and is read without an open
quote. -/
theorem path_of_mem_scan {source : String} {ts : List Token} {t : Token}
    (h : scan source = .ok ts) (ht : t ∈ ts) (hl : t.lexeme = .path text) :
    (∃ u v, source.toList = u ++ (text.toList ++ v) ∧ t.offset = bytes u) ∧
      ∀ f, readAll text.toList ≠ .error (.openQuote, f) := by
  obtain ⟨u, c, v, b, s, hsrc, hoff, hs, hsl⟩ := exists_of_mem_scanFrom (scanFrom_of_scan h) ht
  obtain ⟨hc, hw⟩ := scanOne_path hs (hsl.trans hl)
  obtain ⟨t, r, hst, htext, hst'⟩ := word_path hw (hsl.trans hl)
  refine ⟨⟨u, s.rest, ?_, by rw [hoff, Nat.zero_add]⟩, fun f => ?_⟩
  · rw [hsrc, ← hst', (scanOne_text hs).1]
  · obtain ⟨n, hn⟩ := readName_ident hc (dropWhile_steps (steps_text hst))
    rw [htext, List.cons_append, readAll_eq hn]
    exact map_ne_error (readSteps_of_steps hst f)

lemma exists_of_read_error {fault : PathFault} {d : ℕ} (h : Path.read text = .error (fault, d)) :
    ∃ r, readAll text.toList = .error (fault, r) ∧ d = bytes text.toList - bytes r := by
  unfold Path.read at h
  split at h
  · cases h
  · next fault' r hr =>
    cases h
    exact ⟨r, hr, rfl⟩

end RecordRules.Token
