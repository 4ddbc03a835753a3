import Mathlib.Data.List.Find
import RecordRules.Proofs.Numerals
import RecordRules.Proofs.Words

/-!
Scanning is local. A lexeme ends at the latest before a character that continues none, so it is
scanned in the same way when what follows it is altered from such a character on. Hence what can
follow an operand may be put after the text that a lexeme stands in, and two texts of this kind
scan one after the other.
-/

namespace RecordRules.Token

open Text

variable {x y z r : List Char} {c : Char}

/-- The character continues no lexeme: no word or path, no number, and no symbol of two. -/
def isInert (c : Char) : Bool :=
  !(isIdentPart c || ['.', '[', '+', '-', '=', '&', '|'].contains c)

lemma ne_of_isInert {d : Char} (hc : isInert c = true) (hd : isInert d = false) : c ≠ d := by
  rintro rfl
  rw [hc] at hd
  cases hd

lemma not_isIdentPart_of_isInert (hc : isInert c = true) : isIdentPart c = false := by
  simp only [isInert, Bool.not_eq_true', Bool.or_eq_false_iff] at hc
  exact hc.1

lemma not_isDigit_of_isInert (hc : isInert c = true) : c.isDigit = false := by
  by_contra hd
  have hinert : isInert c = false := Number.not_of_isDigit (by decide) (by simpa using hd)
  exact ne_of_isInert hc hinert rfl

lemma isInert_of_isBlank (hc : isBlank c = true) : isInert c = true := by
  have hall : ∀ n ∈ codes blanks.bounds, isInert (Char.ofNat n) = true := by decide +kernel
  rw [← Char.ofNat_toNat c]
  exact hall c.toNat (mem_codes blanks.bounds rfl hc)

lemma Closed.isInert (hx : Closed x) : ∀ c ∈ x.head?, isInert c = true := by
  have h := hx.head_not (p := fun c => !Token.isInert c) (by decide)
  simpa using h

/-- A text altered from some place on, where nothing begins that continues a lexeme. -/
inductive Altered : List Char → List Char → Prop
  | cut (r : List Char) {y : List Char} (hy : ∀ c ∈ y.head?, isInert c = true) : Altered r y
  | cons (c : Char) {r y : List Char} (h : Altered r y) : Altered (c :: r) (c :: y)

namespace Altered

/-- A text is altered with what stands at its end. -/
lemma of_append {u cs : List Char} (h : Altered r y) (hcs : u ++ r = cs) :
    Altered cs (u ++ y) := by
  subst hcs
  induction u with
  | nil => exact h
  | cons c u ih => exact .cons c ih

lemma append_right (hx : ∀ c ∈ x.head?, isInert c = true) (r : List Char) :
    Altered r (r ++ x) := by
  induction r with
  | nil => exact .cut [] hx
  | cons c r ih => exact .cons c ih

/-- The altered text begins as the other one, or with a character that continues nothing. -/
lemma head_not {p : Char → Bool} (hp : ∀ c, isInert c = true → p c = false)
    (h : Altered r y) (hr : ∀ c ∈ r.head?, p c = false) : ∀ c ∈ y.head?, p c = false := by
  cases h with
  | cut r hy => exact fun c hc => hp c (hy c hc)
  | cons c h => exact hr

lemma dropWhile_head_not {p : Char → Bool} (hp : ∀ c, isInert c = true → p c = false)
    {cs : List Char} (h : Altered (cs.dropWhile p) y) : ∀ c ∈ y.head?, p c = false := by
  refine h.head_not hp fun c hc => ?_
  have hstop := List.head?_dropWhile_not p cs
  rw [Option.mem_def.1 hc] at hstop
  simpa using hstop

end Altered

/-- What was taken is taken again, before a text where it ends. -/
lemma takeWhile_again {p : Char → Bool} (hz : ∀ c ∈ z.head?, p c = false) (v : List Char) :
    (v.takeWhile p ++ z).takeWhile p = v.takeWhile p := by
  rw [takeWhile_closed hz, List.takeWhile_takeWhile]
  simp

lemma dropWhile_again {p : Char → Bool} (hz : ∀ c ∈ z.head?, p c = false) (v : List Char) :
    (v.takeWhile p ++ z).dropWhile p = z := by
  have hnil : (v.takeWhile p).dropWhile p = [] :=
    List.dropWhile_eq_nil_iff.2 fun c hc => List.mem_takeWhile_imp hc
  rw [dropWhile_closed hz, hnil, List.nil_append]

/-! ### Numbers -/

/-- The characters of numbers other than signs. -/
def isNumberPart (c : Char) : Bool := c.isDigit || c == '.' || c == 'e' || c == 'E'

lemma not_isNumberPart_of_isInert (c : Char) (hc : isInert c = true) : isNumberPart c = false := by
  have hpoint : c ≠ '.' := ne_of_isInert hc (by decide)
  have he : c ≠ 'e' := ne_of_isInert hc (by decide)
  have hE : c ≠ 'E' := ne_of_isInert hc (by decide)
  simp [isNumberPart, not_isDigit_of_isInert hc, hpoint, he, hE]

lemma spanNumber_stop (hy : ∀ c ∈ y.head?, isNumberPart c = false) : spanNumber y = ([], y) := by
  cases y with
  | nil => rfl
  | cons c y =>
    have hc : isNumberPart c = false := hy c rfl
    simp only [isNumberPart, Bool.or_eq_false_iff] at hc
    rw [spanNumber.eq_def]
    simp [hc]

/-- A sign that no exponent letter stands before is no part of a number. -/
lemma spanNumber_letter (hpos : ¬(c.isDigit || c == '.') = true)
    (hc : (c == 'e' || c == 'E') = true) (hz : ∀ d ∈ z.head?, (d == '+' || d == '-') = false) :
    spanNumber (c :: z) = (spanNumber z).map (c :: ·) id := by
  rw [spanNumber.eq_def]
  dsimp only
  rw [if_neg hpos, if_pos hc]
  cases z with
  | nil => rfl
  | cons d z =>
    dsimp only
    rw [if_neg (by simp [hz d rfl])]

lemma not_sign_of_isInert (c : Char) (hc : isInert c = true) : (c == '+' || c == '-') = false := by
  have hplus : c ≠ '+' := ne_of_isInert hc (by decide)
  have hminus : c ≠ '-' := ne_of_isInert hc (by decide)
  simp [hplus, hminus]

/-- The rest of a number is spanned again, whatever is altered after it. -/
lemma spanNumber_again {cs : List Char} (h : Altered (spanNumber cs).2 y) :
    spanNumber ((spanNumber cs).1 ++ y) = ((spanNumber cs).1, y) := by
  fun_induction spanNumber cs with
  | case1 => exact spanNumber_stop (h.head_not not_isNumberPart_of_isInert (by simp))
  | case2 c cs hc ih =>
    rw [Prod.map_fst, List.cons_append, spanNumber.eq_def]
    dsimp only
    rw [if_pos hc, ih h]
    rfl
  | case3 c hc he =>
    have hy := h.head_not not_isNumberPart_of_isInert (by simp)
    have hsign := h.head_not not_sign_of_isInert (by simp)
    rw [List.cons_append, List.nil_append, spanNumber_letter hc he hsign, spanNumber_stop hy]
    rfl
  | case4 c hc he s cs hs ih =>
    rw [Prod.map_fst, List.cons_append, List.cons_append, spanNumber.eq_def]
    dsimp only
    rw [if_neg hc, if_pos he, if_pos hs, ih h]
    rfl
  | case5 c hc he s cs hs ih =>
    have hspan : Altered (s :: cs) ((spanNumber (s :: cs)).1 ++ y) :=
      Altered.of_append h (spanNumber_text (s :: cs))
    have hsign : ∀ d ∈ ((spanNumber (s :: cs)).1 ++ y).head?, (d == '+' || d == '-') = false := by
      refine hspan.head_not not_sign_of_isInert fun d hd => ?_
      cases hd
      simpa using hs
    rw [Prod.map_fst, List.cons_append, spanNumber_letter hc he hsign, ih h]
    rfl
  | case6 c cs hc he =>
    refine spanNumber_stop (h.head_not not_isNumberPart_of_isInert fun d hd => ?_)
    cases hd
    simp only [Bool.not_eq_true, Bool.or_eq_false_iff] at hc he
    simp [isNumberPart, hc, he]

lemma number_again {cs : List Char} {s : Scanned} (h : number c cs = .ok s)
    (hy : Altered s.rest y) : number c (s.text.tail ++ y) = .ok { s with rest := y } := by
  unfold number at h
  dsimp only at h
  split at h
  · next l hl =>
    cases h
    have hletters : Altered (spanNumber cs).2 ((spanNumber cs).2.takeWhile isIdentPart ++ y) :=
      hy.of_append List.takeWhile_append_dropWhile
    have hend := hy.dropWhile_head_not fun c => not_isIdentPart_of_isInert
    unfold number
    dsimp only [List.cons_append, List.tail_cons]
    rw [List.append_assoc, spanNumber_again hletters]
    dsimp only
    rw [takeWhile_again hend, dropWhile_again hend, ← List.cons_append, hl]
  · cases h

/-- A number begins where one began. -/
lemma startsNumber_again {b : Bool} {cs : List Char} {s : Scanned} (hn : startsNumber b c cs = true)
    (h : number c cs = .ok s) (y : List Char) : startsNumber b c (s.text.tail ++ y) = true := by
  unfold startsNumber at hn ⊢
  by_cases hc : c.isDigit = true
  · simp [hc]
  cases cs with
  | nil => simp [hc] at hn
  | cons d cs =>
    have hd : d.isDigit = true := by
      simp only [hc, Bool.false_or, Bool.and_eq_true, List.head?_cons, Option.any_some] at hn
      exact hn.2
    have hspan : (spanNumber (d :: cs)).1 = d :: (spanNumber cs).1 := by
      rw [spanNumber.eq_def]
      dsimp only
      rw [if_pos (by simp [hd])]
      rfl
    unfold number at h
    dsimp only at h
    rw [hspan] at h
    split at h
    · cases h
      simpa [hc, hd] using hn
    · cases h

lemma startsNumber_altered {b : Bool} {cs : List Char} (hn : startsNumber b c cs = false)
    (h : Altered cs z) : startsNumber b c z = false := by
  unfold startsNumber at hn ⊢
  cases h with
  | cut r hz =>
    simp only [Bool.or_eq_false_iff] at hn
    have hdigit : z.head?.any (·.isDigit) = false := by
      cases z with
      | nil => rfl
      | cons d z => exact not_isDigit_of_isInert (hz d rfl)
    simp [hn.1, hdigit]
  | cons d h => exact hn

/-! ### Symbols -/

/-- A prefix of characters that continue lexemes lies before the place from which on the text is
altered. -/
lemma isPrefixOf_of_altered {u : List Char} (hu : ∀ d ∈ u, isInert d = false) (h : Altered r y)
    (hp : u.isPrefixOf y = true) : u.isPrefixOf r = true := by
  induction u generalizing r y with
  | nil => simp
  | cons d u ih =>
    rw [List.forall_mem_cons] at hu
    cases h with
    | cut r hy =>
      cases y with
      | nil => simp at hp
      | cons e y =>
        rw [List.isPrefixOf_cons_cons, Bool.and_eq_true, beq_iff_eq] at hp
        exact absurd hp.1.symm (ne_of_isInert (hy e rfl) hu.1)
    | cons e h =>
      rw [List.isPrefixOf_cons_cons, Bool.and_eq_true] at hp ⊢
      exact ⟨hp.1, ih hu.2 h hp.2⟩

/-- The alteration brings no symbol to the front of a text that its first character is in. -/
lemma symbol_of_altered {cs : List Char} (h : Altered cs z) {e : List Char × Lexeme}
    (he : e ∈ symbols) (hp : e.1.isPrefixOf (c :: z) = true) : e.1.isPrefixOf (c :: cs) = true := by
  have hall : ∀ s ∈ symbols, s.1.tail.all (fun d => !isInert d) = true := by decide
  have htail : ∀ d ∈ e.1.tail, isInert d = false := by simpa using hall e he
  cases hsym : e.1 with
  | nil => simp
  | cons d u =>
    rw [hsym] at hp htail
    rw [List.isPrefixOf_cons_cons, Bool.and_eq_true] at hp ⊢
    exact ⟨hp.1, isPrefixOf_of_altered htail h hp.2⟩

lemma symbol?_altered {cs : List Char} (hs : symbol? (c :: cs) = none) (h : Altered cs z) :
    symbol? (c :: z) = none := by
  unfold symbol? at hs ⊢
  rw [Option.map_eq_none_iff, List.find?_eq_none] at hs ⊢
  exact fun e he hp => hs e he (symbol_of_altered h he hp)

lemma symbol?_again {cs : List Char} {s : Scanned} (hs : symbol? (c :: cs) = some s)
    (hy : Altered s.rest y) : symbol? (c :: (s.text.tail ++ y)) = some { s with rest := y } := by
  obtain ⟨htext, hne⟩ := symbol?_text hs
  unfold symbol? at hs
  obtain ⟨e, he, rfl⟩ := Option.map_eq_some_iff.1 hs
  obtain ⟨hp, before, after, hall, hbefore⟩ := List.find?_eq_some_iff_append.1 he
  obtain ⟨sym, l⟩ := e
  cases sym with
  | nil => exact absurd rfl hne
  | cons d u =>
    rw [List.cons_append, List.cons.injEq] at htext
    obtain ⟨rfl, hcs⟩ := htext
    have haltered : Altered cs (u ++ y) := hy.of_append hcs
    have hfind : (symbols.find? fun s => s.1.isPrefixOf (d :: (u ++ y))) = some (d :: u, l) := by
      refine List.find?_eq_some_iff_append.2 ⟨by simp, before, after, hall, fun a ha => ?_⟩
      have hmem : a ∈ symbols := hall ▸ List.mem_append_left _ ha
      have hno := hbefore a ha
      rw [Bool.not_eq_true', Bool.eq_false_iff] at hno ⊢
      exact mt (symbol_of_altered haltered hmem) hno
    unfold symbol?
    rw [List.tail_cons, hfind]
    simp

/-! ### Words and paths -/

/-- What stands in brackets is read the same, whatever follows it. -/
lemma bracketed_again {cs t r : List Char} (h : bracketed cs = .closed t r) (w : List Char) :
    bracketed (t ++ w) = .closed t w := by
  fun_induction bracketed cs generalizing t r with
  | case1 => cases h
  | case2 r =>
    cases h
    rw [List.cons_append, bracketed.eq_def]
    exact if_pos rfl
  | case3 => cases h
  | case4 c cs hc hq q hread hlt ih =>
    obtain ⟨t', h', rfl⟩ := Bracketed.closed_of_push h
    rw [List.append_assoc, passed_quoted hq hread, ih h']
    rfl
  | case5 c cs hc hq ih =>
    obtain ⟨t', h', rfl⟩ := Bracketed.closed_of_push h
    have hinner : isInner c = true := by simpa [isInner, hc] using hq
    have hpass : Passed [c] := passed_inner (List.forall_mem_singleton.2 hinner)
    rw [List.append_assoc, hpass, ih h']
    rfl

lemma steps_inert (hy : ∀ c ∈ y.head?, isInert c = true) : steps y = .ok ([], y) :=
  steps_stop (fun h => ne_of_isInert (hy _ h) (by decide) rfl)
    fun h => ne_of_isInert (hy _ h) (by decide) rfl

/-- A point takes no step without an identifier after it. -/
lemma steps_no_ident (hy : ∀ c ∈ y.head?, isIdentStart c = false) :
    steps ('.' :: y) = .ok ([], '.' :: y) := by
  rw [steps.eq_def]
  dsimp only
  rw [if_pos rfl]
  cases y with
  | nil => rfl
  | cons d y =>
    dsimp only
    rw [if_neg (by simp [hy d rfl])]

lemma not_isIdentStart_of_isInert (c : Char) (hc : isInert c = true) : isIdentStart c = false := by
  by_contra h
  have hpart := isIdentPart_of_isIdentStart (Bool.not_eq_false _ ▸ h)
  rw [not_isIdentPart_of_isInert hc] at hpart
  cases hpart

/-- An identifier ends again where the steps begin that follow it. -/
lemma name_again {cs t r : List Char} (hs : steps (cs.dropWhile isIdentPart) = .ok (t, r))
    (hy : Altered r y) :
    (cs.takeWhile isIdentPart ++ (t ++ y)).takeWhile isIdentPart = cs.takeWhile isIdentPart ∧
      (cs.takeWhile isIdentPart ++ (t ++ y)).dropWhile isIdentPart = t ++ y := by
  have haltered : Altered (cs.dropWhile isIdentPart) (t ++ y) := hy.of_append (steps_text hs)
  have hend := haltered.dropWhile_head_not fun c => not_isIdentPart_of_isInert
  exact ⟨takeWhile_again hend cs, dropWhile_again hend cs⟩

/-- The steps of a path are taken again, whatever is altered after them. -/
lemma steps_again {cs t r : List Char} (h : steps cs = .ok (t, r)) (hy : Altered r y) :
    steps (t ++ y) = .ok (t, y) := by
  fun_induction steps cs generalizing t r with
  | case1 =>
    cases h
    cases hy with
    | cut _ hy => exact steps_inert hy
  | case2 =>
    cases h
    cases hy with
    | cut _ hy => exact steps_inert hy
    | cons _ h => exact steps_no_ident (h.head_not not_isIdentStart_of_isInert (by simp))
  | case3 d v hd e he ih => cases h
  | case4 d v hd t u hs ih =>
    cases h
    obtain ⟨hname, hrest⟩ := name_again hs hy
    have hsteps := ih hs hy
    rw [← hrest] at hsteps
    have hpoint := steps_point hd hsteps
    rw [hname] at hpoint
    simpa using hpoint
  | case5 d v hd =>
    cases h
    cases hy with
    | cut _ hy => exact steps_inert hy
    | cons _ h =>
      refine steps_no_ident (h.head_not not_isIdentStart_of_isInert fun c hc => ?_)
      cases hc
      simpa using hd
  | case6 => cases h
  | case7 => cases h
  | case8 => cases h
  | case9 v t u hb hlt t' u' hs hne ih =>
    cases h
    rw [List.cons_append, List.cons_append, List.append_assoc]
    exact steps_bracket (bracketed_again hb _) (ih hs hy)
  | case10 c r hdot hopen =>
    cases h
    cases hy with
    | cut _ hy => exact steps_inert hy
    | cons _ h => exact steps_stop (by simpa using hdot) (by simpa using hopen)

lemma word_again {cs : List Char} {s : Scanned} (h : word c cs = .ok s) (hy : Altered s.rest y) :
    word c (s.text.tail ++ y) = .ok { s with rest := y } := by
  unfold word at h ⊢
  dsimp only at h ⊢
  split at h
  · cases h
  · next r hs =>
    cases h
    obtain ⟨hname, hrest⟩ := name_again hs hy
    have hsteps := steps_again hs hy
    rw [List.nil_append] at hname hrest hsteps
    rw [List.tail_cons, hname, hrest, hsteps]
  · next t r hne hs =>
    cases h
    obtain ⟨hname, hrest⟩ := name_again hs hy
    rw [List.cons_append, List.tail_cons, List.append_assoc, hname, hrest, steps_again hs hy]
    cases t with
    | nil => exact (hne rfl).elim
    | cons d t => rfl

/-! ### One lexeme -/

/-- What stands after the first character of a lexeme is altered with what follows the lexeme. -/
lemma altered_of_text {cs : List Char} {s : Scanned} (htext : s.text ++ s.rest = c :: cs)
    (hne : s.text ≠ []) (hy : Altered s.rest y) : Altered cs (s.text.tail ++ y) := by
  cases ht : s.text with
  | nil => exact absurd ht hne
  | cons d t =>
    rw [ht, List.cons_append, List.cons.injEq] at htext
    exact hy.of_append htext.2

/-- A lexeme is scanned again, whatever is altered after it. -/
lemma scanOne_again {b : Bool} {cs : List Char} {s : Scanned} (h : scanOne b c cs = .ok s)
    (hy : Altered s.rest y) : scanOne b c (s.text.tail ++ y) = .ok { s with rest := y } := by
  obtain ⟨htext, hne⟩ := scanOne_text h
  have haltered := altered_of_text htext hne hy
  unfold scanOne at h ⊢
  split at h
  · next hn =>
    rw [if_pos (startsNumber_again hn h y)]
    exact number_again h hy
  · next hn =>
    have hn' := startsNumber_altered (Bool.not_eq_true _ ▸ hn) haltered
    rw [if_neg (by simp [hn'])]
    split at h
    · next hs =>
      cases h
      rw [symbol?_again hs hy]
    · next hs =>
      rw [symbol?_altered hs haltered]
      dsimp only
      split at h
      · next hq =>
        rw [if_pos hq]
        split at h
        · next hread =>
          cases h
          rw [List.tail_cons, Quoted.read_again hread]
        · cases h
      · next hq =>
        rw [if_neg hq]
        split at h
        · next hi =>
          rw [if_pos hi]
          exact word_again h hy
        · cases h

/-- A lexeme is scanned in the same way whatever is printed after the text it stands in. -/
lemma scanOne_append (hx : Closed x) {b : Bool} {cs : List Char} {s : Scanned}
    (h : scanOne b c cs = .ok s) :
    scanOne b c (cs ++ x) = .ok { s with rest := s.rest ++ x } := by
  obtain ⟨htext, hne⟩ := scanOne_text h
  have hagain := scanOne_again h (Altered.append_right hx.isInert s.rest)
  cases ht : s.text with
  | nil => exact absurd ht hne
  | cons d t =>
    rw [ht, List.cons_append, List.cons.injEq] at htext
    rw [ht, List.tail_cons, ← List.append_assoc, htext.2] at hagain
    rw [hagain, ← ht]

/-! ### Whole texts -/

/-- The tokens of a text come again before those of what is put after it, which begins where the
text ended. -/
lemma scanFrom_append (hx : Closed x) {offset : ℕ} {b : Bool} {cs : List Char} {ts : List Token}
    (h : scanFrom offset b cs = .ok ts) :
    ∃ b', scanFrom offset b (cs ++ x) = (scanFrom (offset + bytes cs) b' x).map (ts ++ ·) := by
  fun_induction scanFrom offset b cs generalizing ts with
  | case1 offset b =>
    cases h
    refine ⟨b, ?_⟩
    rw [List.nil_append, bytes_nil, Nat.add_zero]
    cases scanFrom offset b x <;> rfl
  | case2 offset b c r hc ih =>
    obtain ⟨b', hb'⟩ := ih h
    refine ⟨b', ?_⟩
    rw [List.cons_append, scanFrom_blank hc, hb', bytes_cons, Nat.add_assoc]
  | case3 => cases h
  | case4 => cases h
  | case5 offset b c r hc s hs hlt us hus ih =>
    cases h
    obtain ⟨b', hb'⟩ := ih hus
    have hend : offset + bytes s.text + bytes s.rest = offset + bytes (c :: r) := by
      rw [← (scanOne_text hs).1, bytes_append, Nat.add_assoc]
    refine ⟨b', ?_⟩
    rw [List.cons_append, scanFrom_lexeme (Bool.not_eq_true _ ▸ hc) (scanOne_append hx hs)]
    dsimp only
    rw [hb', hend]
    cases scanFrom (offset + bytes (c :: r)) b' x <;> rfl

/-- The lexemes of a text do not depend on the place where it begins. -/
lemma Scans.of_scanFrom {offset : ℕ} {b : Bool} {cs : List Char} {ts : List Token}
    (h : scanFrom offset b cs = .ok ts) : Scans b cs (ts.map Token.lexeme) := by
  fun_induction scanFrom offset b cs generalizing ts with
  | case1 =>
    cases h
    exact .nil _
  | case2 offset b c r hc ih => exact .blank hc (ih h)
  | case3 => cases h
  | case4 => cases h
  | case5 offset b c r hc s hs hlt us hus ih =>
    cases h
    exact .lexeme (Bool.not_eq_true _ ▸ hc) hs (ih hus)

/-- Two texts scan one after the other, where the second one begins as what follows an operand. -/
theorem Scans.append (hx : Closed x) {w : List Lexeme} (hw : ∀ b, Scans b x w) {b : Bool}
    {cs : List Char} {ls : List Lexeme} (h : Scans b cs ls) : Scans b (cs ++ x) (ls ++ w) := by
  intro offset
  obtain ⟨ts, hts, rfl⟩ := h offset
  obtain ⟨b', hb'⟩ := scanFrom_append hx hts
  obtain ⟨us, hus, rfl⟩ := hw b' (offset + bytes cs)
  refine ⟨ts ++ us, ?_, List.map_append⟩
  rw [hb', hus]
  rfl

end RecordRules.Token
