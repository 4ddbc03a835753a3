import RecordRules.Path.Resolve
import RecordRules.Proofs.PathTokens

/-!
The grammar of paths. A path is an identifier and steps, a step a point and an identifier or a
key in brackets with blanks around it, a key a quoted text, an integer of 64 bits or an identifier.
Reading and the grammar agree: a text is read as a path where it has a derivation, and as the
segments that the derivation gives it. Every list of segments that starts with an attribute, and
whose names are identifiers, has such a text.
-/

namespace RecordRules.PathGrammar

open Text Segment Number

/-! ### The grammar -/

/-- A text after its opening quote, up to the closing one, and what it stands for. -/
inductive QuotedText (quote : Char) : List Char → List Char → Prop
  | close : QuotedText quote [quote] []
  | escape {c : Char} {t v : List Char} (hc : isEscapable c = true) (h : QuotedText quote t v) :
      QuotedText quote ('\\' :: c :: t) (c :: v)
  | backslash {c : Char} {t v : List Char} (hc : isEscapable c = false)
      (h : QuotedText quote (c :: t) v) : QuotedText quote ('\\' :: c :: t) ('\\' :: v)
  | other {c : Char} {t v : List Char} (hq : c ≠ quote) (hc : c ≠ '\\')
      (h : QuotedText quote t v) : QuotedText quote (c :: t) (c :: v)

inductive KeyText : List Char → Key → Prop
  | quoted {quote : Char} {t v : List Char} (hq : isQuote quote = true)
      (h : QuotedText quote t v) : KeyText (quote :: t) (.str (String.ofList v))
  | natural {ds : List Char} {i : Int64} (hd : AreDigits ds) (hi : i.toInt = ofDigits ds) :
      KeyText ds (.int i)
  | negative {ds : List Char} {i : Int64} (hd : AreDigits ds) (hi : i.toInt = -ofDigits ds) :
      KeyText ('-' :: ds) (.int i)
  | ident {w : List Char} (hw : isIdent w = true) : KeyText w (.str (String.ofList w))

def Blanks (u : List Char) : Prop := ∀ c ∈ u, isBlank c = true

inductive StepText : List Char → Segment → Prop
  | point {w : List Char} (hw : isIdent w = true) :
      StepText ('.' :: w) (.attr (String.ofList w))
  | index {u t v : List Char} {k : Key} (hu : Blanks u) (hk : KeyText t k) (hv : Blanks v) :
      StepText ('[' :: (u ++ (t ++ (v ++ [']'])))) (.index k)

inductive StepsText : List Char → List Segment → Prop
  | nil : StepsText [] []
  | cons {t u : List Char} {s : Segment} {ss : List Segment} (h : StepText t s)
      (hs : StepsText u ss) : StepsText (t ++ u) (s :: ss)

inductive PathText : List Char → List Segment → Prop
  | mk {w t : List Char} {ss : List Segment} (hw : isIdent w = true) (h : StepsText t ss) :
      PathText (w ++ t) (.attr (String.ofList w) :: ss)

variable {cs r t u v w : List Char} {k : Key} {ss : List Segment}

/-! ### Quoted texts -/

lemma backslash_ne {quote : Char} (hq : isQuote quote = true) : '\\' ≠ quote := by
  rintro rfl
  cases hq

lemma read_of_quotedText {quote : Char} (hq : isQuote quote = true) (h : QuotedText quote t v)
    (r : List Char) : Quoted.read quote (t ++ r) = some ⟨v, t, r⟩ := by
  have hs := backslash_ne hq
  induction h with
  | close => exact Quoted.read_quote quote r
  | escape hc h ih => rw [List.cons_append, List.cons_append, Quoted.read_escape hs hc, ih]; rfl
  | backslash hc h ih =>
    rw [List.cons_append] at ih
    rw [List.cons_append, List.cons_append, Quoted.read_backslash hs (by simp [hc]), ih]
    rfl
  | other hq hc h ih => rw [List.cons_append, Quoted.read_other hq hc, ih]; rfl

lemma quotedText_of_read {quote : Char} {q : Quoted} (h : Quoted.read quote cs = some q) :
    QuotedText quote q.text q.value := by
  fun_induction Quoted.read quote cs generalizing q with
  | case1 => cases h
  | case2 cs => cases h; exact .close
  | case3 e cs he hq ih =>
    obtain ⟨p, hp, rfl⟩ := Option.map_eq_some_iff.1 h
    exact .escape he (ih hp)
  | case4 e cs he hq ih =>
    obtain ⟨p, hp, rfl⟩ := Option.map_eq_some_iff.1 h
    -- the character after the backslash begins the rest of the text
    obtain ⟨htext, hne⟩ := Quoted.read_text hp
    have hbody := ih hp
    obtain ⟨d, t, ht⟩ := List.exists_cons_of_ne_nil hne
    rw [ht, List.cons_append] at htext
    obtain rfl := (List.cons.inj htext).1
    rw [ht] at hbody
    simp only [Quoted.push, ht, List.cons_append, List.nil_append]
    exact .backslash (by simpa using he) hbody
  | case5 c cs hesc hq ih =>
    obtain ⟨p, hp, rfl⟩ := Option.map_eq_some_iff.1 h
    have hc : c ≠ '\\' := by
      rintro rfl
      cases cs with
      | nil => cases hp
      | cons e cs => exact hesc e cs rfl rfl
    exact .other hq hc (ih hp)

lemma quotedText_escapes {quote : Char} (hq : isQuote quote = true) (value : List Char) :
    QuotedText quote (Quoted.escapes quote value ++ [quote]) value :=
  quotedText_of_read (Quoted.read_escapes hq value [])

/-! ### Integers -/

lemma natural?_eq_some {ds : List Char} {n : ℕ} :
    natural? ds = some n ↔ AreDigits ds ∧ ofDigits ds = n := by
  unfold natural?
  split
  · next h =>
    have hd : AreDigits ds := ⟨h.1, List.all_eq_true.1 h.2⟩
    simp [hd]
  · next h =>
    have hd : ¬AreDigits ds := fun hd => h ⟨hd.1, List.all_eq_true.2 hd.2⟩
    simp [hd]

lemma readInt64?_eq_some {i : Int64} : readInt64? cs = some i ↔
    (AreDigits cs ∧ i.toInt = ofDigits cs) ∨
      ∃ ds, cs = '-' :: ds ∧ AreDigits ds ∧ i.toInt = -ofDigits ds := by
  have minus {ds : List Char} : ¬AreDigits ('-' :: ds) := fun h =>
    nomatch h.2 '-' List.mem_cons_self
  unfold readInt64?
  split
  · next ds =>
    simp [Option.bind_eq_some_iff, natural?_eq_some, int64?_eq_some, minus, and_assoc]
  · next hcs =>
    have hne : ¬∃ ds, cs = '-' :: ds ∧ AreDigits ds ∧ i.toInt = -ofDigits ds :=
      fun ⟨ds, h, _⟩ => hcs ds h
    simp [Option.bind_eq_some_iff, natural?_eq_some, int64?_eq_some, hne, and_assoc]

/-! ### What follows a key or a name -/

lemma takeWhile_span {p : Char → Bool} (hu : ∀ c ∈ u, p c = true)
    (hr : ∀ c ∈ r.head?, p c = false) :
    (u ++ r).takeWhile p = u ∧ (u ++ r).dropWhile p = r := by
  constructor
  · rw [Token.takeWhile_closed hr, List.takeWhile_eq_self_iff.2 hu]
  · rw [Token.dropWhile_closed hr, List.dropWhile_eq_nil_iff.2 hu, List.nil_append]

lemma blanks_takeWhile (u : List Char) : Blanks (u.takeWhile isBlank) :=
  fun _ hc => List.mem_takeWhile_imp hc

lemma skipBlanks_of_blanks (hu : Blanks u) (hr : ∀ c ∈ r.head?, isBlank c = false) :
    skipBlanks (u ++ r) = r := (takeWhile_span hu hr).2

lemma closeIndex_iff {k' : Key} :
    closeIndex k cs = .ok (k', r) ↔ k' = k ∧ ∃ v, Blanks v ∧ cs = v ++ ']' :: r := by
  constructor
  · intro h
    unfold closeIndex skipBlanks at h
    split at h
    · cases h
    · next c r' hs =>
      split at h
      · next hc =>
        cases h
        refine ⟨rfl, cs.takeWhile isBlank, blanks_takeWhile cs, ?_⟩
        rw [← hc, ← hs, List.takeWhile_append_dropWhile]
      · cases h
  · rintro ⟨rfl, v, hv, rfl⟩
    unfold closeIndex
    rw [skipBlanks_of_blanks hv (by simp; decide)]
    exact if_pos rfl

/-- After a key stands what continues none. -/
lemma isInert_close (hv : Blanks v) (r : List Char) :
    ∀ c ∈ (v ++ ']' :: r).head?, Token.isInert c = true := by
  cases v with
  | nil => simp; decide
  | cons c v =>
    rw [List.cons_append]
    intro d hd
    cases hd
    exact Token.isInert_of_isBlank (hv _ List.mem_cons_self)

/-! ### Names -/

lemma isIdent_iff : isIdent w = true ↔
    ∃ c u, w = c :: u ∧ isIdentStart c = true ∧ ∀ d ∈ u, isIdentPart d = true := by
  cases w with
  | nil => simp [isIdent]
  | cons c u => simp [isIdent]

lemma readName_iff {n : String} : readName cs = .ok (n, r) ↔
    ∃ w, cs = w ++ r ∧ isIdent w = true ∧ n = String.ofList w ∧
      ∀ c ∈ r.head?, isIdentPart c = false := by
  constructor
  · intro h
    unfold readName at h
    split at h
    · cases h
    · next c cs =>
      split at h
      · next hc =>
        cases h
        refine ⟨c :: cs.takeWhile isIdentPart, ?_, ?_, rfl, ?_⟩
        · rw [List.cons_append, List.takeWhile_append_dropWhile]
        · exact isIdent_iff.2 ⟨c, _, rfl, hc, fun d hd => List.mem_takeWhile_imp hd⟩
        · have hhead := List.head?_dropWhile_not isIdentPart cs
          intro d hd
          rw [Option.mem_def.1 hd] at hhead
          simpa using hhead
      · cases h
  · rintro ⟨w, rfl, hw, rfl, hr⟩
    obtain ⟨c, u, rfl, hc, hu⟩ := isIdent_iff.1 hw
    obtain ⟨ht, hd⟩ := takeWhile_span hu hr
    rw [List.cons_append, readName, if_pos hc, ht, hd]

/-! ### Keys -/

/-- No key begins with a blank. -/
lemma KeyText.head (h : KeyText t k) (r : List Char) :
    ∀ c ∈ (t ++ r).head?, isBlank c = false := by
  have first {c : Char} (u : List Char) (hc : isBlank c = false) :
      ∀ d ∈ (c :: u).head?, isBlank d = false := by
    intro d hd
    cases hd
    exact hc
  cases h with
  | quoted hq h =>
    obtain rfl | rfl := isQuote_iff.1 hq
    · exact first _ (by decide)
    · exact first _ (by decide)
  | natural hd hi =>
    obtain ⟨c, ds, rfl⟩ := List.exists_cons_of_ne_nil hd.1
    exact first _ (Token.not_isBlank_of_isDigit (hd.2 c List.mem_cons_self))
  | negative hd hi => exact first _ (by decide)
  | ident hw =>
    obtain ⟨c, u, rfl, hc, hu⟩ := isIdent_iff.1 hw
    refine first _ (eq_false_of_ne_true fun hb => ?_)
    rw [Token.not_isIdentStart_of_isBlank hb] at hc
    cases hc

/-- A key is read up to where it ends. -/
lemma readIndex_of_keyText (hu : Blanks u) (ht : KeyText t k)
    (hw : ∀ c ∈ w.head?, Token.isInert c = true) :
    readIndex (u ++ (t ++ w)) = closeIndex k w := by
  unfold readIndex
  rw [skipBlanks_of_blanks hu (ht.head w)]
  have hdigit : ∀ c ∈ w.head?, c.isDigit = false :=
    fun c hc => Token.not_isDigit_of_isInert (hw c hc)
  have hpart : ∀ c ∈ w.head?, isIdentPart c = false :=
    fun c hc => Token.not_isIdentPart_of_isInert (hw c hc)
  cases ht with
  | quoted hq h =>
    rw [List.cons_append]
    dsimp only
    rw [if_pos hq, read_of_quotedText hq h]
  | @natural ds i hd hi =>
    obtain ⟨c, ds, rfl⟩ := List.exists_cons_of_ne_nil hd.1
    have hall := List.forall_mem_cons.1 hd.2
    have hq : isQuote c = false := Number.not_of_isDigit (by decide) hall.1
    have hread : readInt64? (c :: ds) = some i := readInt64?_eq_some.2 (.inl ⟨hd, hi⟩)
    obtain ⟨htake, hdrop⟩ := takeWhile_span hall.2 hdigit
    rw [List.cons_append]
    dsimp only
    rw [if_neg (by simp [hq]), if_pos (by simp [hall.1]), htake, hdrop, hread]
  | @negative ds i hd hi =>
    have hread : readInt64? ('-' :: ds) = some i :=
      readInt64?_eq_some.2 (.inr ⟨ds, rfl, hd, hi⟩)
    obtain ⟨htake, hdrop⟩ := takeWhile_span hd.2 hdigit
    rw [List.cons_append]
    dsimp only
    rw [if_neg (by decide), if_pos (by decide), htake, hdrop, hread]
  | ident hident =>
    obtain ⟨c, v, rfl, hc, hv⟩ := isIdent_iff.1 hident
    have hne (d : Char) (hd : isIdentStart d = false) : c ≠ d := Token.ne_of_isIdentStart hc hd
    have hq : ¬isQuote c = true := by
      rw [isQuote_iff]
      exact not_or.2 ⟨hne _ (by decide), hne _ (by decide)⟩
    have hdigit : c.isDigit = false := by
      by_contra hd
      rw [Token.not_isIdentStart_of_isDigit (by simpa using hd)] at hc
      cases hc
    obtain ⟨htake, hdrop⟩ := takeWhile_span hv hpart
    rw [List.cons_append]
    dsimp only
    rw [if_neg hq, if_neg (by simp [hdigit, hne '-' (by decide)]), if_pos hc, htake, hdrop]

lemma keyText_of_readIndex (h : readIndex cs = .ok (k, r)) :
    ∃ u t w, cs = u ++ (t ++ w) ∧ Blanks u ∧ KeyText t k ∧ closeIndex k w = .ok (k, r) := by
  have found {t w : List Char} {k' : Key} (hs : cs.dropWhile isBlank = t ++ w)
      (ht : KeyText t k') (hw : closeIndex k' w = .ok (k, r)) :
      ∃ u t w, cs = u ++ (t ++ w) ∧ Blanks u ∧ KeyText t k ∧ closeIndex k w = .ok (k, r) := by
    obtain rfl := (closeIndex_iff.1 hw).1
    refine ⟨cs.takeWhile isBlank, t, w, ?_, blanks_takeWhile cs, ht, hw⟩
    rw [← hs, List.takeWhile_append_dropWhile]
  unfold readIndex skipBlanks at h
  split at h
  · cases h
  · next c r' hs =>
    split at h
    · next hq =>
      split at h
      · next q hread =>
        refine found ?_ (.quoted hq (quotedText_of_read hread)) h
        rw [hs, List.cons_append, (Quoted.read_text hread).1]
      · cases h
    · split at h
      · split at h
        · next i hread =>
          have hrest : c :: r' =
              (c :: r'.takeWhile (·.isDigit)) ++ r'.dropWhile (·.isDigit) := by
            rw [List.cons_append, List.takeWhile_append_dropWhile]
          obtain ⟨hd, hi⟩ | ⟨ds, hds, hd, hi⟩ := readInt64?_eq_some.1 hread
          · exact found (hs.trans hrest) (.natural hd hi) h
          · rw [hds] at hrest
            exact found (hs.trans hrest) (.negative hd hi) h
        · cases h
      · split at h
        · next hc =>
          refine found ?_ (.ident (isIdent_iff.2 ⟨c, _, rfl, hc, fun d hd =>
            List.mem_takeWhile_imp hd⟩)) h
          rw [hs, List.cons_append, List.takeWhile_append_dropWhile]
        · cases h

lemma readIndex_iff : readIndex cs = .ok (k, r) ↔ ∃ u t v, cs = u ++ (t ++ (v ++ ']' :: r)) ∧
    Blanks u ∧ KeyText t k ∧ Blanks v := by
  constructor
  · intro h
    obtain ⟨u, t, w, rfl, hu, ht, hw⟩ := keyText_of_readIndex h
    obtain ⟨-, v, hv, rfl⟩ := closeIndex_iff.1 hw
    exact ⟨u, t, v, rfl, hu, ht, hv⟩
  · rintro ⟨u, t, v, rfl, hu, ht, hv⟩
    rw [readIndex_of_keyText hu ht (isInert_close hv r)]
    exact closeIndex_iff.2 ⟨rfl, v, hv, rfl⟩

/-! ### Paths -/

/-- Steps continue no name. -/
lemma StepsText.head (h : StepsText t ss) : ∀ c ∈ t.head?, isIdentPart c = false := by
  cases h with
  | nil => simp
  | cons h hs =>
    cases h with
    | point hw => simp; decide
    | index hu hk hv => simp; decide

lemma readSteps_of_stepsText (h : StepsText t ss) : readSteps t = .ok ss := by
  induction h with
  | nil => rw [readSteps.eq_def]
  | @cons _ rest _ ss h hs ih =>
    cases h with
    | point hw =>
      have hread : readName (_ ++ rest) = .ok (_, rest) :=
        readName_iff.2 ⟨_, rfl, hw, rfl, hs.head⟩
      rw [List.cons_append, Token.readSteps_point hread, ih]
      rfl
    | @index u t v k hu hk hv =>
      have hread : readIndex (u ++ (t ++ (v ++ ']' :: rest))) = .ok (k, rest) :=
        readIndex_iff.2 ⟨u, t, v, rfl, hu, hk, hv⟩
      have htext : '[' :: (u ++ (t ++ (v ++ [']']))) ++ rest =
          '[' :: (u ++ (t ++ (v ++ ']' :: rest))) := by simp
      rw [htext, Token.readSteps_bracket hread, ih]
      rfl

lemma stepsText_of_readSteps (h : readSteps cs = .ok ss) : StepsText cs ss := by
  fun_induction readSteps cs generalizing ss with
  | case1 => cases h; exact .nil
  | case2 => cases h
  | case3 => cases h
  | case4 r n r' hr hlt ss' hs ih =>
    cases h
    obtain ⟨w, rfl, hw, rfl, -⟩ := readName_iff.1 hr
    exact .cons (.point hw) (ih hs)
  | case5 => cases h
  | case6 => cases h
  | case7 r k r' hr hlt ss' hs hne ih =>
    cases h
    obtain ⟨u, t, v, rfl, hu, ht, hv⟩ := readIndex_iff.1 hr
    have hsteps := StepsText.cons (.index hu ht hv) (ih hs)
    simpa using hsteps
  | case8 => cases h

lemma readAll_iff : readAll cs = .ok ss ↔ PathText cs ss := by
  constructor
  · intro h
    obtain ⟨n, r, steps, hn, hs, rfl⟩ := exists_of_readAll h
    obtain ⟨w, rfl, hw, rfl, -⟩ := readName_iff.1 hn
    exact .mk hw (stepsText_of_readSteps hs)
  · rintro ⟨hw, h⟩
    rw [Token.readAll_eq (readName_iff.2 ⟨_, rfl, hw, rfl, h.head⟩), readSteps_of_stepsText h]
    rfl

/-! ### Every list of segments -/

/-- A segment after the first one as it is written, with the quotes of a key. -/
def written (quote : Char) : Segment → List Char
  | .attr name => '.' :: name.toList
  | .index (.int i) => '[' :: (intDigits i.toInt ++ [']'])
  | .index (.str key) => '[' :: (Quoted.write quote key.toList ++ [']'])

/-- A name that a segment has is an identifier. -/
def Named (s : Segment) : Prop := ∀ name, s = .attr name → isIdent name.toList = true

lemma keyText_intDigits (i : Int64) : KeyText (intDigits i.toInt) (.int i) := by
  cases hi : i.toInt with
  | ofNat n =>
    refine .natural (areDigits_digits n) ?_
    rw [hi, intDigits, ofDigits_digits]
    rfl
  | negSucc n =>
    refine .negative (areDigits_digits (n + 1)) ?_
    rw [hi, ofDigits_digits]
    rfl

lemma keyText_write {quote : Char} (hq : isQuote quote = true) (key : String) :
    KeyText (Quoted.write quote key.toList) (.str key) := by
  have h := KeyText.quoted hq (quotedText_escapes hq key.toList)
  rwa [String.ofList_toList] at h

lemma stepText_written {quote : Char} (hq : isQuote quote = true) {s : Segment} (hs : Named s) :
    StepText (written quote s) s := by
  have bare {t : List Char} {k : Key} (ht : KeyText t k) : StepText ('[' :: (t ++ [']']))
      (.index k) :=
    .index (u := []) (v := []) nofun ht nofun
  cases s with
  | attr name =>
    have h := StepText.point (hs name rfl)
    rwa [String.ofList_toList] at h
  | index key =>
    cases key with
    | int i => exact bare (keyText_intDigits i)
    | str key => exact bare (keyText_write hq key)

lemma stepsText_written {steps : List (Char × Segment)}
    (h : ∀ x ∈ steps, isQuote x.1 = true ∧ Named x.2) :
    StepsText (steps.flatMap fun x => written x.1 x.2) (steps.map Prod.snd) := by
  induction steps with
  | nil => exact .nil
  | cons x steps ih =>
    rw [List.forall_mem_cons] at h
    exact .cons (stepText_written h.1.1 h.1.2) (ih h.2)

lemma parse_eq_ok {text : String} {p : Path} : Path.parse text = .ok p ↔ p.text = text := by
  constructor
  · intro h
    unfold Path.parse at h
    split at h
    · next q hq =>
      cases h
      exact Path.text_of_read hq
    · cases h
  · rintro rfl
    unfold Path.parse
    rw [p.read_text]

lemma parse_iff {text : String} :
    (∃ p, Path.parse text = .ok p ∧ p.segments = ss) ↔ PathText text.toList ss := by
  rw [← readAll_iff]
  constructor
  · rintro ⟨p, hp, rfl⟩
    rw [← parse_eq_ok.1 hp]
    exact p.reads
  · intro h
    exact ⟨⟨text, ss, h⟩, parse_eq_ok.2 rfl, rfl⟩

/-- **The language of paths**: a list of segments that begins with an attribute and whose names
are identifiers is read from the text it is written in, whichever quotes its keys have. A text is
read as a path exactly where the grammar derives it, and as the segments of the derivation. -/
theorem parse_iff_derives :
    (∀ (name : String) (steps : List (Char × Segment)), isIdent name.toList = true →
      (∀ x ∈ steps, isQuote x.1 = true ∧ Named x.2) →
      ∃ p, Path.parse
          (String.ofList (name.toList ++ steps.flatMap fun x => written x.1 x.2)) = .ok p ∧
        p.segments = .attr name :: steps.map Prod.snd) ∧
    ∀ (text : String) (ss : List Segment),
      (∃ p, Path.parse text = .ok p ∧ p.segments = ss) ↔ PathText text.toList ss := by
  refine ⟨fun name steps hname hsteps => ?_, fun text ss => parse_iff⟩
  rw [parse_iff, String.toList_ofList]
  have h := PathText.mk hname (stepsText_written hsteps)
  rwa [String.ofList_toList] at h

/-- Keys with brackets, both quotes and a backslash at their end. -/
theorem parse_iff_derives_keys :
    ∃ p, Path.parse "m['it\\'s \"]\\\\'].x[\"\"][-9223372036854775808]" = .ok p ∧
      p.segments = [.attr "m", .index (.str "it's \"]\\"), .attr "x", .index (.str ""),
        .index (.int (-9223372036854775808))] := by
  have h := parse_iff_derives.1 "m"
    [('\'', .index (.str "it's \"]\\")), ('"', .attr "x"), ('"', .index (.str "")),
      ('\'', .index (.int (-9223372036854775808)))]
    (by decide)
    (by
      intro x hx
      rcases x with ⟨q, s⟩
      simp only [List.mem_cons, Prod.mk.injEq, List.not_mem_nil, or_false] at hx
      obtain ⟨rfl, rfl⟩ | ⟨rfl, rfl⟩ | ⟨rfl, rfl⟩ | ⟨rfl, rfl⟩ := hx
      · exact ⟨rfl, nofun⟩
      · exact ⟨rfl, fun n hn => by cases hn; decide⟩
      · exact ⟨rfl, nofun⟩
      · exact ⟨rfl, nofun⟩)
  exact h

end RecordRules.PathGrammar
