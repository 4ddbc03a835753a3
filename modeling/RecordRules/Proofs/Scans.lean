import RecordRules.Proofs.WellFormed

/-!
What the scan makes of the texts that rules are printed in, kind by kind. Each lemma puts
one lexeme, with what is printed after it, in front of a text that scans already.
-/

namespace RecordRules.Token

open Text

/-! ### One step of the scan -/

variable {offset : ℕ} {b : Bool} {c : Char} {cs : List Char} {ls : List Lexeme} {s : Scanned}

lemma scanFrom_nil : scanFrom offset b [] = .ok [] := by
  unfold scanFrom
  rfl

lemma scanFrom_blank (hc : isBlank c = true) :
    scanFrom offset b (c :: cs) = scanFrom (offset + c.utf8Size) b cs := by
  rw [scanFrom.eq_def]
  exact if_pos hc

lemma scanFrom_lexeme (hc : isBlank c = false) (hs : scanOne b c cs = .ok s) :
    scanFrom offset b (c :: cs) =
      (scanFrom (offset + bytes s.text) s.lexeme.endsOperand s.rest).map
        (⟨s.lexeme, offset⟩ :: ·) := by
  rw [scanFrom.eq_def]
  dsimp only
  rw [if_neg (by simp [hc])]
  split
  · next hs' => rw [hs] at hs'; cases hs'
  · next s' hs' =>
    rw [hs] at hs'
    cases hs'
    cases scanFrom (offset + bytes s.text) s.lexeme.endsOperand s.rest <;> rfl

lemma scanFrom_error {fault : LexFault} {f : List Char} (hc : isBlank c = false)
    (hs : scanOne b c cs = .error (fault, f)) :
    scanFrom offset b (c :: cs) = .error (fault, offset + (bytes (c :: cs) - bytes f)) := by
  rw [scanFrom.eq_def]
  dsimp only
  rw [if_neg (by simp [hc])]
  split
  · next hs' => rw [hs] at hs'; cases hs'; rfl
  · next hs' => rw [hs] at hs'; cases hs'

/-! ### Whole texts -/

lemma scan_of_scanFrom {source : String} {ts : List Token}
    (h : scanFrom 0 false source.toList = .ok ts) : scan source = .ok ts := by
  unfold scan
  rw [h]

lemma scanFrom_of_scan {source : String} {ts : List Token} (h : scan source = .ok ts) :
    scanFrom 0 false source.toList = .ok ts := by
  unfold scan at h
  split at h
  · next us hus =>
    cases h
    exact hus
  · cases h

/-- After an operand or not, a text scans to these lexemes, wherever it begins. -/
def Scans (b : Bool) (cs : List Char) (ls : List Lexeme) : Prop :=
  ∀ offset, ∃ ts, scanFrom offset b cs = .ok ts ∧ ts.map Token.lexeme = ls

lemma Scans.nil (b : Bool) : Scans b [] [] := fun _ => ⟨[], scanFrom_nil, rfl⟩

lemma Scans.blank (hc : isBlank c = true) (h : Scans b cs ls) : Scans b (c :: cs) ls := by
  intro offset
  rw [scanFrom_blank hc]
  exact h _

lemma Scans.lexeme (hc : isBlank c = false) (hs : scanOne b c cs = .ok s)
    (h : Scans s.lexeme.endsOperand s.rest ls) : Scans b (c :: cs) (s.lexeme :: ls) := by
  intro offset
  obtain ⟨ts, hts, hls⟩ := h (offset + bytes s.text)
  refine ⟨⟨s.lexeme, offset⟩ :: ts, ?_, by rw [List.map_cons, hls]⟩
  rw [scanFrom_lexeme hc hs, hts]
  rfl

/-! ### Symbols -/

/-- A symbol is scanned before anything, where no number begins. -/
lemma Scans.symbol (hc : isBlank c = false) (hn : startsNumber b c cs = false)
    (hs : symbol? (c :: cs) = some s) (h : Scans s.lexeme.endsOperand s.rest ls) :
    Scans b (c :: cs) (s.lexeme :: ls) := by
  refine Scans.lexeme hc ?_ h
  unfold scanOne
  rw [if_neg (by simp [hn]), hs]

/-- A symbol and the blank after it. -/
lemma Scans.spaced {sym : List Char} {l : Lexeme} (hm : (sym, l) ∈ symbols)
    (h : Scans l.endsOperand cs ls) : Scans b (sym ++ ' ' :: cs) (l :: ls) := by
  have hb : Scans l.endsOperand (' ' :: cs) ls := .blank (by decide) h
  simp only [symbols, List.mem_cons, Prod.mk.injEq, List.not_mem_nil, or_false] at hm
  rcases hm with ⟨rfl, rfl⟩ | ⟨rfl, rfl⟩ | ⟨rfl, rfl⟩ | ⟨rfl, rfl⟩ | ⟨rfl, rfl⟩ | ⟨rfl, rfl⟩ |
    ⟨rfl, rfl⟩ | ⟨rfl, rfl⟩ | ⟨rfl, rfl⟩ | ⟨rfl, rfl⟩ | ⟨rfl, rfl⟩ | ⟨rfl, rfl⟩ | ⟨rfl, rfl⟩ |
    ⟨rfl, rfl⟩ | ⟨rfl, rfl⟩ | ⟨rfl, rfl⟩ | ⟨rfl, rfl⟩ | ⟨rfl, rfl⟩
  all_goals cases b <;> exact .symbol (s := ⟨_, _, ' ' :: cs⟩) rfl rfl rfl hb

lemma Scans.relation (op : Relation) (h : Scans false cs ls) :
    Scans b (op.symbol.toList ++ ' ' :: cs) (.relation op :: ls) := by
  refine .spaced ?_ h
  cases op <;> simp [symbols, Relation.symbol]

lemma Scans.connective (op : Connective) (h : Scans false cs ls) :
    Scans b (op.symbol.toList ++ ' ' :: cs) (.connective op :: ls) := by
  refine .spaced ?_ h
  cases op <;> simp [symbols, Connective.symbol]

lemma Scans.arithmetic (op : Arithmetic) (h : Scans false cs ls) :
    Scans b (op.symbol.toList ++ ' ' :: cs) (.arithmetic op :: ls) := by
  refine .spaced ?_ h
  cases op <;> simp [symbols, Arithmetic.symbol]

/-- The symbols with which no other symbol begins. -/
def marks : List (Char × Lexeme) := [
  ('(', .openParen), (')', .closeParen), ('[', .openBracket), (']', .closeBracket), (',', .comma)]

lemma Scans.mark {c : Char} {l : Lexeme} (hm : (c, l) ∈ marks) (h : Scans l.endsOperand cs ls) :
    Scans b (c :: cs) (l :: ls) := by
  simp only [marks, List.mem_cons, Prod.mk.injEq, List.not_mem_nil, or_false] at hm
  rcases hm with ⟨rfl, rfl⟩ | ⟨rfl, rfl⟩ | ⟨rfl, rfl⟩ | ⟨rfl, rfl⟩ | ⟨rfl, rfl⟩
  all_goals exact .symbol (s := ⟨_, _, cs⟩) rfl rfl rfl h

lemma Scans.space (h : Scans b cs ls) : Scans b (' ' :: cs) ls := .blank (by decide) h

/-! ### What follows an operand -/

/-- What is printed after an operand: nothing, or one of four characters. -/
def Closed (cs : List Char) : Prop := ∀ c ∈ cs.head?, c ∈ [' ', ')', ',', ']']

lemma Closed.nil : Closed [] := by
  intro c hc
  cases hc

lemma Closed.cons {c : Char} (hc : c ∈ [' ', ')', ',', ']']) (cs : List Char) :
    Closed (c :: cs) := by
  intro d hd
  cases hd
  exact hc

/-- What follows an operand does not begin with a character that could continue it. -/
lemma Closed.head_not {p : Char → Bool} (h : Closed cs)
    (hp : [' ', ')', ',', ']'].any p = false) : ∀ c ∈ cs.head?, p c = false := by
  rw [List.any_eq_false] at hp
  exact fun c hc => eq_false_of_ne_true (hp c (h c hc))

lemma takeWhile_closed {p : Char → Bool} {cs : List Char} (h : ∀ c ∈ cs.head?, p c = false)
    (u : List Char) : (u ++ cs).takeWhile p = u.takeWhile p := by
  induction u with
  | nil =>
    cases cs with
    | nil => rfl
    | cons c cs => simp [h c rfl]
  | cons d u ih => simp only [List.cons_append, List.takeWhile_cons, ih]

lemma dropWhile_closed {p : Char → Bool} {cs : List Char} (h : ∀ c ∈ cs.head?, p c = false)
    (u : List Char) : (u ++ cs).dropWhile p = u.dropWhile p ++ cs := by
  induction u with
  | nil =>
    cases cs with
    | nil => rfl
    | cons c cs => simp [h c rfl]
  | cons d u ih =>
    simp only [List.cons_append, List.dropWhile_cons, ih]
    split <;> rfl

lemma Closed.not_identPart (h : Closed cs) : ∀ c ∈ cs.head?, isIdentPart c = false :=
  h.head_not (by decide)

end RecordRules.Token
