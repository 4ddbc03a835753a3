import RecordRules.Proofs.Float.Reading
import RecordRules.Proofs.Scans

/-!
The scan of numbers. A printed number begins with a digit or with a minus and a digit, its
characters all belong to it, and none that follows it does.
-/

namespace RecordRules.Token

variable {cs : List Char} {ls : List Lexeme}

/-! ### Where a number ends -/

/-- The scan takes the text for the rest of a number, up to what follows an operand. -/
def Spans (u : List Char) : Prop := ∀ cs, Closed cs → spanNumber (u ++ cs) = (u, cs)

lemma Spans.nil : Spans [] := by
  intro cs hc
  cases cs with
  | nil => rfl
  | cons c cs =>
    have hd : (c.isDigit || c == '.') = false :=
      hc.head_not (p := fun c => c.isDigit || c == '.') (by decide) c rfl
    have he : (c == 'e' || c == 'E') = false :=
      hc.head_not (p := fun c => c == 'e' || c == 'E') (by decide) c rfl
    rw [List.nil_append, spanNumber.eq_def]
    dsimp only
    rw [if_neg (by simp [hd]), if_neg (by simp [he])]

/-- A digit or the point. -/
def isPositional (c : Char) : Bool := c.isDigit || c == '.'

lemma Spans.append {u v : List Char} (hu : ∀ c ∈ u, isPositional c = true) (hv : Spans v) :
    Spans (u ++ v) := by
  induction u with
  | nil => exact hv
  | cons c u ih =>
    rw [List.forall_mem_cons] at hu
    intro cs hc
    rw [List.cons_append, List.cons_append, spanNumber.eq_def]
    dsimp only
    rw [if_pos (by simpa [isPositional] using hu.1), ih hu.2 cs hc]
    rfl

lemma spans_of_positional {u : List Char} (hu : ∀ c ∈ u, isPositional c = true) : Spans u := by
  have := Spans.append hu .nil
  rwa [List.append_nil] at this

lemma isPositional_of_isDigit {c : Char} (hc : c.isDigit = true) : isPositional c = true := by
  simp [isPositional, hc]

/-- An exponent is part of the number, with or without a sign. -/
lemma spans_exponent {ds : List Char} (hne : ds ≠ []) (hd : ∀ c ∈ ds, c.isDigit = true) :
    Spans ('e' :: ds) ∧ Spans ('e' :: '-' :: ds) := by
  have hs : Spans ds := spans_of_positional fun c hc => isPositional_of_isDigit (hd c hc)
  constructor
  · intro cs hc
    cases ds with
    | nil => exact absurd rfl hne
    | cons d ds =>
      have hd₀ : d.isDigit = true := hd d List.mem_cons_self
      have hplus : d ≠ '+' := by rintro rfl; cases hd₀
      have hminus : d ≠ '-' := by rintro rfl; cases hd₀
      have hspan := hs cs hc
      rw [List.cons_append] at hspan
      rw [List.cons_append, List.cons_append, spanNumber.eq_def]
      dsimp only
      rw [if_neg (by decide), if_pos (by decide), if_neg (by simp [hplus, hminus]), hspan]
      rfl
  · intro cs hc
    rw [List.cons_append, List.cons_append, spanNumber.eq_def]
    dsimp only
    rw [if_neg (by decide), if_pos (by decide), if_pos (by decide), hs cs hc]
    rfl

/-! ### One number -/

/-- The text of a number without a sign. -/
inductive Unsigned : List Char → Prop
  | mk {c : Char} {u : List Char} (hc : c.isDigit = true) (hu : Spans u) : Unsigned (c :: u)

lemma Unsigned.spans {u : List Char} (h : Unsigned u) : Spans u := by
  obtain ⟨hc, hu⟩ := h
  exact .append (List.forall_mem_singleton.2 (isPositional_of_isDigit hc)) hu

lemma scans_number {c : Char} {u : List Char} {l : Literal}
    (hn : startsNumber false c (u ++ cs) = true) (hb : Text.isBlank c = false) (hu : Spans u)
    (hl : numberLiteral? (c :: u) = some l) (hc : Closed cs) (h : Scans true cs ls) :
    Scans false (c :: (u ++ cs)) (.literal l :: ls) := by
  have ht : cs.takeWhile Text.isIdentPart = [] := takeWhile_closed hc.not_identPart []
  have hd : cs.dropWhile Text.isIdentPart = cs := dropWhile_closed hc.not_identPart []
  refine .lexeme (s := ⟨.literal l, c :: u, cs⟩) hb ?_ h
  unfold scanOne
  rw [if_pos hn]
  unfold number
  rw [hu cs hc]
  simp only [ht, hd, List.append_nil, hl]

lemma not_isBlank_of_isDigit {c : Char} (hc : c.isDigit = true) : Text.isBlank c = false :=
  Number.not_of_isDigit (by decide) hc

lemma Scans.unsigned {text : List Char} {l : Literal} (hu : Unsigned text)
    (hl : numberLiteral? text = some l) (hc : Closed cs) (h : Scans true cs ls) :
    Scans false (text ++ cs) (.literal l :: ls) := by
  obtain ⟨hd, hu⟩ := hu
  exact scans_number (by simp [startsNumber, hd]) (not_isBlank_of_isDigit hd) hu hl hc h

lemma Scans.negative {text : List Char} {l : Literal} (hu : Unsigned text)
    (hl : numberLiteral? ('-' :: text) = some l) (hc : Closed cs) (h : Scans true cs ls) :
    Scans false ('-' :: (text ++ cs)) (.literal l :: ls) := by
  refine scans_number ?_ (by decide) hu.spans hl hc h
  obtain ⟨hd, -⟩ := hu
  simp [startsNumber, hd]

/-! ### Integers -/

open Number

lemma unsigned_digits (n : ℕ) : Unsigned (digits n) := by
  have hall (c : Char) (hc : c ∈ digits n) : c.isDigit = true := isDigit_of_mem_digits hc
  cases hd : digits n with
  | nil => exact absurd hd Nat.toDigits_ne_nil
  | cons c u =>
    rw [hd, List.forall_mem_cons] at hall
    exact .mk hall.1 (spans_of_positional fun d hd => isPositional_of_isDigit (hall.2 d hd))

/-- A text without a point and an exponent is read as an integer. -/
lemma numberLiteral?_of_digits {text : List Char} {i : Int64}
    (ht : ∀ c ∈ text, c.isDigit = true ∨ c = '-') (hi : readInt64? text = some i) :
    numberLiteral? text = some (.int i) := by
  have hany : (text.any fun c => c == '.' || c == 'e' || c == 'E') = false := by
    rw [List.any_eq_false]
    intro c hc hpoint
    have hp : (c = '.' ∨ c = 'e') ∨ c = 'E' := by simpa using hpoint
    rcases ht c hc with hd | rfl
    · rcases hp with (rfl | rfl) | rfl <;> cases hd
    · revert hp
      decide
  unfold numberLiteral?
  rw [if_neg (by simp [hany]), hi]
  rfl

lemma readInt64?_digits (n : ℕ) : readInt64? (digits n) = int64? n := by
  unfold readInt64?
  split
  · next ds hds =>
    have hc : '-' ∈ digits n := by rw [hds]; exact List.mem_cons_self
    cases isDigit_of_mem_digits hc
  · rw [natural?_digits, Option.bind_some]

lemma readInt64?_neg_digits (n : ℕ) : readInt64? ('-' :: digits n) = int64? (-n) := by
  change (natural? (digits n)).bind (fun n => int64? (-(n : ℤ))) = int64? (-n)
  rw [natural?_digits, Option.bind_some]

theorem Scans.int (i : Int64) (hc : Closed cs) (h : Scans true cs ls) :
    Scans false ((Literal.int i).text ++ cs) (.literal (.int i) :: ls) := by
  have hi : int64? i.toInt = some i := int64?_toInt i
  change Scans false (intDigits i.toInt ++ cs) (.literal (.int i) :: ls)
  cases htoInt : i.toInt with
  | ofNat n =>
    rw [htoInt] at hi
    refine .unsigned (unsigned_digits n) (numberLiteral?_of_digits ?_ ?_) hc h
    · exact fun c hc => .inl (isDigit_of_mem_digits hc)
    · exact (readInt64?_digits n).trans hi
  | negSucc n =>
    rw [htoInt] at hi
    refine .negative (unsigned_digits (n + 1)) (numberLiteral?_of_digits ?_ ?_) hc h
    · rw [List.forall_mem_cons]
      exact ⟨.inr rfl, fun c hc => .inl (isDigit_of_mem_digits hc)⟩
    · exact (readInt64?_neg_digits (n + 1)).trans hi

/-! ### Floating-point numbers -/

/-- A text with a point or an exponent is read as a floating-point number. -/
lemma numberLiteral?_of_point {text : List Char} {x : Float}
    (ht : ∃ c ∈ text, c = '.' ∨ c = 'e') (hx : x.isFinite = true) (h : readFloat? text = some x) :
    numberLiteral? text = some (.float x) := by
  have hany : (text.any fun c => c == '.' || c == 'e' || c == 'E') = true := by
    obtain ⟨c, hc, hp⟩ := ht
    rw [List.any_eq_true]
    refine ⟨c, hc, ?_⟩
    rcases hp with rfl | rfl <;> rfl
  unfold numberLiteral?
  rw [if_pos hany, h]
  simp only [hx, if_true]

lemma spans_exponentDigits (i : ℤ) : Spans ('e' :: intDigits i) := by
  cases i with
  | ofNat n =>
    obtain ⟨hne, hd⟩ := areDigits_digits n
    exact (spans_exponent hne hd).1
  | negSucc n =>
    obtain ⟨hne, hd⟩ := areDigits_digits (n + 1)
    exact (spans_exponent hne hd).2

lemma isPositional_replicate (n : ℕ) : ∀ c ∈ List.replicate n '0', isPositional c = true := by
  intro c hc
  rw [List.eq_of_mem_replicate hc]
  rfl

/-- The text of a decimal is one number, and not an integer. -/
lemma unsigned_decimal {d : Decimal} (hd : AreDigits d.digits) :
    Unsigned d.text ∧ ∃ c ∈ d.text, c = '.' ∨ c = 'e' := by
  obtain ⟨digits, exponent⟩ := d
  obtain ⟨hne, hd⟩ := hd
  have hp : ∀ c ∈ digits, isPositional c = true := fun c hc => isPositional_of_isDigit (hd c hc)
  obtain ⟨c, u, rfl⟩ : ∃ c u, digits = c :: u := List.exists_cons_of_ne_nil hne
  rw [List.forall_mem_cons] at hd hp
  unfold Decimal.text
  dsimp only
  split
  · refine ⟨?_, 'e', by simp, .inr rfl⟩
    cases u with
    | nil => exact .mk hd.1 (spans_exponentDigits exponent)
    | cons e u =>
      exact .mk hd.1 (.append (List.forall_mem_cons.2 ⟨rfl, hp.2⟩) (spans_exponentDigits exponent))
  · split
    · refine ⟨.mk (c := '0') (by decide) (spans_of_positional ?_), '.', by simp, .inl rfl⟩
      simp only [List.append_eq, List.cons_append, List.nil_append, List.forall_mem_cons,
        List.forall_mem_append]
      exact ⟨rfl, isPositional_replicate _, hp⟩
    · refine ⟨?_, '.', by simp, .inl rfl⟩
      rw [List.take_succ_cons]
      refine .mk hd.1 (spans_of_positional ?_)
      simp only [List.append_eq, List.forall_mem_append, List.forall_mem_cons]
      refine ⟨⟨fun c hc => hp.2 c (List.mem_of_mem_take hc), isPositional_replicate _⟩, rfl, ?_⟩
      split
      · simp [isPositional]
      · exact fun c hc => hp.2 c (List.mem_of_mem_drop hc)

lemma unsigned_shortest (b : Binary) :
    Unsigned b.shortest.text ∧ ∃ c ∈ b.shortest.text, c = '.' ∨ c = 'e' :=
  unsigned_decimal (areDigits_shortest b)

/-- A finite number is printed as one number, and a minus before it where it is below zero. -/
lemma floatDigits_eq {x : Float} (hx : x.isFinite = true) :
    ∃ text, (floatDigits x = text ∨ floatDigits x = '-' :: text) ∧
      Unsigned text ∧ ∃ c ∈ text, c = '.' ∨ c = 'e' := by
  obtain ⟨b, hb, -⟩ := Binary.ofFloat?_cases hx
  refine ⟨if b.mantissa = 0 then ['0', '.', '0'] else b.shortest.text, ?_, ?_⟩
  · unfold floatDigits
    rw [hb]
    dsimp only
    cases b.negative
    · exact .inl rfl
    · exact .inr rfl
  · split
    · exact ⟨.mk (by decide) (spans_of_positional (by simp [isPositional])), '.', by simp, .inl rfl⟩
    · exact unsigned_shortest b

theorem Scans.float {x : Float} (hx : x.isFinite = true) (hc : Closed cs) (h : Scans true cs ls) :
    Scans false ((Literal.float x).text ++ cs) (.literal (.float x) :: ls) := by
  have hr := readFloat?_floatDigits hx
  obtain ⟨text, htext, hu, c, hm, hp⟩ := floatDigits_eq hx
  change Scans false (floatDigits x ++ cs) (.literal (.float x) :: ls)
  rcases htext with htext | htext <;> rw [htext] at hr ⊢
  · exact .unsigned hu (numberLiteral?_of_point ⟨c, hm, hp⟩ hx hr) hc h
  · exact .negative hu (numberLiteral?_of_point ⟨c, List.mem_cons_of_mem _ hm, hp⟩ hx hr) hc h

end RecordRules.Token
