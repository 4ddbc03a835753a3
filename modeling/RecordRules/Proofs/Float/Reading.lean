import RecordRules.Proofs.Float.Scientific
import RecordRules.Proofs.Float.Shortest

/-!
The text of a finite number reads back as the number: its shortest digits stand for a
decimal in its span, whichever form they are written in.
-/

namespace RecordRules.Number

/-! ### The parts of a text -/

lemma span_digits {ds : List Char} (hd : ∀ c ∈ ds, c.isDigit = true) :
    ds.takeWhile (·.isDigit) = ds ∧ ds.dropWhile (·.isDigit) = [] :=
  ⟨List.takeWhile_eq_self_iff.2 hd, List.dropWhile_eq_nil_iff.2 hd⟩

lemma span_digits_cons {ds : List Char} (hd : ∀ c ∈ ds, c.isDigit = true) {c : Char}
    (hc : c.isDigit = false) (rest : List Char) :
    (ds ++ c :: rest).takeWhile (·.isDigit) = ds ∧
      (ds ++ c :: rest).dropWhile (·.isDigit) = c :: rest := by
  rw [List.takeWhile_append_of_pos hd, List.dropWhile_append_of_pos hd]
  simp [hc]

lemma readMagnitude?_point {whole part : List Char} (hw : AreDigits whole)
    (hp : ∀ c ∈ part, c.isDigit = true) :
    readMagnitude? (whole ++ '.' :: part) =
      some (nearest (ofDigits (whole ++ part)) (-(part.length : ℤ))) := by
  obtain ⟨hne, hd⟩ := hw
  obtain ⟨ht, hr⟩ := span_digits_cons hd (c := '.') rfl part
  obtain ⟨ht', hr'⟩ := span_digits hp
  unfold readMagnitude?
  simp only [ht, hr, ht', hr', hne, false_and, if_false]

/-- The reader of an exponent after its letter. -/
def readExponent? (m : ℕ) (e : ℤ) : List Char → Option Float
  | '-' :: ds => (natural? ds).map fun x => nearest m (e - x)
  | '+' :: ds => (natural? ds).map fun x => nearest m (e + x)
  | ds => (natural? ds).map fun x => nearest m (e + x)

lemma readExponent?_intDigits (m : ℕ) (e x : ℤ) :
    readExponent? m e (intDigits x) = some (nearest m (e + x)) := by
  cases x with
  | ofNat n =>
    have hdigits (c : Char) (ds : List Char) (h : digits n = c :: ds) : c.isDigit = true :=
      isDigit_of_mem_digits (n := n) (h ▸ List.mem_cons_self)
    change readExponent? m e (digits n) = _
    unfold readExponent?
    split
    · next ds hds => cases hdigits _ _ hds
    · next ds hds => cases hdigits _ _ hds
    · rw [natural?_digits]
      rfl
  | negSucc n =>
    change (natural? (digits (n + 1))).map (fun x => nearest m (e - x)) = _
    rw [natural?_digits]
    rfl

lemma readMagnitude?_exponent {whole part : List Char} (hw : AreDigits whole)
    (hp : ∀ c ∈ part, c.isDigit = true) (x : ℤ) :
    readMagnitude? (whole ++ ((if part = [] then [] else '.' :: part) ++ 'e' :: intDigits x)) =
      some (nearest (ofDigits (whole ++ part)) (-(part.length : ℤ) + x)) := by
  obtain ⟨hne, hd⟩ := hw
  obtain ⟨ht', hr'⟩ := span_digits_cons hp (c := 'e') rfl (intDigits x)
  split
  · next hp₀ =>
    subst hp₀
    obtain ⟨ht, hr⟩ := span_digits_cons hd (c := 'e') rfl (intDigits x)
    unfold readMagnitude?
    rw [List.nil_append]
    simp only [ht, hr, hne, false_and, if_false]
    exact readExponent?_intDigits _ _ x
  · obtain ⟨ht, hr⟩ := span_digits_cons hd (c := '.') rfl (part ++ 'e' :: intDigits x)
    unfold readMagnitude?
    rw [List.cons_append]
    simp only [ht, hr, hne, false_and, if_false, true_or, if_true, ht', hr']
    exact readExponent?_intDigits _ _ x

/-! ### Decimals -/

lemma pointed_cons (c : Char) (ds : List Char) :
    pointed (c :: ds) = [c] ++ if ds = [] then [] else '.' :: ds := by
  cases ds <;> rfl

/-- A reader takes the text for a whole number and a power of ten of this product. -/
def ReadsAs (cs : List Char) (v : ℚ) : Prop :=
  ∃ m e, readMagnitude? cs = some (nearest m e) ∧ (m : ℚ) * 10 ^ e = v

/-- The point moves to the right of the digits, past zeros where there are too few. -/
lemma readsAs_positional {ds : List Char} (hd : AreDigits ds) (n : ℕ) (hn : 0 < n) :
    ReadsAs (ds.take n ++ List.replicate (n - (ds.take n).length) '0' ++
        '.' :: (if ds.drop n = [] then ['0'] else ds.drop n))
      (ofDigits ds * 10 ^ (n - ds.length : ℤ)) := by
  obtain ⟨hne, hd⟩ := hd
  rcases le_or_gt ds.length n with h | h
  · rw [List.take_of_length_le h, if_pos (List.drop_eq_nil_of_le h)]
    have hw : AreDigits (ds ++ List.replicate (n - ds.length) '0') := by
      refine ⟨fun h => hne (List.append_eq_nil_iff.1 h).1, List.forall_mem_append.2 ⟨hd, ?_⟩⟩
      exact fun c hc => by rw [List.eq_of_mem_replicate hc]; rfl
    refine ⟨_, _, readMagnitude?_point hw (by simp), ?_⟩
    have hzeros : ds ++ List.replicate (n - ds.length) '0' ++ ['0'] =
        ds ++ List.replicate (n - ds.length + 1) '0' := by
      rw [List.append_assoc, List.replicate_succ']
    have hexp : (n - ds.length : ℤ) = (n - ds.length + 1 : ℕ) + -1 := by omega
    rw [hzeros, ofDigits_append_zeros, hexp, zpow_add₀ (by norm_num), zpow_natCast]
    push_cast
    rw [mul_assoc]
    rfl
  · have hlen : (ds.take n).length = n := List.length_take_of_le h.le
    have hdrop : ds.drop n ≠ [] := by
      rw [Ne, List.drop_eq_nil_iff]
      omega
    rw [hlen, Nat.sub_self, List.replicate_zero, List.append_nil, if_neg hdrop]
    have hw : AreDigits (ds.take n) := by
      refine ⟨?_, fun c hc => hd c (List.mem_of_mem_take hc)⟩
      rw [← List.length_pos_iff, hlen]
      exact hn
    refine ⟨_, _, readMagnitude?_point hw fun c hc => hd c (List.mem_of_mem_drop hc), ?_⟩
    have hexp : (n - ds.length : ℤ) = -((ds.drop n).length : ℤ) := by
      rw [List.length_drop]
      omega
    rw [List.take_append_drop, hexp]

/-- A decimal is read from its text as what it stands for. -/
lemma readsAs_text {d : Decimal} (hd : AreDigits d.digits) : ReadsAs d.text d.value := by
  obtain ⟨ds, x⟩ := d
  unfold Decimal.text Decimal.value
  dsimp only at hd ⊢
  split
  · obtain ⟨hne, hd⟩ := hd
    obtain ⟨c, ds, rfl⟩ := List.exists_cons_of_ne_nil hne
    rw [List.forall_mem_cons] at hd
    have hc : AreDigits [c] := ⟨by simp, List.forall_mem_singleton.2 hd.1⟩
    rw [pointed_cons, List.append_assoc]
    refine ⟨_, _, readMagnitude?_exponent hc hd.2 x, ?_⟩
    have hexp : x + 1 - (c :: ds).length = -(ds.length : ℤ) + x := by
      rw [List.length_cons]
      omega
    rw [hexp]
    rfl
  · split
    · next hx =>
      have hall : ∀ c ∈ List.replicate (-x - 1).toNat '0' ++ ds, c.isDigit = true := by
        rw [List.forall_mem_append]
        exact ⟨fun c hc => by rw [List.eq_of_mem_replicate hc]; rfl, hd.2⟩
      have hw : AreDigits ['0'] := ⟨by simp, by simp⟩
      change ReadsAs (['0'] ++ '.' :: (List.replicate (-x - 1).toNat '0' ++ ds)) _
      refine ⟨_, _, readMagnitude?_point hw hall, ?_⟩
      have hzeros : ['0'] ++ (List.replicate (-x - 1).toNat '0' ++ ds) =
          List.replicate ((-x - 1).toNat + 1) '0' ++ ds := rfl
      have hexp : x + 1 - ds.length = -((List.replicate (-x - 1).toNat '0' ++ ds).length : ℤ) := by
        rw [List.length_append, List.length_replicate]
        omega
      rw [hzeros, ofDigits_zeros_append, hexp]
    · next hx =>
      have hexp : x + 1 - ds.length = ((x.toNat + 1 : ℕ) - ds.length : ℤ) := by omega
      rw [hexp]
      exact readsAs_positional hd (x.toNat + 1) (by omega)

/-! ### Finite numbers -/

/-- What is read as a number without a sign begins with a digit or with the point. -/
lemma exists_of_readMagnitude? {cs : List Char} {x : Float} (h : readMagnitude? cs = some x) :
    ∃ c u, cs = c :: u ∧ c ∈ '.' :: tenDigits := by
  cases cs with
  | nil => cases h
  | cons c u =>
    refine ⟨c, u, rfl, ?_⟩
    by_contra hc
    rw [List.mem_cons, not_or] at hc
    have hd : c.isDigit = false := by
      rw [← Bool.not_eq_true]
      exact fun hd => hc.2 (mem_tenDigits hd)
    have ht : (c :: u).takeWhile (·.isDigit) = [] := by simp [hd]
    have hr : (c :: u).dropWhile (·.isDigit) = c :: u := by simp [hd]
    unfold readMagnitude? at h
    simp only [ht, hr, true_and] at h
    split at h
    · next heq =>
      cases heq
      exact hc.1 rfl
    · cases h

lemma readUnsigned?_of_magnitude {cs : List Char} {x : Float} (h : readMagnitude? cs = some x) :
    readUnsigned? cs = some x := by
  obtain ⟨c, u, rfl, hc⟩ := exists_of_readMagnitude? h
  have hall : ('.' :: tenDigits).all (fun d => d.toLower != 'i' && d.toLower != 'n') = true := by
    decide
  obtain ⟨hi, hn⟩ : c.toLower ≠ 'i' ∧ c.toLower ≠ 'n' := by
    simpa using List.all_eq_true.1 hall c hc
  unfold readUnsigned?
  dsimp only
  rw [List.map_cons, if_neg (by simp [hi]), if_neg (by simp [hn]), h]

lemma readFloat?_of_magnitude {cs : List Char} {x : Float} (h : readMagnitude? cs = some x) :
    readFloat? cs = some x ∧ readFloat? ('-' :: cs) = some (-x) := by
  have hu := readUnsigned?_of_magnitude h
  constructor
  · obtain ⟨c, u, rfl, hc⟩ := exists_of_readMagnitude? h
    unfold readFloat?
    split
    · next heq => cases heq; exact absurd hc (by decide)
    · next heq => cases heq; exact absurd hc (by decide)
    · exact hu
  · change (readUnsigned? cs).map (fun x => -x) = some (-x)
    rw [hu]
    rfl

lemma readMagnitude?_zero : readMagnitude? ['0', '.', '0'] = some 0.0 := by
  have hp : ∀ c ∈ ['0'], c.isDigit = true := by simp
  exact readMagnitude?_point (areDigits_digits 0) hp

/-- **Round trip of the finite numbers**: each reads back from its text. -/
theorem readFloat?_floatDigits {x : Float} (hx : x.isFinite = true) :
    readFloat? (floatDigits x) = some x := by
  obtain ⟨b, hb, h⟩ := Binary.ofFloat?_cases hx
  obtain ⟨y, hy, hxy⟩ : ∃ y, readMagnitude? (if b.mantissa = 0 then ['0', '.', '0'] else
      b.shortest.text) = some y ∧ x = if b.negative then -y else y := by
    rcases h with ⟨hzero, rfl⟩ | ⟨hc, rfl⟩
    · rw [if_pos hzero]
      exact ⟨_, readMagnitude?_zero, rfl⟩
    · obtain ⟨m, e, hread, hvalue⟩ := readsAs_text (areDigits_shortest b)
      have hv : b.Attracts (m * 10 ^ e) := by
        rw [hvalue]
        exact hc.attracts_shortest
      rw [if_neg hc.pos.ne', hread]
      refine ⟨_, rfl, ?_⟩
      rw [nearest_eq hc hv]
      unfold Binary.sign
      split
      · exact (Binary.neg_signed hc).symm
      · rfl
  obtain ⟨hplus, hminus⟩ := readFloat?_of_magnitude hy
  unfold floatDigits
  rw [hb]
  dsimp only
  split
  · next hn => rw [hminus, hxy, if_pos hn]
  · next hn => rw [hplus, hxy, if_neg hn]

end RecordRules.Number
