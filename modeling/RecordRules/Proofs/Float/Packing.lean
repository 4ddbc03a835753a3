import RecordRules.Number.FloatText
import RecordRules.Proofs.Float.Rounding

/-!
The bits of a floating-point number and its parts.
-/

namespace RecordRules.Number

open Float.Model Float.Model.UnpackedFloat

/-! ### Bits -/

/-- The bits of a sign, an exponent and a mantissa, as a number. -/
lemma toNat_packComponents (s : Sign) (e : BitVec 11) (m : BitVec 52) :
    (packComponents .binary64 s e m).toNat =
      s.toBitVec.toNat * 2 ^ 63 + e.toNat * 2 ^ 52 + m.toNat := by
  have hinner : (s.toBitVec ++ e).toNat = s.toBitVec.toNat * 2 ^ 11 + e.toNat := by
    rw [BitVec.toNat_append, ← Nat.shiftLeft_add_eq_or_of_lt e.isLt, Nat.shiftLeft_eq]
  change (s.toBitVec ++ e ++ m).toNat = _
  rw [BitVec.toNat_append, ← Nat.shiftLeft_add_eq_or_of_lt m.isLt, Nat.shiftLeft_eq, hinner]
  ring

/-- All bits are a sign, an exponent and a mantissa. -/
lemma exists_packComponents (b : BitVec 64) :
    ∃ s e m, b = packComponents .binary64 s e m := by
  have hb := b.isLt
  refine ⟨if 2 ^ 63 ≤ b.toNat then .negative else .positive,
    .ofNat 11 (b.toNat / 2 ^ 52), .ofNat 52 b.toNat, ?_⟩
  apply BitVec.eq_of_toNat_eq
  rw [toNat_packComponents]
  simp only [BitVec.toNat_ofNat]
  split
  · change _ = 1 * 2 ^ 63 + _ + _
    omega
  · change _ = 0 * 2 ^ 63 + _ + _
    omega

lemma unpackSign_packComponents (s : Sign) (e : BitVec 11) (m : BitVec 52) :
    Sign.ofBitVec (unpackSign (packComponents .binary64 s e m)) = s := by
  have h : unpackSign (packComponents .binary64 s e m) = s.toBitVec := by
    apply BitVec.eq_of_toNat_eq
    change (BitVec.extractLsb 63 63 (packComponents .binary64 s e m)).toNat = _
    rw [BitVec.extractLsb_toNat, toNat_packComponents, Nat.shiftRight_eq_div_pow]
    have := e.isLt
    have := m.isLt
    have := s.toBitVec.isLt
    omega
  rw [h]
  cases s <;> rfl

/-! ### Parts -/

/-- The mantissa that the bits stand for, with the bit that normal numbers leave out. -/
def wholeMantissa (e : BitVec 11) (m : BitVec 52) : ℕ :=
  if e = 0#11 then m.toNat else 2 ^ 52 + m.toNat

def wholeExponent (e : BitVec 11) : ℤ := if e = 0#11 then -1074 else e.toNat - 1075

lemma append_implicit (m : BitVec 52) : (1#1 ++ m).toNat = 2 ^ 52 + m.toNat := by
  rw [BitVec.toNat_append, ← Nat.shiftLeft_add_eq_or_of_lt m.isLt, Nat.shiftLeft_eq]
  rfl

/-- What the bits stand for. -/
def ofParts (s : Sign) (e : BitVec 11) (m : BitVec 52) : UnpackedFloat :=
  if e = -1#11 then if m = 0#52 then .infinity s else .notANumber
  else if hm : 0 < wholeMantissa e m then .finite s (wholeMantissa e m) (wholeExponent e) hm
  else .zero s

lemma unpack_eq {b : BitVec Format.binary64.numBits} {s : Sign} {e : BitVec 11} {m : BitVec 52}
    (hs : Sign.ofBitVec (unpackSign b) = s) (he : unpackExponent b = e)
    (hm : unpackMantissa b = m) : UnpackedFloat.unpack .binary64 b = ofParts s e m := by
  unfold UnpackedFloat.unpack ofParts
  dsimp only
  by_cases hones : e = -1#11
  · rw [if_pos hones, if_pos (he.trans hones), hm, hs]
  · rw [if_neg hones, if_neg fun h => hones (he.symm.trans h)]
    by_cases h₀ : e = 0#11
    · have hM : wholeMantissa e m = m.toNat := if_pos h₀
      rw [if_pos (he.trans h₀)]
      by_cases hm₀ : m = 0#52
      · have hzero : ¬0 < wholeMantissa e m := by
          rw [hM, hm₀]
          exact Nat.lt_irrefl 0
        rw [dif_pos (hm.trans hm₀), dif_neg hzero, hs]
      · have hpos : 0 < wholeMantissa e m := by
          rw [hM]
          exact Nat.pos_of_ne_zero fun h => hm₀ (BitVec.eq_of_toNat_eq h)
        rw [dif_neg fun h => hm₀ (hm.symm.trans h), dif_pos hpos]
        congr 1
        · rw [hM, hm]
        · rw [he, h₀]
          rfl
    · have hM : wholeMantissa e m = 2 ^ 52 + m.toNat := if_neg h₀
      rw [if_neg fun h => h₀ (he.symm.trans h), dif_pos (by omega)]
      congr 1
      · rw [append_implicit, hM, hm]
      · rw [he, wholeExponent, if_neg h₀]
        rfl

lemma unpack_packComponents (s : Sign) (e : BitVec 11) (m : BitVec 52) :
    UnpackedFloat.unpack .binary64 (packComponents .binary64 s e m) = ofParts s e m :=
  unpack_eq (unpackSign_packComponents s e m) unpackExponent_packComponents
    unpackMantissa_packComponents

lemma unpack_finite {s : Sign} {e : BitVec 11} {m : BitVec 52} (he : e ≠ -1#11)
    (hm : 0 < wholeMantissa e m) :
    UnpackedFloat.unpack .binary64 (packComponents .binary64 s e m) =
      .finite s (wholeMantissa e m) (wholeExponent e) hm := by
  rw [unpack_packComponents, ofParts, if_neg he, dif_pos hm]

lemma isFinite_unpack_ones (s : Sign) (m : BitVec 52) :
    (UnpackedFloat.unpack .binary64 (packComponents .binary64 s (-1#11) m)).isFinite = false := by
  rw [unpack_packComponents, ofParts, if_pos rfl]
  split <;> rfl

lemma pack_eq {s : Sign} {n : ℕ} {e : ℤ} {hn : 0 < n} {biased : ℕ}
    (hb : (e + 1023 + 52).toNat = biased) (hlt : biased + 1 < 2 ^ 11) :
    UnpackedFloat.pack .binary64 (.finite s n e hn) =
      if n.log2 + 1 = 53 then packComponents .binary64 s (.ofNat 11 biased) (.ofNat 52 n)
      else packComponents .binary64 s 0#11 (.ofNat 52 n) := by
  subst hb
  exact if_neg (Nat.not_le.2 hlt)

/-- Packing puts the bits together again. -/
lemma pack_finite {s : Sign} {e : BitVec 11} {m : BitVec 52} (he : e ≠ -1#11)
    (hm : 0 < wholeMantissa e m) :
    UnpackedFloat.pack .binary64 (.finite s (wholeMantissa e m) (wholeExponent e) hm) =
      packComponents .binary64 s e m := by
  have hmlt : m.toNat < 2 ^ 52 := m.isLt
  have helt : e.toNat < 2 ^ 11 := e.isLt
  by_cases h₀ : e = 0#11
  · subst h₀
    have hM : wholeMantissa 0#11 m = m.toNat := rfl
    have hlog : (wholeMantissa 0#11 m).log2 < 52 := by
      rw [Nat.log2_lt hm.ne', hM]
      exact hmlt
    have hbiased : (wholeExponent 0#11 + 1023 + 52).toNat = 1 := rfl
    rw [pack_eq hbiased (by omega), if_neg (by omega), hM, BitVec.ofNat_toNat,
      BitVec.setWidth_eq]
  · have hne : e.toNat ≠ 2047 := fun h => he (BitVec.eq_of_toNat_eq h)
    have hM : wholeMantissa e m = 2 ^ 52 + m.toNat := if_neg h₀
    have hE : wholeExponent e = e.toNat - 1075 := if_neg h₀
    have hlog : (wholeMantissa e m).log2 = 52 := by
      rw [Nat.log2_eq_iff hm.ne', hM]
      omega
    have hbiased : (wholeExponent e + 1023 + 52).toNat = e.toNat := by omega
    rw [pack_eq hbiased (by omega), if_pos (by omega), BitVec.ofNat_toNat, BitVec.setWidth_eq]
    congr 1
    apply BitVec.eq_of_toNat_eq
    rw [BitVec.toNat_ofNat, hM]
    omega

/-! ### Floating-point numbers and their parts -/

namespace Binary

/-- The floating-point number with a sign and these parts. -/
def signed (s : Sign) (b : Binary) (hb : b.Canonical) : Float :=
  .ofModel (.pack (.finite s b.mantissa b.exponent hb.pos))

/-- The parts come from bits. -/
lemma Canonical.exists_bits {b : Binary} (hb : b.Canonical) :
    ∃ (e : BitVec 11) (m : BitVec 52), e ≠ -1#11 ∧ wholeMantissa e m = b.mantissa ∧
      wholeExponent e = b.exponent := by
  have hlt := hb.lt
  have hmin := hb.min
  have hmax := hb.max
  have hnormal := hb.normal
  by_cases h : b.mantissa < 2 ^ 52
  · refine ⟨0#11, .ofNat 52 b.mantissa, by decide, ?_, ?_⟩
    · rw [wholeMantissa, if_pos rfl, BitVec.toNat_ofNat]
      omega
    · rw [wholeExponent, if_pos rfl]
      omega
  · have hnat : (BitVec.ofNat 11 (b.exponent + 1075).toNat).toNat = (b.exponent + 1075).toNat := by
      rw [BitVec.toNat_ofNat]
      omega
    have hne {n : ℕ} (hn : n % 2 ^ 11 ≠ (b.exponent + 1075).toNat) :
        BitVec.ofNat 11 (b.exponent + 1075).toNat ≠ BitVec.ofNat 11 n := by
      intro heq
      rw [heq, BitVec.toNat_ofNat] at hnat
      exact hn hnat
    refine ⟨.ofNat 11 (b.exponent + 1075).toNat, .ofNat 52 b.mantissa, ?_, ?_, ?_⟩
    · exact hne (n := 2047) (by omega)
    · rw [wholeMantissa, if_neg (hne (by omega)), BitVec.toNat_ofNat]
      omega
    · rw [wholeExponent, if_neg (hne (by omega)), hnat]
      omega

lemma unpack_signed (s : Sign) {b : Binary} (hb : b.Canonical) :
    (signed s b hb).toModel.unpack = .finite s b.mantissa b.exponent hb.pos := by
  obtain ⟨n, k, exponent, l⟩ := b
  obtain ⟨e, m, he, hM, hE⟩ := hb.exists_bits
  simp only at hM hE
  subst hM hE
  change UnpackedFloat.unpack .binary64 (UnpackedFloat.pack .binary64
    (.finite s (wholeMantissa e m) (wholeExponent e) hb.pos)) = _
  rw [pack_finite he hb.pos, unpack_finite he hb.pos]

lemma neg_signed {b : Binary} (hb : b.Canonical) :
    -signed .positive b hb = signed .negative b hb := by
  change Float.ofModel (.pack (signed .positive b hb).toModel.unpack.neg) = _
  rw [unpack_signed]
  rfl

/-- The sign that a number is printed with. -/
def sign (b : Binary) : Sign := if b.negative then .negative else .positive

/-- The parts that are read off the bits of a finite number. -/
lemma ofFloat?_bits {x : Float} {s : Sign} {e : BitVec 11} {m : BitVec 52}
    (hx : x.toModel.toBits.toBitVec = packComponents .binary64 s e m) (he : e ≠ -1#11) :
    ∃ b, ofFloat? x = some b ∧ b.sign = s ∧ b.mantissa = wholeMantissa e m ∧
      b.exponent = wholeExponent e ∧
      (b.lowest = true ↔ m = 0#52 ∧ e ≠ 0#11 ∧ e ≠ 1#11) := by
  have hbits : x.toBits.toNat = s.toBitVec.toNat * 2 ^ 63 + e.toNat * 2 ^ 52 + m.toNat := by
    rw [← toNat_packComponents, ← hx]
    rfl
  have helt : e.toNat < 2 ^ 11 := e.isLt
  have hmlt : m.toNat < 2 ^ 52 := m.isLt
  have hslt : s.toBitVec.toNat < 2 ^ 1 := s.toBitVec.isLt
  have hbiased : (x.toBits.toNat >>> 52) % 0x800 = e.toNat := by
    rw [hbits, Nat.shiftRight_eq_div_pow]
    omega
  have hfraction : x.toBits.toNat % 0x10000000000000 = m.toNat := by
    rw [hbits]
    omega
  have hsign : (if isNegative x then Sign.negative else .positive) = s := by
    unfold isNegative
    rw [hbits]
    cases s
    · exact if_pos (decide_eq_true (by change _ ≤ 1 * 2 ^ 63 + _ + _; omega))
    · exact if_neg (by rw [decide_eq_true_eq]; change ¬_ ≤ 0 * 2 ^ 63 + _ + _; omega)
  have hne : e.toNat ≠ 2047 := fun h => he (BitVec.eq_of_toNat_eq h)
  have hzero : e.toNat = 0 ↔ e = 0#11 := ⟨fun h => BitVec.eq_of_toNat_eq h, fun h => by rw [h]; rfl⟩
  unfold ofFloat?
  dsimp only
  rw [hbiased, hfraction, if_neg hne]
  by_cases h₀ : e = 0#11
  · rw [if_pos (hzero.2 h₀)]
    refine ⟨_, rfl, hsign, ?_, ?_, ?_⟩
    · exact (if_pos h₀).symm
    · exact (if_pos h₀).symm
    · simp [h₀]
  · rw [if_neg (fun h => h₀ (hzero.1 h))]
    refine ⟨_, rfl, hsign, ?_, ?_, ?_⟩
    · exact (if_neg h₀).symm
    · exact (if_neg h₀).symm
    · simp only [Bool.and_eq_true, beq_iff_eq, bne_iff_ne, ne_eq, h₀, not_false_eq_true, true_and]
      refine and_congr ?_ (not_congr ?_)
      · exact ⟨fun h => BitVec.eq_of_toNat_eq h, fun h => by rw [h]; rfl⟩
      · exact ⟨fun h => BitVec.eq_of_toNat_eq h, fun h => by rw [h]; rfl⟩

lemma canonical_of_bits {b : Binary} {e : BitVec 11} {m : BitVec 52} (he : e ≠ -1#11)
    (hM : b.mantissa = wholeMantissa e m) (hE : b.exponent = wholeExponent e)
    (hl : b.lowest = true ↔ m = 0#52 ∧ e ≠ 0#11 ∧ e ≠ 1#11) (hpos : 0 < b.mantissa) :
    b.Canonical := by
  have helt : e.toNat < 2 ^ 11 := e.isLt
  have hmlt : m.toNat < 2 ^ 52 := m.isLt
  have hne : e.toNat ≠ 2047 := fun h => he (BitVec.eq_of_toNat_eq h)
  have hm₀ : m = 0#52 ↔ m.toNat = 0 :=
    ⟨fun h => by rw [h]; rfl, fun h => BitVec.eq_of_toNat_eq h⟩
  have he₁ : e = 1#11 ↔ e.toNat = 1 := ⟨fun h => by rw [h]; rfl, fun h => BitVec.eq_of_toNat_eq h⟩
  unfold wholeMantissa at hM
  unfold wholeExponent at hE
  by_cases h₀ : e = 0#11
  · rw [if_pos h₀] at hM hE
    refine ⟨hpos, by omega, by omega, by omega, .inl hE, ?_⟩
    rw [hl]
    exact ⟨fun h => absurd h₀ h.2.1, fun h => absurd hE h.2⟩
  · have hzero : e.toNat ≠ 0 := fun h => h₀ (BitVec.eq_of_toNat_eq h)
    rw [if_neg h₀] at hM hE
    refine ⟨hpos, by omega, by omega, by omega, .inr (by omega), ?_⟩
    rw [hl, hm₀, Ne, Ne, he₁]
    constructor
    · rintro ⟨h, -, h₁⟩
      omega
    · rintro ⟨h, h₁⟩
      exact ⟨by omega, h₀, by omega⟩

lemma bits_of_zero {e : BitVec 11} {m : BitVec 52} (h : wholeMantissa e m = 0) :
    e = 0#11 ∧ m = 0#52 := by
  unfold wholeMantissa at h
  split at h
  · next he => exact ⟨he, BitVec.eq_of_toNat_eq h⟩
  · omega

/-- The bits of a number determine it. -/
lemma eq_of_bits {x y : Float} (h : x.toModel.toBits.toBitVec = y.toModel.toBits.toBitVec) :
    x = y := by
  obtain ⟨⟨bits, valid⟩⟩ := x
  obtain ⟨⟨bits', valid'⟩⟩ := y
  obtain rfl : bits = bits' := UInt64.toBitVec_inj.1 h
  rfl

/-- **Parts of a finite number**: it is a zero, or the number with the parts that are read
off its bits. -/
theorem ofFloat?_cases {x : Float} (hx : x.isFinite = true) :
    ∃ b, ofFloat? x = some b ∧
      (b.mantissa = 0 ∧ x = (if b.negative then -0.0 else 0.0) ∨
        ∃ hb : b.Canonical, x = signed b.sign b hb) := by
  obtain ⟨s, e, m, hbits⟩ := exists_packComponents x.toModel.toBits.toBitVec
  have he : e ≠ -1#11 := by
    rintro rfl
    have hfin : (UnpackedFloat.unpack .binary64 x.toModel.toBits.toBitVec).isFinite = true := hx
    rw [hbits, isFinite_unpack_ones] at hfin
    cases hfin
  obtain ⟨b, hb, hs, hM, hE, hl⟩ := ofFloat?_bits hbits he
  refine ⟨b, hb, ?_⟩
  by_cases h₀ : wholeMantissa e m = 0
  · left
    refine ⟨hM.trans h₀, ?_⟩
    obtain ⟨rfl, rfl⟩ := bits_of_zero h₀
    unfold sign at hs
    split at hs
    · next hn =>
      subst hs
      rw [if_pos hn]
      exact eq_of_bits (hbits.trans (by decide +kernel))
    · next hn =>
      subst hs
      rw [if_neg hn]
      exact eq_of_bits (hbits.trans (by decide +kernel))
  · right
    have hpos : 0 < wholeMantissa e m := Nat.pos_of_ne_zero h₀
    refine ⟨canonical_of_bits he hM hE hl (hM ▸ hpos), eq_of_bits ?_⟩
    rw [hbits, ← pack_finite he hpos, ← hs]
    obtain ⟨n, k, exponent, l⟩ := b
    simp only at hM hE
    subst hM hE
    rfl

end Binary

end RecordRules.Number
