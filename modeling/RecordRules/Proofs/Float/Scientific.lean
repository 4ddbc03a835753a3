import RecordRules.Proofs.Digits
import RecordRules.Proofs.Float.Packing

/-!
Whole numbers times powers of ten, rounded to floating-point numbers. A power that is a
number itself is multiplied or divided by in one operation; past these powers the product
or the quotient is formed exactly. Either way the result is rounded once, so a number in
whose span the decimal lies is what comes out.
-/

namespace RecordRules.Number

open Float.Model Float.Model.UnpackedFloat

variable {b : Binary} (hb : b.Canonical)

/-! ### One operation -/

lemma Binary.Attracts.pos {v : ℚ} (hv : b.Attracts v) (hb : b.Canonical) : 0 < v := by
  have hlow : (0 : ℚ) < b.low := by exact_mod_cast Nat.zero_lt_two.trans_le hb.low_bounds.1
  exact (mul_pos hlow b.unit_pos).trans_le hv.le.1

lemma Binary.Attracts.whole_pos {m : ℕ} {e : ℤ} (hv : b.Attracts (m * 10 ^ e))
    (hb : b.Canonical) : 0 < m := by
  have hten : (0 : ℚ) < 10 ^ e := zpow_pos (by norm_num) e
  exact_mod_cast pos_of_mul_pos_left (hv.pos hb) hten.le

lemma mul_eq {m₁ m₂ : ℕ} {e₁ e₂ : ℤ} (h₁ : 0 < m₁) (h₂ : 0 < m₂)
    (hv : b.Attracts (m₁ * 2 ^ e₁ * (m₂ * 2 ^ e₂))) (hm : 2 ^ 52 ≤ m₁ * m₂) :
    UnpackedFloat.mul .binary64 (.finite .positive m₁ e₁ h₁) (.finite .positive m₂ e₂ h₂) =
      .finite .positive b.mantissa b.exponent hb.pos := by
  have hpos : (0 : ℚ) < 2 ^ (e₁ + e₂) := zpow_pos (by norm_num) _
  change roundWithAccuracy .binary64 .positive (m₁ * m₂) (e₁ + e₂) .exact = _
  refine roundWithAccuracy_eq hb hv ?_ ?_ .positive
  · change (m₁ : ℚ) * 2 ^ e₁ * (m₂ * 2 ^ e₂) / 2 ^ (e₁ + e₂) = (m₁ * m₂ : ℕ)
    rw [div_eq_iff hpos.ne', zpow_add₀ (by norm_num)]
    push_cast
    ring
  · have hne : m₁ * m₂ ≠ 0 := by omega
    have := (Nat.le_log2 hne).2 hm
    rw [targetExponent_eq]
    unfold totalExponent
    omega

/-- What is left of a division places the quotient between two whole numbers. -/
lemma cut_accuracyOfFraction {n k : ℕ} (hn : n < k) (q : ℕ) :
    Cut (.ofMantissaAndAccuracy q (accuracyOfFraction n k)) (q + n / k) := by
  have hk : (0 : ℚ) < k := by exact_mod_cast (Nat.zero_le n).trans_lt hn
  unfold accuracyOfFraction
  split
  · next h₀ =>
    rw [h₀]
    change (q : ℚ) + (0 : ℕ) / k = q
    simp
  · next h₀ =>
    have hpos : (0 : ℚ) < n / k := div_pos (by exact_mod_cast Nat.pos_of_ne_zero h₀) hk
    have hlt : (n : ℚ) / k < 1 := by
      rw [div_lt_iff₀ hk, one_mul]
      exact_mod_cast hn
    rcases hcmp : compare (2 * n) k with _ | _ | _
    · have hhalf : (n : ℚ) / k < 1 / 2 := by
        have : 2 * n < k := Nat.compare_eq_lt.1 hcmp
        have : (2 * n : ℚ) < k := by exact_mod_cast this
        rw [div_lt_iff₀ hk]
        linarith
      change (q : ℚ) < q + n / k ∧ (q : ℚ) + n / k < q + 1 / 2
      exact ⟨by linarith, by linarith⟩
    · have hhalf : (n : ℚ) / k = 1 / 2 := by
        have : 2 * n = k := Nat.compare_eq_eq.1 hcmp
        have : (2 * n : ℚ) = k := by exact_mod_cast this
        rw [div_eq_iff hk.ne']
        linarith
      change (q : ℚ) + n / k = q + 1 / 2
      rw [hhalf]
    · have hhalf : 1 / 2 < (n : ℚ) / k := by
        have : k < 2 * n := Nat.compare_eq_gt.1 hcmp
        have : (k : ℚ) < 2 * n := by exact_mod_cast this
        rw [lt_div_iff₀ hk]
        linarith
      change (q : ℚ) + 1 / 2 < q + n / k ∧ (q : ℚ) + n / k < q + 1
      exact ⟨by linarith, by linarith⟩

/-- The quotient of a division has enough bits. -/
lemma le_target_of_div {m₁ m₂ k : ℕ} {e t : ℤ} (h₁ : 0 < m₁) (h₂ : 0 < m₂)
    (ht : t ≤ max (m₁.log2 - m₂.log2 + e - 53) (-1074)) (hk : e - t ≤ k) :
    t ≤ Format.binary64.targetExponent (totalExponent (m₁ * 2 ^ k / m₂) t) := by
  rw [targetExponent_eq]
  unfold totalExponent
  by_cases hmin : t ≤ -1074
  · exact le_max_of_le_right hmin
  · have hq : 2 ^ 52 ≤ m₁ * 2 ^ k / m₂ := by
      rw [Nat.le_div_iff_mul_le h₂]
      calc 2 ^ 52 * m₂ ≤ 2 ^ 52 * 2 ^ (m₂.log2 + 1) := Nat.mul_le_mul_left _ Nat.lt_log2_self.le
        _ = 2 ^ (52 + (m₂.log2 + 1)) := (pow_add 2 _ _).symm
        _ ≤ 2 ^ (m₁.log2 + k) := Nat.pow_le_pow_right (by norm_num) (by omega)
        _ = 2 ^ m₁.log2 * 2 ^ k := pow_add 2 _ _
        _ ≤ m₁ * 2 ^ k := Nat.mul_le_mul_right _ (Nat.log2_self_le h₁.ne')
    have := (Nat.le_log2 (by omega)).2 hq
    omega

lemma div_eq {m₁ m₂ : ℕ} {e₁ e₂ : ℤ} (h₁ : 0 < m₁) (h₂ : 0 < m₂)
    (hv : b.Attracts (m₁ * 2 ^ e₁ / (m₂ * 2 ^ e₂))) :
    UnpackedFloat.div .binary64 (.finite .positive m₁ e₁ h₁) (.finite .positive m₂ e₂ h₂) =
      .finite .positive b.mantissa b.exponent hb.pos := by
  let t := min (e₁ - e₂)
    (Format.binary64.targetExponent (totalExponent m₁ e₁ - totalExponent m₂ e₂))
  let k := (e₁ - e₂ - t).toNat
  have ht : t ≤ e₁ - e₂ := min_le_left _ _
  have hk : (k : ℤ) = e₁ - e₂ - t := by omega
  have hm₂ : (m₂ : ℚ) ≠ 0 := by exact_mod_cast h₂.ne'
  change roundWithAccuracy .binary64 .positive (m₁ <<< k / m₂) t
    (accuracyOfFraction (m₁ <<< k % m₂) m₂) = _
  rw [Nat.shiftLeft_eq]
  refine roundWithAccuracy_eq hb hv ?_ ?_ .positive
  · have hdiv : (m₁ * 2 ^ k : ℚ) = m₂ * (m₁ * 2 ^ k / m₂ : ℕ) + (m₁ * 2 ^ k % m₂ : ℕ) := by
      exact_mod_cast (Nat.div_add_mod (m₁ * 2 ^ k) m₂).symm
    have hpow : (2 : ℚ) ^ e₁ = 2 ^ k * (2 ^ e₂ * 2 ^ t) := by
      rw [← zpow_natCast, ← zpow_add₀ (by norm_num), ← zpow_add₀ (by norm_num)]
      congr 1
      omega
    have hv' : (m₁ : ℚ) * 2 ^ e₁ / (m₂ * 2 ^ e₂) / 2 ^ t =
        (m₁ * 2 ^ k / m₂ : ℕ) + (m₁ * 2 ^ k % m₂ : ℕ) / m₂ := by
      have hquot : (m₁ * 2 ^ k / m₂ : ℚ) =
          (m₁ * 2 ^ k / m₂ : ℕ) + (m₁ * 2 ^ k % m₂ : ℕ) / m₂ := by
        rw [hdiv, add_div, mul_div_cancel_left₀ _ hm₂]
      have hne : (m₂ * 2 ^ e₂ * 2 ^ t : ℚ) ≠ 0 := by positivity
      rw [← hquot, hpow, div_div, div_eq_div_iff hne hm₂]
      ring
    rw [hv']
    exact cut_accuracyOfFraction (Nat.mod_lt _ h₂) _
  · refine le_target_of_div (e := e₁ - e₂) h₁ h₂ ?_ hk.ge
    refine (min_le_right _ _).trans ?_
    rw [targetExponent_eq]
    unfold totalExponent
    omega

/-! ### Whole numbers and powers of ten -/

/-- A whole number below `2 ^ 53` as mantissa and exponent. -/
def wholeBinary (n : ℕ) : Binary where
  negative := false
  mantissa := n * 2 ^ (52 - n.log2)
  exponent := (n.log2 : ℤ) - 52
  lowest := n * 2 ^ (52 - n.log2) == 2 ^ 52

lemma canonical_wholeBinary {n : ℕ} (hpos : 0 < n) (hlt : n < 2 ^ 53) :
    (wholeBinary n).Canonical ∧ 2 ^ 52 ≤ (wholeBinary n).mantissa := by
  have hlog : n.log2 < 53 := (Nat.log2_lt hpos.ne').2 hlt
  have hlow : 2 ^ 52 ≤ n * 2 ^ (52 - n.log2) := by
    calc 2 ^ 52 = 2 ^ n.log2 * 2 ^ (52 - n.log2) := by rw [← pow_add]; congr 1; omega
      _ ≤ n * 2 ^ (52 - n.log2) := Nat.mul_le_mul_right _ (Nat.log2_self_le hpos.ne')
  have hhigh : n * 2 ^ (52 - n.log2) < 2 ^ 53 := by
    calc n * 2 ^ (52 - n.log2) < 2 ^ (n.log2 + 1) * 2 ^ (52 - n.log2) :=
          Nat.mul_lt_mul_of_pos_right Nat.lt_log2_self (by positivity)
      _ = 2 ^ 53 := by rw [← pow_add]; congr 1; omega
  refine ⟨⟨?_, hhigh, ?_, ?_, .inr hlow, ?_⟩, hlow⟩
  · exact (Nat.two_pow_pos 52).trans_le hlow
  · change -1074 ≤ (n.log2 : ℤ) - 52
    omega
  · change (n.log2 : ℤ) - 52 ≤ 971
    omega
  · change (n * 2 ^ (52 - n.log2) == 2 ^ 52) = true ↔ _ ∧ (n.log2 : ℤ) - 52 ≠ -1074
    rw [beq_iff_eq]
    exact ⟨fun h => ⟨h, by omega⟩, fun h => h.1⟩

lemma value_wholeBinary {n : ℕ} (hpos : 0 < n) (hlt : n < 2 ^ 53) :
    ((wholeBinary n).mantissa : ℚ) * 2 ^ (wholeBinary n).exponent = n := by
  have hlog : n.log2 < 53 := (Nat.log2_lt hpos.ne').2 hlt
  change ((n * 2 ^ (52 - n.log2) : ℕ) : ℚ) * 2 ^ ((n.log2 : ℤ) - 52) = n
  have hexp : (n.log2 : ℤ) - 52 = -((52 - n.log2 : ℕ) : ℤ) := by omega
  rw [hexp, zpow_neg, zpow_natCast]
  push_cast
  rw [mul_assoc, mul_inv_cancel₀ (by positivity), mul_one]

/-- A number lies in its own span. -/
lemma Binary.Canonical.attracts_self {b : Binary} (hb : b.Canonical) :
    b.Attracts (b.mantissa * 2 ^ b.exponent) := by
  have hu := b.unit_pos
  have hlow : (b.low : ℚ) + 1 ≤ 4 * b.mantissa := by exact_mod_cast hb.low_bounds.2.1
  have hlow' := mul_le_mul_of_nonneg_right hlow hu.le
  unfold Binary.Attracts
  rw [b.zpow_exponent, b.high_eq]
  split <;> constructor <;> linarith

lemma round_whole {n : ℕ} (hpos : 0 < n) (hlt : n < 2 ^ 53) :
    UnpackedFloat.round .binary64 .positive n 0 =
      .finite .positive (wholeBinary n).mantissa (wholeBinary n).exponent
        (canonical_wholeBinary hpos hlt).1.pos := by
  have hlog : n.log2 < 53 := (Nat.log2_lt hpos.ne').2 hlt
  obtain ⟨hb, hnormal⟩ := canonical_wholeBinary hpos hlt
  have ht : Format.binary64.targetExponent (totalExponent n 0) = (wholeBinary n).exponent := by
    rw [targetExponent_eq]
    change max ((n.log2 : ℤ) + 1 + 0 - 53) (-1074) = (n.log2 : ℤ) - 52
    omega
  have hshift : (0 - (wholeBinary n).exponent).toNat = 52 - n.log2 := by
    change (0 - ((n.log2 : ℤ) - 52)).toNat = 52 - n.log2
    omega
  have hexp : (0 : ℤ) - ((52 - n.log2 : ℕ) : ℤ) = (wholeBinary n).exponent := by
    change (0 : ℤ) - ((52 - n.log2 : ℕ) : ℤ) = (n.log2 : ℤ) - 52
    omega
  unfold UnpackedFloat.round decreaseExponent
  rw [ht]
  dsimp only
  rw [hshift, hexp, Nat.shiftLeft_eq]
  refine roundWithAccuracy_eq hb hb.attracts_self ?_ ?_ .positive
  · have hne : (2 : ℚ) ^ (wholeBinary n).exponent ≠ 0 := zpow_ne_zero _ (by norm_num)
    rw [mul_div_cancel_right₀ _ hne]
    exact cut_exact _
  · have := (Nat.le_log2 hb.pos.ne').2 hnormal
    change _ ≤ Format.binary64.targetExponent (totalExponent (wholeBinary n).mantissa _)
    rw [targetExponent_eq]
    unfold totalExponent
    omega

lemma toFloat_eq {n : ℕ} (hpos : 0 < n) (hlt : n < 2 ^ 53) :
    n.toUInt64.toFloat =
      Binary.signed .positive (wholeBinary n) (canonical_wholeBinary hpos hlt).1 := by
  have hnat : n.toUInt64.toNat = n := by
    rw [Nat.toUInt64, UInt64.toNat_ofNat']
    omega
  have hnormalize : UnpackedFloat.normalize .binary64 (n : ℤ) 0 .positive =
      UnpackedFloat.round .binary64 .positive n 0 := by
    unfold UnpackedFloat.normalize
    rw [Int.compare_eq_gt.2 (by exact_mod_cast hpos)]
    rfl
  change Float.ofModel (.pack (UnpackedFloat.normalize .binary64 (n.toUInt64.toNat : ℤ) 0
    .positive)) = _
  rw [hnat, hnormalize, round_whole hpos hlt]
  rfl

/-- A floating-point number is a power of ten, with all bits of its mantissa in use. -/
def isPower (e : ℕ) (x : Float) : Bool :=
  match x.toModel.unpack with
  | .finite .positive m k _ =>
    decide (2 ^ 52 ≤ m) && decide (-52 ≤ k) && m * 2 ^ (k + 52).toNat == 10 ^ e * 2 ^ 52
  | _ => false

lemma exists_of_isPower {e : ℕ} {x : Float} (h : isPower e x = true) :
    ∃ m k hm, x.toModel.unpack = .finite .positive m k hm ∧ 2 ^ 52 ≤ m ∧
      (m : ℚ) * 2 ^ k = 10 ^ e := by
  unfold isPower at h
  rcases hx : x.toModel.unpack with _ | _ | _ | ⟨_ | _, m, k, hm⟩ <;> rw [hx] at h
  case finite.positive =>
    have h' : (decide (2 ^ 52 ≤ m) && decide (-52 ≤ k) &&
        m * 2 ^ (k + 52).toNat == 10 ^ e * 2 ^ 52) = true := h
    rw [Bool.and_eq_true, Bool.and_eq_true, decide_eq_true_eq, decide_eq_true_eq,
      beq_iff_eq] at h'
    obtain ⟨⟨hlow, hk⟩, hvalue⟩ := h'
    refine ⟨m, k, hm, rfl, hlow, ?_⟩
    have hexp : (2 : ℚ) ^ (k + 52).toNat = 2 ^ k * 2 ^ 52 := by
      rw [← zpow_natCast, Int.toNat_of_nonneg (by omega), zpow_add₀ (by norm_num)]
      rfl
    have hvalue' : (m : ℚ) * 2 ^ (k + 52).toNat = 10 ^ e * 2 ^ 52 := by exact_mod_cast hvalue
    rw [hexp, ← mul_assoc] at hvalue'
    exact mul_right_cancel₀ (by norm_num) hvalue'
  all_goals cases h

lemma isPower_exact :
    ∀ e : Fin 23, isPower e (Float.exactlyRepresentablePowersOfTen[e]) = true := by
  decide +kernel

lemma float_mul_eq {x y : Float} {m₁ m₂ : ℕ} {e₁ e₂ : ℤ} {h₁ : 0 < m₁} {h₂ : 0 < m₂}
    (hx : x.toModel.unpack = .finite .positive m₁ e₁ h₁)
    (hy : y.toModel.unpack = .finite .positive m₂ e₂ h₂)
    (hv : b.Attracts (m₁ * 2 ^ e₁ * (m₂ * 2 ^ e₂))) (hm : 2 ^ 52 ≤ m₁ * m₂) :
    x * y = Binary.signed .positive b hb := by
  change Float.ofModel (.pack (UnpackedFloat.mul .binary64 x.toModel.unpack y.toModel.unpack)) = _
  rw [hx, hy, mul_eq hb h₁ h₂ hv hm]
  rfl

lemma float_div_eq {x y : Float} {m₁ m₂ : ℕ} {e₁ e₂ : ℤ} {h₁ : 0 < m₁} {h₂ : 0 < m₂}
    (hx : x.toModel.unpack = .finite .positive m₁ e₁ h₁)
    (hy : y.toModel.unpack = .finite .positive m₂ e₂ h₂)
    (hv : b.Attracts (m₁ * 2 ^ e₁ / (m₂ * 2 ^ e₂))) :
    x / y = Binary.signed .positive b hb := by
  change Float.ofModel (.pack (UnpackedFloat.div .binary64 x.toModel.unpack y.toModel.unpack)) = _
  rw [hx, hy, div_eq hb h₁ h₂ hv]
  rfl

lemma zpow_of_neg {e : ℤ} (h : e < 0) : (10 : ℚ) ^ e = (10 ^ e.natAbs)⁻¹ := by
  rw [← zpow_natCast, ← zpow_neg]
  congr 1
  omega

lemma zpow_of_nonneg {e : ℤ} (h : ¬e < 0) : (10 : ℚ) ^ e = 10 ^ e.natAbs := by
  rw [← zpow_natCast]
  congr 1
  omega

/-- The exact product or quotient of the library's slow way. -/
lemma ofScientific_model {m : ℕ} {e : ℤ} (hpos : 0 < m) (hv : b.Attracts (m * 10 ^ e))
    (he : e ≤ 2048) (hm : -(2048 + m.log2) ≤ e) :
    UnpackedFloat.ofScientific .binary64 m e = .finite .positive b.mantissa b.exponent hb.pos := by
  unfold UnpackedFloat.ofScientific
  rw [dif_neg hpos.ne', if_neg (by change ¬e > 2 ^ 11; omega),
    if_neg (by change ¬e < -(2 ^ 11 + (m.log2 : ℤ)); omega)]
  by_cases h : 0 ≤ e
  · rw [if_pos h]
    refine mul_eq hb _ _ ?_ ?_
    · have hshift : ((m <<< 53 : ℕ) : ℚ) * 2 ^ (-53 : ℤ) = m := by
        rw [Nat.shiftLeft_eq]
        push_cast
        rw [mul_assoc, zpow_neg]
        norm_num
      have hpow : (10 : ℚ) ^ e = 10 ^ e.toNat := by
        rw [← zpow_natCast, Int.toNat_of_nonneg h]
      change b.Attracts (((m <<< 53 : ℕ) : ℚ) * 2 ^ (-53 : ℤ) * ((10 ^ e.toNat : ℕ) * 2 ^ (0 : ℤ)))
      rw [hshift, zpow_zero, mul_one]
      push_cast
      rwa [← hpow]
    · change 2 ^ 52 ≤ m <<< 53 * 10 ^ e.toNat
      rw [Nat.shiftLeft_eq]
      have hten : 0 < 10 ^ e.toNat := by positivity
      calc 2 ^ 52 ≤ m * 2 ^ 53 := by omega
        _ ≤ m * 2 ^ 53 * 10 ^ e.toNat := Nat.le_mul_of_pos_right _ hten
  · rw [if_neg h]
    refine div_eq hb _ _ ?_
    have hpow : (10 : ℚ) ^ e = (10 ^ (-e).toNat)⁻¹ := by
      rw [← zpow_natCast, ← zpow_neg]
      congr 1
      omega
    rw [zpow_zero, mul_one, mul_one]
    push_cast
    rwa [div_eq_mul_inv, ← hpow]

/-- A whole number times a power of ten is rounded once. -/
theorem ofScientific_eq {m : ℕ} {e : ℤ} (hv : b.Attracts (m * 10 ^ e)) (he : e ≤ 2048)
    (hm : -(2048 + m.log2) ≤ e) :
    Float.ofScientific m (e < 0) e.natAbs = Binary.signed .positive b hb := by
  have hpos := hv.whole_pos hb
  unfold Float.ofScientific
  split
  · next h =>
    obtain ⟨k, n, hk, hp, hlow, hvalue⟩ :=
      exists_of_isPower (isPower_exact ⟨e.natAbs, by omega⟩)
    have hx := Binary.unpack_signed .positive (canonical_wholeBinary hpos h.1).1
    rw [← toFloat_eq hpos h.1] at hx
    have hw := value_wholeBinary hpos h.1
    split
    · next hneg =>
      refine float_div_eq hb hx hp ?_
      rw [hw, hvalue, div_eq_mul_inv, ← zpow_of_neg (of_decide_eq_true hneg)]
      exact hv
    · next hneg =>
      refine float_mul_eq hb hx hp ?_ ?_
      · rw [hw, hvalue, ← zpow_of_nonneg (by simpa using hneg)]
        exact hv
      · exact hlow.trans (Nat.le_mul_of_pos_left _ (canonical_wholeBinary hpos h.1).1.pos)
  · have hexp :
        (if decide (e < 0) = true then Int.negOfNat e.natAbs else Int.ofNat e.natAbs) = e := by
      split
      · next hneg =>
        have : e < 0 := of_decide_eq_true hneg
        rw [Int.negOfNat_eq, Int.ofNat_eq_natCast]
        omega
      · next hneg =>
        have : ¬e < 0 := by simpa using hneg
        rw [Int.ofNat_eq_natCast]
        omega
    dsimp only
    rw [hexp]
    change Float.ofModel (.pack (UnpackedFloat.ofScientific .binary64 m e)) = _
    rw [ofScientific_model hb hpos hv he hm]
    rfl

/-! ### The bounds of the reader -/

lemma Binary.Attracts.bounds {v : ℚ} (hv : b.Attracts v) (hb : b.Canonical) :
    (2 : ℚ) ^ (-1075 : ℤ) ≤ v ∧ v ≤ 2 ^ (1024 : ℤ) := by
  have hu := b.unit_pos
  have hlow : (2 : ℚ) ≤ b.low := by exact_mod_cast hb.low_bounds.1
  have hhigh : (b.high : ℚ) ≤ 2 ^ 55 := by
    have : b.high ≤ 2 ^ 55 := by
      have := hb.lt
      unfold Binary.high
      omega
    exact_mod_cast this
  have hmin : (2 : ℚ) ^ (-1076 : ℤ) ≤ b.unit :=
    zpow_le_zpow_right₀ (by norm_num) (by have := hb.min; omega)
  have hmax : b.unit ≤ (2 : ℚ) ^ (969 : ℤ) :=
    zpow_le_zpow_right₀ (by norm_num) (by have := hb.max; omega)
  constructor
  · calc (2 : ℚ) ^ (-1075 : ℤ) = 2 * 2 ^ (-1076 : ℤ) := by
          rw [show (-1075 : ℤ) = 1 + -1076 by norm_num, zpow_add₀ (by norm_num), zpow_one]
      _ ≤ b.low * b.unit := mul_le_mul hlow hmin (by positivity) (by positivity)
      _ ≤ v := hv.le.1
  · calc v ≤ b.high * b.unit := hv.le.2
      _ ≤ 2 ^ 55 * 2 ^ (969 : ℤ) := mul_le_mul hhigh hmax hu.le (by positivity)
      _ = 2 ^ (1024 : ℤ) := by
          rw [← zpow_natCast, ← zpow_add₀ (by norm_num)]
          norm_num

lemma zpow_lt_zpow {a b i j : ℕ} (h : a ^ i < b ^ j) : (a : ℚ) ^ (i : ℤ) < b ^ (j : ℤ) := by
  rw [zpow_natCast, zpow_natCast]
  exact_mod_cast h

/-- The decimals in the span of a number have magnitudes that the reader does not cut off. -/
lemma Binary.Attracts.magnitude {m k : ℕ} {e : ℤ} (hv : b.Attracts (m * 10 ^ e))
    (hb : b.Canonical) (hlow : 10 ^ k ≤ m) (hhigh : m < 10 ^ (k + 1)) :
    e + (k + 1 : ℕ) ≤ 310 ∧ -330 ≤ e + (k + 1 : ℕ) := by
  obtain ⟨hmin, hmax⟩ := hv.bounds hb
  have hten : (0 : ℚ) < 10 ^ e := zpow_pos (by norm_num) e
  have hscale (n : ℕ) : (10 : ℚ) ^ (n + e) = 10 ^ n * 10 ^ e := by
    rw [zpow_add₀ (by norm_num), zpow_natCast]
  constructor
  · by_contra h
    have hlow' : (10 : ℚ) ^ k ≤ m := by exact_mod_cast hlow
    have hlt : (2 : ℚ) ^ (1024 : ℤ) < 10 ^ (310 : ℤ) := zpow_lt_zpow (by decide +kernel)
    refine hlt.not_ge ?_
    calc (10 : ℚ) ^ (310 : ℤ) ≤ 10 ^ (k + e) :=
          zpow_le_zpow_right₀ (by norm_num) (by push_cast at h; omega)
      _ = 10 ^ k * 10 ^ e := hscale k
      _ ≤ m * 10 ^ e := mul_le_mul_of_nonneg_right hlow' hten.le
      _ ≤ 2 ^ (1024 : ℤ) := hmax
  · by_contra h
    have hhigh' : (m : ℚ) < 10 ^ (k + 1) := by exact_mod_cast hhigh
    have hlt : (2 : ℚ) ^ (1075 : ℤ) < 10 ^ (331 : ℤ) := zpow_lt_zpow (by decide +kernel)
    refine (inv_strictAnti₀ (by positivity) hlt).not_ge ?_
    rw [← zpow_neg, ← zpow_neg]
    refine le_of_lt ?_
    calc (2 : ℚ) ^ (-1075 : ℤ) ≤ m * 10 ^ e := hmin
      _ < 10 ^ (k + 1) * 10 ^ e := mul_lt_mul_of_pos_right hhigh' hten
      _ = 10 ^ ((k + 1 : ℕ) + e) := (hscale (k + 1)).symm
      _ ≤ 10 ^ (-331 : ℤ) := zpow_le_zpow_right₀ (by norm_num) (by push_cast at h ⊢; omega)

/-- **Reading to the nearest**: a decimal in the span of a number is read as that number. -/
theorem nearest_eq {m : ℕ} {e : ℤ} (hv : b.Attracts (m * 10 ^ e)) :
    nearest m e = Binary.signed .positive b hb := by
  have hpos := hv.whole_pos hb
  obtain ⟨k, hlen, hlow, hhigh⟩ := length_digits hpos
  obtain ⟨htop, hbottom⟩ := hv.magnitude hb hlow hhigh
  have hlog : k ≤ m.log2 := by
    rw [Nat.le_log2 hpos.ne']
    exact (Nat.pow_le_pow_left (by norm_num) k).trans hlow
  unfold nearest
  dsimp only
  rw [hlen, if_neg hpos.ne', if_neg (by omega), if_neg (by omega)]
  exact ofScientific_eq hb hv (by omega) (by omega)

end RecordRules.Number
