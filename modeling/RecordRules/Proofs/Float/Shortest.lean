import RecordRules.Proofs.Digits
import RecordRules.Proofs.Float.Rounding

/-!
The shortest digits of a number spell a decimal in its span.
-/

namespace RecordRules.Number

/-! ### The coarsest grid -/

lemma Span.has_neighbour {s : Span} {v k t : ℕ} (h : s.neighbour v k = some t) :
    s.has (t * 10 ^ k) = true := by
  unfold Span.neighbour at h
  dsimp only at h
  split at h
  · next hlow hhigh =>
    split at h
    · obtain rfl := Option.some.inj h
      exact hhigh
    · obtain rfl := Option.some.inj h
      exact hlow
  · next hlow _ =>
    obtain rfl := Option.some.inj h
    exact hlow
  · next _ hhigh =>
    obtain rfl := Option.some.inj h
    exact hhigh
  · cases h

/-- The search ends on the finest grid at the number itself. -/
lemma Span.has_coarsest {s : Span} {v : ℕ} (hv : s.has v = true) (k : ℕ) :
    s.has ((s.coarsest v k).1 * 10 ^ (s.coarsest v k).2) = true := by
  induction k with
  | zero => simpa [Span.coarsest] using hv
  | succ k ih =>
    rw [Span.coarsest]
    split
    · next t ht => exact Span.has_neighbour ht
    · exact ih

/-! ### The span in whole numbers -/

namespace Binary

/-- The factor that makes the units of a number whole, on a grid of powers of ten. -/
def scale (b : Binary) : ℕ :=
  if 0 ≤ b.exponent - 2 then 1 <<< (b.exponent - 2).toNat
  else Nat.pow 5 (-(b.exponent - 2)).toNat

/-- The exponent of the finest grid. -/
def grid (b : Binary) : ℤ := min (b.exponent - 2) 0

def span (b : Binary) : Span := ⟨b.low * b.scale, b.high * b.scale, b.mantissa % 2 == 0⟩

lemma scale_pos (b : Binary) : 0 < b.scale := by
  unfold scale
  split
  · rw [Nat.one_shiftLeft]
    exact Nat.two_pow_pos _
  · exact Nat.pow_pos (by norm_num)

lemma unit_eq (b : Binary) : b.unit = b.scale * 10 ^ b.grid := by
  unfold unit scale grid
  split
  · next h =>
    rw [min_eq_right h, zpow_zero, mul_one, Nat.one_shiftLeft]
    push_cast
    rw [← zpow_natCast, Int.toNat_of_nonneg h]
  · next h =>
    have hfive : ((Nat.pow 5 (-(b.exponent - 2)).toNat : ℕ) : ℚ) = 5 ^ (-(b.exponent - 2)) := by
      change ((5 ^ (-(b.exponent - 2)).toNat : ℕ) : ℚ) = _
      push_cast
      rw [← zpow_natCast, Int.toNat_of_nonneg (by omega)]
    rw [min_eq_left (by omega), hfive, show (10 : ℚ) = 5 * 2 by norm_num, mul_zpow, ← mul_assoc,
      ← zpow_add₀ (by norm_num), neg_add_cancel, zpow_zero, one_mul]

/-- The span in whole numbers is the span of the number. -/
lemma attracts_of_span {b : Binary} {n : ℕ} (h : b.span.has n = true) :
    b.Attracts (n * 10 ^ b.grid) := by
  have hten : (0 : ℚ) < 10 ^ b.grid := zpow_pos (by norm_num) _
  unfold Attracts
  unfold Span.has at h
  rw [b.unit_eq, ← mul_assoc, ← mul_assoc]
  split
  · next heven =>
    have hclosed : b.span.closed = true := beq_iff_eq.2 heven
    rw [if_pos hclosed, Bool.and_eq_true, decide_eq_true_eq, decide_eq_true_eq] at h
    obtain ⟨hlow, hhigh⟩ := h
    have hlow' : (b.low : ℚ) * b.scale ≤ n := by exact_mod_cast hlow
    have hhigh' : (n : ℚ) ≤ b.high * b.scale := by exact_mod_cast hhigh
    exact ⟨mul_le_mul_of_nonneg_right hlow' hten.le, mul_le_mul_of_nonneg_right hhigh' hten.le⟩
  · next hodd =>
    have hopen : ¬b.span.closed = true := fun hc => hodd (beq_iff_eq.1 hc)
    rw [if_neg hopen, Bool.and_eq_true, decide_eq_true_eq, decide_eq_true_eq] at h
    obtain ⟨hlow, hhigh⟩ := h
    have hlow' : (b.low : ℚ) * b.scale < n := by exact_mod_cast hlow
    have hhigh' : (n : ℚ) < b.high * b.scale := by exact_mod_cast hhigh
    exact ⟨mul_lt_mul_of_pos_right hlow' hten, mul_lt_mul_of_pos_right hhigh' hten⟩

lemma Canonical.span_has {b : Binary} (hb : b.Canonical) :
    b.span.has (4 * b.mantissa * b.scale) = true := by
  have hlow : b.low < 4 * b.mantissa := hb.low_bounds.2.1
  have hhigh : 4 * b.mantissa < b.high := by
    unfold high
    omega
  have hlow' := Nat.mul_lt_mul_of_pos_right hlow b.scale_pos
  have hhigh' := Nat.mul_lt_mul_of_pos_right hhigh b.scale_pos
  unfold Span.has
  split <;> rw [Bool.and_eq_true, decide_eq_true_eq, decide_eq_true_eq]
  · exact ⟨hlow'.le, hhigh'.le⟩
  · exact ⟨hlow', hhigh'⟩

end Binary

/-! ### Decimals -/

/-- The number that a decimal stands for. -/
def Decimal.value (d : Decimal) : ℚ := ofDigits d.digits * 10 ^ (d.exponent + 1 - d.digits.length)

/-- Zeros at the end do not count. -/
lemma value_trimZeros (ds : List Char) (e : ℤ) :
    Decimal.value ⟨trimZeros ds, e⟩ = Decimal.value ⟨ds, e⟩ := by
  obtain ⟨n, hn⟩ := exists_zeros ds
  rw [trimZeros_eq]
  generalize ds.rdropWhile (· == '0') = p at hn
  subst hn
  unfold Decimal.value
  dsimp only
  rw [ofDigits_append_zeros]
  split
  · next hp =>
    subst hp
    change ((0 : ℕ) : ℚ) * _ = (0 * 10 ^ n : ℕ) * _
    rw [Nat.zero_mul, Nat.cast_zero, zero_mul, zero_mul]
  · have hexp : e + 1 - p.length = (n : ℤ) + (e + 1 - (p ++ List.replicate n '0').length) := by
      rw [List.length_append, List.length_replicate]
      push_cast
      omega
    rw [hexp, zpow_add₀ (by norm_num), zpow_natCast]
    push_cast
    rw [mul_assoc]

/-- **The shortest digits** of a number spell a decimal that lies in its span. -/
theorem Binary.Canonical.attracts_shortest {b : Binary} (hb : b.Canonical) :
    b.Attracts b.shortest.value := by
  let v := 4 * b.mantissa * b.scale
  let t := b.span.coarsest v ((digits v).length - 1)
  have ht : b.span.has (t.1 * 10 ^ t.2) = true := Span.has_coarsest hb.span_has _
  have hvalue : b.shortest.value = (t.1 * 10 ^ t.2 : ℕ) * 10 ^ b.grid := by
    change Decimal.value ⟨trimZeros (digits t.1),
      ((digits t.1).length : ℤ) - 1 + t.2 + b.grid⟩ = _
    have hexp : ((digits t.1).length : ℤ) - 1 + t.2 + b.grid + 1 -
        (digits t.1).length = t.2 + b.grid := by omega
    rw [value_trimZeros]
    unfold Decimal.value
    dsimp only
    rw [ofDigits_digits, hexp, zpow_add₀ (by norm_num), zpow_natCast]
    push_cast
    rw [mul_assoc]
  rw [hvalue]
  exact attracts_of_span ht

end RecordRules.Number
