import Mathlib.Algebra.Order.Field.Power
import Mathlib.Data.Rat.Cast.Order
import Mathlib.Tactic.Linarith
import Mathlib.Tactic.NormNum
import Mathlib.Tactic.Ring
import RecordRules.Number.Shortest

/-!
Rounding to the nearest number of 53 bits. A mantissa with its two further bits stands for a
point or an interval of the numbers it was cut from; shifts keep this, and rounding takes
the nearest whole number, of two the even one. So whatever lies in the span of a number is
rounded to it.
-/

namespace RecordRules.Number

open Float.Model Float.Model.UnpackedFloat

/-! ### Mantissas that were cut -/

/-- The numbers that a mantissa and its further bits are cut from. -/
def Cut (m : ExtendedMantissa) (y : ℚ) : Prop :=
  match m.roundBit, m.stickyBit with
  | false, false => y = m.mantissa
  | false, true => (m.mantissa : ℚ) < y ∧ y < m.mantissa + 1 / 2
  | true, false => y = m.mantissa + 1 / 2
  | true, true => (m.mantissa : ℚ) + 1 / 2 < y ∧ y < m.mantissa + 1

lemma cut_exact (n : ℕ) : Cut (.ofMantissaAndAccuracy n .exact) n := rfl

lemma Cut.shiftRightOne {m : ExtendedMantissa} {y : ℚ} (h : Cut m y) :
    Cut m.shiftRightOne (y / 2) := by
  obtain ⟨n, round, sticky⟩ := m
  have hn : (n : ℚ) = 2 * (n / 2 : ℕ) + (n % 2 : ℕ) := by
    exact_mod_cast (Nat.div_add_mod n 2).symm
  rcases Nat.mod_two_eq_zero_or_one n with hmod | hmod <;> rw [hmod] at hn <;>
    cases round <;> cases sticky <;>
    simp only [Cut, ExtendedMantissa.shiftRightOne, hmod] at h ⊢ <;> push_cast at hn <;>
    first
      | (simp; linarith)
      | (simp; constructor <;> linarith)

lemma Cut.shiftRight {m : ExtendedMantissa} {y : ℚ} (h : Cut m y) (n : ℕ) :
    Cut (m >>> n) (y / 2 ^ n) := by
  change Cut (n.repeat ExtendedMantissa.shiftRightOne m) (y / 2 ^ n)
  induction n with
  | zero => simpa [Nat.repeat] using h
  | succ n ih =>
    have hn := ih.shiftRightOne
    rwa [div_div, ← pow_succ] at hn

lemma Cut.bounds {m : ExtendedMantissa} {y : ℚ} (h : Cut m y) :
    (m.mantissa : ℚ) ≤ y ∧ y < m.mantissa + 1 := by
  obtain ⟨n, round, sticky⟩ := m
  cases round <;> cases sticky <;> simp only [Cut] at h ⊢ <;> constructor <;> linarith

/-- A whole number is nearest to a number, and it is even where another one is as near. -/
structure Nearest (n : ℕ) (y : ℚ) : Prop where
  low : (n : ℚ) - 1 / 2 ≤ y
  high : y ≤ n + 1 / 2
  low_even : y = n - 1 / 2 → n % 2 = 0
  high_even : y = n + 1 / 2 → n % 2 = 0

lemma nearest_of_lt {n : ℕ} {y : ℚ} (hlow : (n : ℚ) - 1 / 2 < y) (hhigh : y < n + 1 / 2) :
    Nearest n y :=
  ⟨hlow.le, hhigh.le, fun h => absurd h hlow.ne', fun h => absurd h hhigh.ne⟩

/-- At one half the parity decides. -/
lemma nearest_half (n : ℕ) : Nearest (n + n % 2) ((n : ℚ) + 1 / 2) := by
  rcases Nat.mod_two_eq_zero_or_one n with hn | hn <;> rw [hn]
  · exact ⟨by push_cast; linarith, by push_cast; linarith, fun _ => hn, fun _ => hn⟩
  · exact ⟨by push_cast; linarith, by push_cast; linarith, fun _ => by omega, fun _ => by omega⟩

lemma Cut.nearest {m : ExtendedMantissa} {y : ℚ} (h : Cut m y) : Nearest m.roundedMantissa y := by
  obtain ⟨n, round, sticky⟩ := m
  cases round <;> cases sticky
  · have hy : y = n := h
    exact nearest_of_lt (n := n) (by linarith) (by linarith)
  · obtain ⟨hl, hr⟩ : (n : ℚ) < y ∧ y < n + 1 / 2 := h
    exact nearest_of_lt (n := n) (by linarith) hr
  · have hy : y = n + 1 / 2 := h
    rw [hy]
    exact nearest_half n
  · obtain ⟨hl, hr⟩ : (n : ℚ) + 1 / 2 < y ∧ y < n + 1 := h
    exact nearest_of_lt (n := n + 1) (by push_cast; linarith) (by push_cast; linarith)

/-- No other whole number is nearest where this one is, ends excluded if it is odd. -/
lemma Nearest.eq {n k : ℕ} {y : ℚ} (h : Nearest n y) (hlow : (k : ℚ) - 1 / 2 ≤ y)
    (hhigh : y ≤ k + 1 / 2) (hodd : k % 2 = 1 → (k : ℚ) - 1 / 2 < y ∧ y < k + 1 / 2) : n = k := by
  rcases lt_trichotomy n k with hlt | heq | hgt
  · have hle : (n : ℚ) + 1 ≤ k := by exact_mod_cast hlt
    have := h.high
    have hk : (k : ℚ) = n + 1 := by linarith
    have hn : n % 2 = 0 := h.high_even (by linarith)
    have hkn : k = n + 1 := by exact_mod_cast hk
    have := (hodd (by omega)).1
    linarith
  · exact heq
  · have hle : (k : ℚ) + 1 ≤ n := by exact_mod_cast hgt
    have := h.low
    have hk : (n : ℚ) = k + 1 := by linarith
    have hn : n % 2 = 0 := h.low_even (by linarith)
    have hkn : n = k + 1 := by exact_mod_cast hk
    have := (hodd (by omega)).2
    linarith

/-! ### The span of a number -/

namespace Binary

/-- What the finite numbers above zero are, up to their sign. -/
structure Canonical (b : Binary) : Prop where
  pos : 0 < b.mantissa
  lt : b.mantissa < 2 ^ 53
  min : -1074 ≤ b.exponent
  max : b.exponent ≤ 971
  normal : b.exponent = -1074 ∨ 2 ^ 52 ≤ b.mantissa
  lowest : b.lowest = true ↔ b.mantissa = 2 ^ 52 ∧ b.exponent ≠ -1074

/-- A quarter of the distance to the number above. -/
def unit (b : Binary) : ℚ := 2 ^ (b.exponent - 2)

/-- The ends of the span of a number, in units. -/
def low (b : Binary) : ℕ := 4 * b.mantissa - if b.lowest then 1 else 2

def high (b : Binary) : ℕ := 4 * b.mantissa + 2

/-- A number lies in the span; the ends belong to it where the mantissa is even. -/
def Attracts (b : Binary) (v : ℚ) : Prop :=
  if b.mantissa % 2 = 0 then b.low * b.unit ≤ v ∧ v ≤ b.high * b.unit
  else b.low * b.unit < v ∧ v < b.high * b.unit

lemma Canonical.low_bounds {b : Binary} (hb : b.Canonical) :
    2 ≤ b.low ∧ b.low + 1 ≤ 4 * b.mantissa ∧ 4 * b.mantissa ≤ b.low + 2 := by
  have := hb.pos
  unfold low
  split <;> omega

lemma high_eq (b : Binary) : (b.high : ℚ) = 4 * b.mantissa + 2 := by
  unfold high
  push_cast
  rfl

lemma unit_pos (b : Binary) : 0 < b.unit := zpow_pos (by norm_num) _

lemma zpow_exponent (b : Binary) : (2 : ℚ) ^ b.exponent = 4 * b.unit := by
  unfold unit
  rw [zpow_sub₀ (by norm_num)]
  ring

lemma Attracts.le {b : Binary} {v : ℚ} (h : b.Attracts v) :
    b.low * b.unit ≤ v ∧ v ≤ b.high * b.unit := by
  unfold Attracts at h
  split at h
  · exact h
  · exact ⟨h.1.le, h.2.le⟩

lemma Attracts.lt {b : Binary} {v : ℚ} (h : b.Attracts v) (hodd : b.mantissa % 2 = 1) :
    b.low * b.unit < v ∧ v < b.high * b.unit := by
  unfold Attracts at h
  rwa [if_neg (by omega)] at h

end Binary

/-! ### Rounding -/

lemma targetExponent_eq (n : ℤ) : Format.binary64.targetExponent n = max (n - 53) (-1074) := rfl

/-- A number with a cut mantissa lies in the binade of the exponent that it gets. -/
lemma bounds_of_cut {m : ℕ} {e : ℤ} {v : ℚ} (hm : (m : ℚ) ≤ v / 2 ^ e ∧ v / 2 ^ e < m + 1)
    {t : ℤ} (ht : max (totalExponent m e - 53) (-1074) = t) (he : e ≤ t) :
    v < 2 ^ (t + 53) ∧ (t = -1074 ∨ 2 ^ (t + 52) ≤ v) := by
  have two : (2 : ℚ) ≠ 0 := by norm_num
  have hpos : (0 : ℚ) < 2 ^ e := zpow_pos (by norm_num) e
  rw [le_div_iff₀ hpos, div_lt_iff₀ hpos] at hm
  unfold totalExponent at ht
  constructor
  · have hlog : m + 1 ≤ 2 ^ (m.log2 + 1) := Nat.lt_log2_self
    have hlog' : (m : ℚ) + 1 ≤ 2 ^ (m.log2 + 1) := by exact_mod_cast hlog
    calc v < (m + 1) * 2 ^ e := hm.2
      _ ≤ 2 ^ (m.log2 + 1) * 2 ^ e := mul_le_mul_of_nonneg_right hlog' hpos.le
      _ = 2 ^ ((m.log2 + 1 : ℕ) + e) := by rw [zpow_add₀ two, zpow_natCast]
      _ ≤ 2 ^ (t + 53) := zpow_le_zpow_right₀ (by norm_num) (by push_cast; omega)
  · by_cases h : t = -1074
    · exact .inl h
    · right
      have hm₀ : m ≠ 0 := by
        rintro rfl
        rw [Nat.log2_zero] at ht
        omega
      have hlog : 2 ^ m.log2 ≤ m := Nat.log2_self_le hm₀
      have hlog' : (2 : ℚ) ^ m.log2 ≤ m := by exact_mod_cast hlog
      have ht' : t + 52 = (m.log2 : ℤ) + e := by omega
      calc (2 : ℚ) ^ (t + 52) = 2 ^ m.log2 * 2 ^ e := by rw [ht', zpow_add₀ two, zpow_natCast]
        _ ≤ m * 2 ^ e := mul_le_mul_of_nonneg_right hlog' hpos.le
        _ ≤ v := hm.1

/-- What lies in the span of a number gets its exponent, or the one below at the lower end
of a binade. -/
lemma exponent_cases {b : Binary} (hb : b.Canonical) {v : ℚ} (hv : b.Attracts v) {t : ℤ}
    (hmin : -1074 ≤ t) (hlt : v < 2 ^ (t + 53)) (hle : t = -1074 ∨ 2 ^ (t + 52) ≤ v) :
    t = b.exponent ∨ t = b.exponent - 1 ∧ b.lowest = true := by
  have hu := b.unit_pos
  have hmono {i j : ℤ} (h : i ≤ j) : (2 : ℚ) ^ i ≤ 2 ^ j := zpow_le_zpow_right₀ (by norm_num) h
  have hscale (n : ℕ) : (2 : ℚ) ^ (b.exponent + n) = 2 ^ n * (4 * b.unit) := by
    rw [zpow_add₀ (by norm_num), zpow_natCast, b.zpow_exponent, mul_comm]
  obtain ⟨hlow, hhigh⟩ := hv.le
  rcases lt_trichotomy t b.exponent with h | h | h
  · right
    -- a number below the binade lies in the span of the lowest of the binade alone
    have hnormal : 2 ^ 52 ≤ b.mantissa := by
      have := hb.normal
      omega
    have hv' : v < 2 ^ 54 * b.unit := by
      have : v < 2 ^ (b.exponent + (52 : ℕ)) := hlt.trans_le (hmono (by push_cast; omega))
      rw [hscale] at this
      linarith
    have hlow' : b.low < 2 ^ 54 := by
      have : (b.low : ℚ) * b.unit < 2 ^ 54 * b.unit := hlow.trans_lt hv'
      exact_mod_cast lt_of_mul_lt_mul_right this hu.le
    have hlowest : b.lowest = true := by
      rw [hb.lowest]
      unfold Binary.low at hlow'
      split at hlow'
      · next hl => exact hb.lowest.1 hl
      · omega
    refine ⟨?_, hlowest⟩
    by_contra hne
    have hv'' : v < 2 ^ (b.exponent + (51 : ℕ)) := hlt.trans_le (hmono (by push_cast; omega))
    rw [hscale] at hv''
    have hlow'' : b.low < 2 ^ 53 := by
      have : (b.low : ℚ) * b.unit < 2 ^ 53 * b.unit := by linarith
      exact_mod_cast lt_of_mul_lt_mul_right this hu.le
    unfold Binary.low at hlow''
    rw [if_pos hlowest] at hlow''
    omega
  · exact .inl h
  · exfalso
    have hv' : (2 : ℚ) ^ (b.exponent + (53 : ℕ)) ≤ v := by
      rcases hle with hle | hle
      · have := hb.min
        omega
      · exact (hmono (by push_cast; omega)).trans hle
    rw [hscale] at hv'
    have hhigh' : 2 ^ 55 ≤ b.high := by
      have : (2 : ℚ) ^ 55 * b.unit ≤ b.high * b.unit := by linarith
      exact_mod_cast le_of_mul_le_mul_right this hu
    unfold Binary.high at hhigh'
    have := hb.lt
    omega

/-- The mantissa is rounded to that of the number, or up to a power of two that is shifted
to it. -/
lemma nearest_cases {b : Binary} (hb : b.Canonical) {v : ℚ} (hv : b.Attracts v) {t : ℤ} {n : ℕ}
    (hn : Nearest n (v / 2 ^ t)) (hlt : v < 2 ^ (t + 53))
    (ht : t = b.exponent ∨ t = b.exponent - 1 ∧ b.lowest = true) :
    t = b.exponent ∧ n = b.mantissa ∨ t = b.exponent - 1 ∧ n = 2 ^ 53 ∧ b.mantissa = 2 ^ 52 := by
  have hu := b.unit_pos
  obtain ⟨hlow, hhigh⟩ := hv.le
  rcases ht with rfl | ⟨rfl, hlowest⟩
  · left
    refine ⟨rfl, ?_⟩
    rw [b.zpow_exponent] at hn
    have hlow₄ : (4 * b.mantissa : ℚ) - 2 ≤ b.low := by
      have : (4 * b.mantissa : ℚ) ≤ b.low + 2 := by exact_mod_cast hb.low_bounds.2.2
      linarith
    have hlow' := mul_le_mul_of_nonneg_right hlow₄ hu.le
    rw [b.high_eq] at hhigh
    refine hn.eq ?_ ?_ fun hodd => ⟨?_, ?_⟩
    · rw [le_div_iff₀ (by linarith)]
      linarith
    · rw [div_le_iff₀ (by linarith)]
      linarith
    · rw [lt_div_iff₀ (by linarith)]
      linarith [(hv.lt hodd).1]
    · rw [div_lt_iff₀ (by linarith)]
      have := (hv.lt hodd).2
      rw [b.high_eq] at this
      linarith
  · right
    have hm : b.mantissa = 2 ^ 52 := (hb.lowest.1 hlowest).1
    refine ⟨rfl, ?_, hm⟩
    have hscale : (2 : ℚ) ^ (b.exponent - 1) = 2 * b.unit := by
      rw [zpow_sub₀ (by norm_num), b.zpow_exponent]
      ring
    have hlow₄ : (b.low : ℚ) = 2 ^ 54 - 1 := by
      unfold Binary.low
      rw [if_pos hlowest, hm]
      norm_num
    rw [hlow₄] at hlow
    rw [zpow_add₀ (by norm_num), hscale] at hlt
    rw [hscale] at hn
    refine hn.eq ?_ ?_ fun hodd => ?_
    · rw [le_div_iff₀ (by linarith)]
      push_cast
      linarith
    · rw [div_le_iff₀ (by linarith)]
      have : (2 : ℚ) ^ (53 : ℤ) = 2 ^ 53 := by norm_num
      rw [this] at hlt
      push_cast
      linarith
    · norm_num at hodd

lemma shiftToTargetExponent_eq {m : ℕ} {e t : ℤ} (a : Accuracy)
    (ht : Format.binary64.targetExponent (totalExponent m e) = t) (he : e ≤ t) :
    shiftToTargetExponent .binary64 m e a =
      (ExtendedMantissa.ofMantissaAndAccuracy m a >>> (t - e).toNat, t) := by
  unfold shiftToTargetExponent shiftToExponent
  rw [ht]
  refine Prod.ext rfl ?_
  change e + ((t - e).toNat : ℤ) = t
  omega

/-- The second shift of a rounding, which keeps the mantissa of a number and takes the power
of two to it. -/
lemma shift_rounded {b : Binary} (hb : b.Canonical) {t : ℤ} {n : ℕ}
    (h : t = b.exponent ∧ n = b.mantissa ∨
      t = b.exponent - 1 ∧ n = 2 ^ 53 ∧ b.mantissa = 2 ^ 52) :
    ∃ m, shiftToTargetExponent .binary64 n t .exact = (m, b.exponent) ∧
      m.mantissa = b.mantissa := by
  have hlog : b.mantissa.log2 ≤ 52 := by
    have := (Nat.log2_lt hb.pos.ne').2 hb.lt
    omega
  rcases h with ⟨rfl, rfl⟩ | ⟨rfl, rfl, hm⟩
  · have ht : Format.binary64.targetExponent (totalExponent b.mantissa b.exponent) =
        b.exponent := by
      rw [targetExponent_eq]
      unfold totalExponent
      have := hb.min
      rcases hb.normal with hmin | hnormal
      · omega
      · have := (Nat.le_log2 hb.pos.ne').2 hnormal
        omega
    refine ⟨_, shiftToTargetExponent_eq .exact ht le_rfl, ?_⟩
    rw [sub_self]
    rfl
  · have ht : Format.binary64.targetExponent (totalExponent (2 ^ 53) (b.exponent - 1)) =
        b.exponent := by
      rw [targetExponent_eq]
      unfold totalExponent
      rw [Nat.log2_two_pow]
      have := hb.min
      omega
    refine ⟨_, shiftToTargetExponent_eq .exact ht (by omega), ?_⟩
    rw [sub_sub_cancel, hm]
    rfl

/-- **Rounding to the nearest**: what lies in the span of a number is rounded to it. -/
theorem roundWithAccuracy_eq {b : Binary} (hb : b.Canonical) {v : ℚ} (hv : b.Attracts v)
    {m : ℕ} {e : ℤ} {a : Accuracy} (hm : Cut (.ofMantissaAndAccuracy m a) (v / 2 ^ e))
    (he : e ≤ Format.binary64.targetExponent (totalExponent m e)) (s : Sign) :
    roundWithAccuracy .binary64 s m e a = .finite s b.mantissa b.exponent hb.pos := by
  generalize ht : Format.binary64.targetExponent (totalExponent m e) = t at he
  have hcut : Cut (ExtendedMantissa.ofMantissaAndAccuracy m a >>> (t - e).toNat) (v / 2 ^ t) := by
    have hsum : (2 : ℚ) ^ t = 2 ^ e * 2 ^ (t - e).toNat := by
      rw [← zpow_natCast, ← zpow_add₀ (by norm_num)]
      congr 1
      omega
    rw [hsum, ← div_div]
    exact hm.shiftRight _
  obtain ⟨hlt, hle⟩ : v < 2 ^ (t + 53) ∧ (t = -1074 ∨ 2 ^ (t + 52) ≤ v) := by
    refine bounds_of_cut (m := m) ?_ ht he
    cases a with
    | exact => exact hm.bounds
    | inexact o => cases o <;> exact hm.bounds
  have hmin : -1074 ≤ t := by
    rw [← ht, targetExponent_eq]
    exact le_max_right _ _
  have hn := nearest_cases hb hv hcut.nearest hlt (exponent_cases hb hv hmin hlt hle)
  obtain ⟨r, hr, hrm⟩ := shift_rounded hb hn
  unfold roundWithAccuracy
  rw [shiftToTargetExponent_eq a ht he]
  dsimp only
  rw [hr]
  dsimp only
  rw [dif_neg (by rw [hrm]; exact hb.pos.ne')]
  congr 1

end RecordRules.Number
