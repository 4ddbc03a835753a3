import RecordRules.Proofs.Float.Scientific

/-!
Whole numbers as floating-point numbers. Rounding takes the exponent of a number up by no more
than the bits of its mantissa, so that whole numbers of 64 bits are far from infinity.
-/

namespace RecordRules.Number

open Float.Model Float.Model.UnpackedFloat

/-! ### Packing -/

lemma isFinite_pack {s : Sign} {n : ℕ} {e : ℤ} {hn : 0 < n} (he : e ≤ 971) :
    (Float.ofModel (.pack (.finite s n e hn))).isFinite = true := by
  change (UnpackedFloat.unpack .binary64 (UnpackedFloat.pack .binary64 (.finite s n e hn))).isFinite
    = true
  have parts {b : BitVec 11} {m : BitVec 52} (hb : b ≠ -1#11) :
      (UnpackedFloat.unpack .binary64 (packComponents .binary64 s b m)).isFinite = true := by
    by_cases hm : 0 < wholeMantissa b m
    · rw [unpack_finite hb hm]
      rfl
    · rw [unpack_packComponents, ofParts, if_neg hb, dif_neg hm]
      rfl
  rw [pack_eq rfl (by omega)]
  split
  · refine parts fun h => ?_
    have hnat := congrArg BitVec.toNat h
    rw [BitVec.toNat_ofNat] at hnat
    change _ = 2047 at hnat
    omega
  · exact parts (by decide)

lemma isFinite_pack_zero (s : Sign) : (Float.ofModel (.pack (.zero s))).isFinite = true := by
  cases s <;> decide +kernel

/-! ### Rounding -/

lemma mantissa_shiftRight (m : ExtendedMantissa) (n : ℕ) : (m >>> n).mantissa ≤ m.mantissa := by
  change (n.repeat ExtendedMantissa.shiftRightOne m).mantissa ≤ m.mantissa
  induction n with
  | zero => exact le_rfl
  | succ n ih => exact (Nat.div_le_self _ 2).trans ih

lemma roundedMantissa_le (m : ExtendedMantissa) : m.roundedMantissa ≤ m.mantissa + 1 := by
  obtain ⟨n, round, sticky⟩ := m
  have hodd : n % 2 < 2 := Nat.mod_lt n (by decide)
  cases round <;> cases sticky
  · exact Nat.le_succ n
  · exact Nat.le_succ n
  · change n + n % 2 ≤ n + 1
    omega
  · exact le_rfl

/-- The exponent that a shift ends with. -/
lemma snd_shiftToTargetExponent (m : ℕ) (e : ℤ) (a : Accuracy) :
    (shiftToTargetExponent .binary64 m e a).2 = max e (max (m.log2 + 1 + e - 53) (-1074)) := by
  change e + ((Format.binary64.targetExponent (totalExponent m e) - e).toNat : ℤ) = _
  rw [targetExponent_eq]
  unfold totalExponent
  omega

theorem isFinite_roundWithAccuracy {m : ℕ} {e : ℤ} (hm : m < 2 ^ 200) (he : e ≤ 0) (s : Sign) :
    (Float.ofModel (.pack (roundWithAccuracy .binary64 s m e .exact))).isFinite = true := by
  have hlog {n : ℕ} (hn : n ≤ 2 ^ 200) : n.log2 ≤ 200 := by
    rcases Nat.eq_zero_or_pos n with rfl | hpos
    · decide
    · have hlt : n < 2 ^ 201 := hn.trans_lt (Nat.pow_lt_pow_right (by decide) (by decide))
      have := (Nat.log2_lt hpos.ne').2 hlt
      omega
  let first := shiftToTargetExponent .binary64 m e .exact
  let second := shiftToTargetExponent .binary64 first.1.roundedMantissa first.2 .exact
  have hfirst : first.2 = max e (max (m.log2 + 1 + e - 53) (-1074)) :=
    snd_shiftToTargetExponent m e .exact
  have hrounded : first.1.roundedMantissa ≤ 2 ^ 200 := by
    have hshift : first.1.mantissa ≤ m := mantissa_shiftRight _ _
    exact (roundedMantissa_le _).trans (by omega)
  have hsecond : second.2 ≤ 971 := by
    have hm' := hlog hm.le
    have hr := hlog hrounded
    have h := snd_shiftToTargetExponent first.1.roundedMantissa first.2 .exact
    change second.2 = _ at h
    omega
  change (Float.ofModel (.pack (if h : second.1.mantissa = 0 then .zero s
    else .finite s second.1.mantissa second.2 (Nat.pos_of_ne_zero h)))).isFinite = true
  by_cases hzero : second.1.mantissa = 0
  · rw [dif_pos hzero]
    exact isFinite_pack_zero s
  · rw [dif_neg hzero]
    exact isFinite_pack hsecond

/-! ### Whole numbers -/

lemma isFinite_signed {s : Sign} {b : Binary} (hb : b.Canonical) :
    (Binary.signed s b hb).isFinite = true := isFinite_pack hb.max

lemma isFinite_neg {x : Float} (hx : x.isFinite = true) : (-x).isFinite = true := by
  obtain ⟨b, -, ⟨-, rfl⟩ | ⟨hb, rfl⟩⟩ := Binary.ofFloat?_cases hx
  · split <;> decide +kernel
  · change (Float.ofModel (.pack (Binary.signed b.sign b hb).toModel.unpack.neg)).isFinite = true
    rw [Binary.unpack_signed]
    exact isFinite_pack hb.max

lemma ofScientific_whole {n : ℕ} (hn : 0 < n) : UnpackedFloat.ofScientific .binary64 n 0 =
    roundWithAccuracy .binary64 .positive (n <<< 53 * 10 ^ 0) (-53 + 0) .exact := by
  unfold UnpackedFloat.ofScientific
  rw [dif_neg hn.ne', if_neg (by change ¬(0 : ℤ) > 2 ^ 11; omega),
    if_neg (by change ¬(0 : ℤ) < -(2 ^ 11 + (n.log2 : ℤ)); omega), if_pos le_rfl]
  rfl

lemma isFinite_ofNat {n : ℕ} (hn : n < 2 ^ 64) : (Float.ofNat n).isFinite = true := by
  change (Float.ofScientific n false 0).isFinite = true
  by_cases hsmall : n < 2 ^ 53
  · rcases Nat.eq_zero_or_pos n with rfl | hpos
    · decide +kernel
    · obtain ⟨hb, -⟩ := canonical_wholeBinary hpos hsmall
      have hv : (wholeBinary n).Attracts (n * 10 ^ (0 : ℤ)) := by
        have h := hb.attracts_self
        rwa [value_wholeBinary hpos hsmall, ← mul_one (n : ℚ), ← zpow_zero (10 : ℚ)] at h
      have h := ofScientific_eq hb hv (by omega) (by omega)
      change Float.ofScientific n false 0 = _ at h
      rw [h]
      exact isFinite_signed hb
  · unfold Float.ofScientific
    rw [dif_neg fun h => hsmall h.1]
    change (Float.ofModel (.pack (UnpackedFloat.ofScientific .binary64 n 0))).isFinite = true
    rw [ofScientific_whole (by omega)]
    refine isFinite_roundWithAccuracy ?_ (by decide) .positive
    rw [Nat.shiftLeft_eq]
    omega

/-- Every integer of 64 bits is a finite floating-point number. -/
theorem isFinite_ofInt {i : ℤ} (hlow : -2 ^ 64 < i) (hhigh : i < 2 ^ 64) :
    (Float.ofInt i).isFinite = true := by
  cases i with
  | ofNat n => exact isFinite_ofNat (by simp only [Int.ofNat_eq_natCast] at hhigh; omega)
  | negSucc n => exact isFinite_neg (isFinite_ofNat (by omega))

end RecordRules.Number
