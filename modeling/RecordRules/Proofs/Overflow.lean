import RecordRules.Proofs.Exactness

/-!
When two integers of 64 bits have a result that 64 bits do not hold.

A quotient is too large in one case, the least number divided by minus one, and a remainder
never is. A remainder is taken together with its quotient, so that it overflows in that one
case too, although it would be zero. All other overflows are those of the exact result.
-/

namespace RecordRules

namespace Number

lemma eq_minValue {n : Int64} : n = Int64.minValue ↔ n.toInt = -0x8000000000000000 :=
  Int64.toInt_inj.symm

lemma eq_neg_one {n : Int64} : n = -1 ↔ n.toInt = -1 :=
  Int64.toInt_inj.symm

/-- A divisor of size two or more at least halves the number; the others give nothing, the
number itself, or its opposite. -/
lemma fits_tdiv {a b : Int} (ha : Fits a) (h : ¬(a = -0x8000000000000000 ∧ b = -1)) :
    Fits (a.tdiv b) := by
  unfold Fits at ha ⊢
  by_cases hb : 2 ≤ b.natAbs
  · have hhalf : (a.tdiv b).natAbs ≤ a.natAbs / 2 := by
      rw [Int.natAbs_tdiv]
      exact Nat.div_le_div_left hb (by decide)
    omega
  · obtain rfl | rfl | rfl : b = 0 ∨ b = 1 ∨ b = -1 := by omega
    · rw [Int.tdiv_zero]
      decide
    · rwa [Int.tdiv_one]
    · rw [Int.tdiv_neg, Int.tdiv_one]
      omega

/-- A remainder is no larger than the number that is divided, and has its sign. -/
lemma fits_tmod {a : Int} (ha : Fits a) (b : Int) : Fits (a.tmod b) := by
  have hsize : (a.tmod b).natAbs ≤ a.natAbs := by
    rw [Int.natAbs_tmod]
    exact Nat.mod_le ..
  unfold Fits at ha ⊢
  rcases Int.le_total 0 a with h | h
  · have := Int.tmod_nonneg b h
    omega
  · have := Int.tmod_nonneg b (Int.neg_nonneg_of_nonpos h)
    rw [Int.neg_tmod] at this
    omega

end Number

open Number (Fits)

namespace Arithmetic

/-- The least number is taken modulo minus one. -/
def LeastByMinusOne (op : Arithmetic) (a b : Int64) : Prop :=
  op = .rem ∧ a = Int64.minValue ∧ b = -1

variable {op : Arithmetic} {a b : Int64}

lemma fits_div_iff : Fits (div.exact a.toInt b.toInt) ↔ ¬(a = Int64.minValue ∧ b = -1) := by
  rw [Number.eq_minValue, Number.eq_neg_one]
  refine ⟨?_, Number.fits_tdiv (Number.fits_toInt a)⟩
  rintro hfits ⟨ha, hb⟩
  rw [ha, hb] at hfits
  exact absurd hfits.2 (by decide)

lemma onInts_eq_none : op.onInts a b = none ↔
    ¬Fits (op.exact a.toInt b.toInt) ∨ op.LeastByMinusOne a b := by
  have hquotient : (op = .rem ∧ ¬Fits (div.exact a.toInt b.toInt)) ↔ op.LeastByMinusOne a b := by
    rw [fits_div_iff, not_not, LeastByMinusOne]
  rw [← hquotient]
  refine ⟨of_onInts_eq_none, fun h => ?_⟩
  by_contra hsome
  obtain ⟨n, hn⟩ := Option.ne_none_iff_exists'.1 hsome
  obtain ⟨hexact, hfits⟩ := onInts_eq_some.1 hn
  rcases h with h | ⟨hop, h⟩
  · exact h (hexact ▸ Number.fits_toInt n)
  · exact h (hfits hop)

/-- Nothing is too large where the divisor is zero: such a quotient counts as zero, and the
remainder as the number itself. -/
lemma fits_of_divisor_zero (hop : op.divides = true) : Fits (op.exact a.toInt 0) := by
  cases op with
  | add | sub | mul => cases hop
  | div => exact Number.fits_tdiv (Number.fits_toInt a) (by simp)
  | rem => exact Number.fits_tmod (Number.fits_toInt a) 0

/-- Two integers give one of three outcomes. -/
lemma calculateInts_cases (op : Arithmetic) (a b : Int64) :
    (op.divides = true ∧ b = 0 ∧ Evaluate.calculateInts op a b = .error (.divisionByZero op)) ∨
    (¬(op.divides = true ∧ b = 0) ∧ op.onInts a b = none ∧
      Evaluate.calculateInts op a b = .error (.arithmeticOverflow op)) ∨
    ¬(op.divides = true ∧ b = 0) ∧
      ∃ n, op.onInts a b = some n ∧ Evaluate.calculateInts op a b = .ok (.int n) := by
  unfold Evaluate.calculateInts
  by_cases hzero : op.divides = true ∧ b = 0
  · exact .inl ⟨hzero.1, hzero.2, if_pos (by simp [hzero])⟩
  · have hif : ¬(op.divides && b == 0) = true := by simpa using hzero
    rw [if_neg hif]
    cases hn : op.onInts a b with
    | none => exact .inr (.inl ⟨hzero, rfl, rfl⟩)
    | some n => exact .inr (.inr ⟨hzero, n, rfl, rfl⟩)

/-- **Overflow means that the result is too large**, the remainder of the least number by
minus one apart. Where nothing is divided by zero, every other result that 64 bits hold is
given. -/
theorem overflow_iff (op : Arithmetic) (a b : Int64) :
    (∀ op', Evaluate.calculate (.int a) op (.int b) = .error (.arithmeticOverflow op') ↔
      op' = op ∧ (¬Fits (op.exact a.toInt b.toInt) ∨ op.LeastByMinusOne a b)) ∧
    ((∃ n, Evaluate.calculate (.int a) op (.int b) = .ok (.int n) ∧
        n.toInt = op.exact a.toInt b.toInt) ↔
      ¬(op.divides = true ∧ b = 0) ∧ Fits (op.exact a.toInt b.toInt) ∧
        ¬op.LeastByMinusOne a b) := by
  change (∀ op', Evaluate.calculateInts op a b = _ ↔ _) ∧
    ((∃ n, Evaluate.calculateInts op a b = _ ∧ _) ↔ _)
  rcases calculateInts_cases op a b with ⟨hop, rfl, h⟩ | ⟨hzero, hnone, h⟩ | ⟨hzero, n, hn, h⟩
  · have hfits : Fits (op.exact a.toInt (0 : Int64).toInt) := fits_of_divisor_zero hop
    have hleast : ¬op.LeastByMinusOne a 0 := fun h => absurd h.2.2 (by decide)
    rw [h]
    refine ⟨fun op' => iff_of_false nofun ?_, iff_of_false nofun ?_⟩
    · rintro ⟨-, h | h⟩
      · exact h hfits
      · exact hleast h
    · exact fun h => h.1 ⟨hop, rfl⟩
  · have hover := onInts_eq_none.1 hnone
    rw [h]
    refine ⟨fun op' => ?_, iff_of_false nofun ?_⟩
    · simp [hover, eq_comm]
    · rintro ⟨-, hfits, hleast⟩
      exact hover.elim (· hfits) hleast
  · have hover := mt onInts_eq_none.2 (by rw [hn]; exact Option.some_ne_none n)
    rw [not_or, not_not] at hover
    have hexact := (onInts_eq_some.1 hn).1
    rw [h]
    refine ⟨fun op' => iff_of_false nofun ?_, iff_of_true ⟨n, rfl, hexact⟩ ⟨hzero, hover⟩⟩
    rintro ⟨-, h | h⟩
    · exact h hover.1
    · exact hover.2 h

/-- The exact remainder is zero, and is reported as an overflow. -/
theorem least_rem_minus_one :
    Evaluate.calculate (.int Int64.minValue) .rem (.int (-1)) = .error (.arithmeticOverflow .rem) ∧
      rem.exact Int64.minValue.toInt (-1 : Int64).toInt = 0 ∧ Fits 0 :=
  ⟨rfl, by decide, by decide, by decide⟩

end Arithmetic

end RecordRules
