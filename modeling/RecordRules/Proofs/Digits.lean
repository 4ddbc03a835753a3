import Mathlib.Algebra.Order.Ring.Nat
import Mathlib.Data.List.DropRight
import RecordRules.Number.Shortest

/-!
Decimal digits and the number that they spell. Zeros in front do not count, and each zero
at the end is a factor of ten.
-/

namespace RecordRules.Number

/-- Decimal digits, at least one. -/
def AreDigits (ds : List Char) : Prop := ds ≠ [] ∧ ∀ c ∈ ds, c.isDigit = true

def tenDigits : List Char := ['0', '1', '2', '3', '4', '5', '6', '7', '8', '9']

lemma mem_tenDigits {c : Char} (hc : c.isDigit = true) : c ∈ tenDigits := by
  have h : c.toNat ∈ List.range' 48 10 := by
    have := Char.isDigit_iff_toNat.1 hc
    simp only [Char.reduceToNat] at this
    rw [List.mem_range'_1]
    omega
  have hall : ∀ n ∈ List.range' 48 10, Char.ofNat n ∈ tenDigits := by decide
  rw [← Char.ofNat_toNat c]
  exact hall _ h

lemma not_of_isDigit {p : Char → Bool} (hp : tenDigits.any p = false) {c : Char}
    (hc : c.isDigit = true) : p c = false := by
  rw [List.any_eq_false] at hp
  exact eq_false_of_ne_true (hp c (mem_tenDigits hc))

/-! ### The digits of a number -/

lemma isDigit_of_mem_digits {n : ℕ} {c : Char} (hc : c ∈ digits n) : c.isDigit = true :=
  Nat.isDigit_of_mem_toDigits (by decide) (by decide) hc

lemma not_mem_digits {c : Char} (hc : c.isDigit = false) (n : ℕ) : c ∉ digits n := by
  intro h
  rw [isDigit_of_mem_digits h] at hc
  cases hc

lemma areDigits_digits (n : ℕ) : AreDigits (digits n) :=
  ⟨Nat.toDigits_ne_nil, fun _ hc => isDigit_of_mem_digits hc⟩

lemma ofDigits_digits (n : ℕ) : ofDigits (digits n) = n := Nat.ofDigitChars_ten_toDigits

lemma digits_injective : Function.Injective digits :=
  Function.LeftInverse.injective ofDigits_digits

lemma natural?_digits (n : ℕ) : natural? (digits n) = some n := by
  obtain ⟨hne, hd⟩ := areDigits_digits n
  unfold natural?
  rw [if_pos ⟨hne, List.all_eq_true.2 hd⟩, ofDigits_digits]

/-- The number of digits tells between which powers of ten the number lies. -/
lemma length_digits {n : ℕ} (hpos : 0 < n) :
    ∃ k, (digits n).length = k + 1 ∧ 10 ^ k ≤ n ∧ n < 10 ^ (k + 1) := by
  have hlen : 0 < (digits n).length := Nat.length_toDigits_pos
  refine ⟨(digits n).length - 1, by omega, ?_, ?_⟩
  · rcases Nat.eq_zero_or_pos ((digits n).length - 1) with h | h
    · rw [h]
      exact hpos
    · by_contra hlt
      have : (digits n).length ≤ (digits n).length - 1 :=
        (Nat.length_toDigits_le_iff (by decide) h).2 (by omega)
      omega
  · rw [← Nat.length_toDigits_le_iff (by decide) (by omega)]
    change (digits n).length ≤ _
    omega

/-! ### Zeros -/

lemma ofDigits_append_zeros (ds : List Char) (n : ℕ) :
    ofDigits (ds ++ List.replicate n '0') = ofDigits ds * 10 ^ n := by
  change Nat.ofDigitChars 10 (ds ++ List.replicate n '0') 0 = Nat.ofDigitChars 10 ds 0 * 10 ^ n
  rw [Nat.ofDigitChars_append, Nat.ofDigitChars_replicate_zero, Nat.mul_comm]

lemma ofDigits_zeros_append (ds : List Char) (n : ℕ) :
    ofDigits (List.replicate n '0' ++ ds) = ofDigits ds := by
  change Nat.ofDigitChars 10 (List.replicate n '0' ++ ds) 0 = Nat.ofDigitChars 10 ds 0
  rw [Nat.ofDigitChars_append, Nat.ofDigitChars_replicate_zero, Nat.mul_zero]

lemma trimZeros_eq (ds : List Char) :
    trimZeros ds = if ds.rdropWhile (· == '0') = [] then ['0'] else ds.rdropWhile (· == '0') := by
  unfold trimZeros
  split
  · next h => exact (if_pos h).symm
  · next h => exact (if_neg h).symm

/-- The digits are those that are left and zeros after them. -/
lemma exists_zeros (ds : List Char) :
    ∃ n, ds.rdropWhile (· == '0') ++ List.replicate n '0' = ds := by
  refine ⟨(ds.rtakeWhile (· == '0')).length, ?_⟩
  have hzeros : ds.rtakeWhile (· == '0') =
      List.replicate (ds.rtakeWhile (· == '0')).length '0' := by
    rw [List.eq_replicate_iff]
    refine ⟨rfl, fun c hc => ?_⟩
    have hc' : (c == '0') = true := List.mem_rtakeWhile_imp (p := (· == '0')) hc
    exact eq_of_beq hc'
  rw [← hzeros, List.rdropWhile_append_rtakeWhile]

lemma areDigits_trimZeros {ds : List Char} (h : ∀ c ∈ ds, c.isDigit = true) :
    AreDigits (trimZeros ds) := by
  rw [trimZeros_eq]
  split
  · exact ⟨by simp, by simp⟩
  · next hne => exact ⟨hne, fun c hc => h c ((List.rdropWhile_prefix _ ds).mem hc)⟩

lemma areDigits_shortest (b : Binary) : AreDigits b.shortest.digits :=
  areDigits_trimZeros fun _ hc => isDigit_of_mem_digits hc

end RecordRules.Number
