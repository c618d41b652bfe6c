import OpenJobSpec.Foundation.HalfEven
import OpenJobSpec.Python.DecimalText

/-! # What rounding does to a value

The rounded number depends on the value alone, not on the zeros at the end of
its coefficient, and has digits enough for another exact step.
-/
namespace OpenJobSpec.Decimal
open HalfEven

theorem dropDigits_eq (n digits : ℕ) : dropDigits n digits = nearest n (10 ^ digits) := rfl

/-- How many digits a number has past the significant ones. -/
def past (n : ℕ) : ℕ := Nat.log 10 n + 1 - precision

theorem excess_eq {d : Decimal} (h : smallestExponent ≤ d.exponent) :
    d.excess = past d.coefficient := by
  have hzero : (smallestExponent - d.exponent).toNat = 0 := by omega
  rw [excess, hzero, Nat.max_zero, past]

theorem rounded_eq {c : ℕ} {x : ℤ} (h : smallestExponent ≤ x) :
    rounded ⟨c, x⟩ = ⟨dropDigits c (past c), x + past c⟩ := by
  rw [rounded, excess_eq h]

theorem dropDigits_zero (c : ℕ) : dropDigits c 0 = c := by
  rw [dropDigits_eq, pow_zero, nearest_of_dvd Nat.one_pos (one_dvd c), Nat.div_one]

theorem value_ten (c : ℕ) (x : ℤ) : value ⟨c * 10, x - 1⟩ = value ⟨c, x⟩ := by
  unfold value
  rw [zpow_sub₀ (by norm_num)]
  push_cast
  ring

theorem rounded_ten {c : ℕ} {x : ℤ} (h : smallestExponent ≤ x - 1) :
    (rounded ⟨c * 10, x - 1⟩).value = (rounded ⟨c, x⟩).value := by
  rw [rounded_eq h, rounded_eq (by omega : smallestExponent ≤ x)]
  by_cases hc : c = 0
  · rw [hc]
    simp [value, dropDigits, past, precision]
  have hlog : Nat.log 10 (c * 10) = Nat.log 10 c + 1 := Nat.log_mul_base (by norm_num) hc
  by_cases hlong : precision ≤ Nat.log 10 c + 1
  · have hpast : past (c * 10) = past c + 1 := by
      unfold past
      omega
    rw [hpast, dropDigits_eq, dropDigits_eq, pow_succ, nearest_mul (by norm_num)]
    push_cast
    congr 2
    ring
  · have hpast : past (c * 10) = 0 ∧ past c = 0 := by
      unfold past
      omega
    rw [hpast.1, hpast.2, dropDigits_zero, dropDigits_zero]
    simpa using value_ten c x

/-- Zeros at the end of a coefficient make no difference. -/
theorem rounded_places {c : ℕ} {x : ℤ} (places : ℕ) (h : smallestExponent ≤ x - places) :
    (rounded ⟨c * 10 ^ places, x - places⟩).value = (rounded ⟨c, x⟩).value := by
  induction places with
  | zero => simp
  | succ places ih =>
    have hstep := rounded_ten (c := c * 10 ^ places) (x := x - places) (by
      push_cast at h
      omega)
    rw [← ih (by push_cast at h; omega), ← hstep, pow_succ, mul_assoc]
    push_cast
    congr 3
    ring

theorem dropDigits_le (n : ℕ) : dropDigits n (past n) ≤ 10 ^ precision := by
  have hquotient : n / 10 ^ past n < 10 ^ precision := by
    rw [Nat.div_lt_iff_lt_mul (Nat.pow_pos (by norm_num)), ← pow_add]
    apply Nat.lt_pow_of_log_lt (by norm_num)
    unfold past
    omega
  rw [dropDigits_eq]
  by_cases hup : RoundsUp n (10 ^ past n)
  · rw [nearest_of_roundsUp hup]
    exact hquotient
  · rw [nearest_of_not_roundsUp hup]
    exact hquotient.le

theorem short_of_le {n : ℕ} (h : n ≤ 10 ^ precision) {e : ℤ} (he : smallestExponent ≤ e) :
    Short (n * (10 : ℚ) ^ e) := by
  rcases h.lt_or_eq with hlt | rfl
  · exact short_of_lt hlt he
  · refine ⟨1, e + precision, by decide, by omega, ?_⟩
    rw [zpow_add₀ (by norm_num), zpow_natCast]
    push_cast
    ring

theorem overflows_iff (d : Decimal) : d.Overflows ↔ (10 : ℚ) ^ digitLimit ≤ d.value := by
  unfold Overflows value
  by_cases hzero : d.coefficient = 0
  · rw [hzero, Nat.cast_zero, zero_mul]
    exact iff_of_false (fun h => h.1 rfl) (not_le.mpr (by positivity))
  have hlow : (10 : ℚ) ^ Nat.log 10 d.coefficient ≤ d.coefficient := by
    exact_mod_cast Nat.pow_log_le_self 10 hzero
  have hhigh : (d.coefficient : ℚ) < 10 ^ (Nat.log 10 d.coefficient + 1) := by
    exact_mod_cast Nat.lt_pow_succ_log_self (by norm_num) d.coefficient
  have hpositive : (0 : ℚ) < 10 ^ d.exponent := zpow_pos (by norm_num) _
  rw [and_iff_right hzero, ← zpow_natCast]
  constructor
  · intro hle
    calc (10 : ℚ) ^ (digitLimit : ℤ) ≤ 10 ^ (Nat.log 10 d.coefficient + d.exponent : ℤ) :=
          zpow_le_zpow_right₀ (by norm_num) hle
      _ = 10 ^ Nat.log 10 d.coefficient * 10 ^ d.exponent := by
        rw [zpow_add₀ (by norm_num), zpow_natCast]
      _ ≤ d.coefficient * 10 ^ d.exponent := mul_le_mul_of_nonneg_right hlow hpositive.le
  · intro hle
    by_contra hlt
    have hbelow : (d.coefficient : ℚ) * 10 ^ d.exponent < 10 ^ (digitLimit : ℤ) := by
      calc (d.coefficient : ℚ) * 10 ^ d.exponent
          < 10 ^ (Nat.log 10 d.coefficient + 1) * 10 ^ d.exponent :=
            mul_lt_mul_of_pos_right hhigh hpositive
        _ = 10 ^ (((Nat.log 10 d.coefficient + 1 : ℕ) : ℤ) + d.exponent) := by
          rw [zpow_add₀ (by norm_num), zpow_natCast]
        _ ≤ 10 ^ (digitLimit : ℤ) := zpow_le_zpow_right₀ (by norm_num) (by push_cast; omega)
    exact absurd hle (not_le.mpr hbelow)

end OpenJobSpec.Decimal
