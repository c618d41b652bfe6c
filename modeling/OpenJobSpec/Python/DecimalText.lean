import OpenJobSpec.Python.Decimal
import OpenJobSpec.Python.Text
import Mathlib.Data.Rat.Floor
import Mathlib.Tactic.FieldSimp
import Mathlib.Tactic.Ring

/-! # What the text of a decimal number says

Rounding leaves a value of at most 28 significant digits as it is, and two
numbers with the same text have the same value.
-/
namespace OpenJobSpec.Decimal

def value (d : Decimal) : ℚ := d.coefficient * (10 : ℚ) ^ d.exponent

/-- No more digits than arithmetic keeps. -/
def Short (q : ℚ) : Prop :=
  ∃ (c : ℕ) (e : ℤ), c < 10 ^ precision ∧ smallestExponent ≤ e ∧ q = c * (10 : ℚ) ^ e

/-! ## Rounding -/

theorem short_of_lt {n : ℕ} (h : n < 10 ^ precision) {e : ℤ} (he : smallestExponent ≤ e) :
    Short (n * (10 : ℚ) ^ e) :=
  ⟨n, e, h, he, rfl⟩

/-- Of two coefficients of one value, one is the other with zeros after it. -/
theorem coefficient_cases {n c : ℕ} {e e' : ℤ} (h : (n : ℚ) * 10 ^ e = c * (10 : ℚ) ^ e') :
    (∃ k : ℕ, e' + k = e ∧ n * 10 ^ k = c) ∨ ∃ k : ℕ, e + k = e' ∧ n = c * 10 ^ k := by
  have hne : (10 : ℚ) ≠ 0 := by norm_num
  rcases le_total e' e with hle | hle
  · obtain ⟨k, rfl⟩ := Int.le.dest hle
    have hpow : (10 : ℚ) ^ e' ≠ 0 := zpow_ne_zero _ hne
    rw [zpow_add₀ hne, zpow_natCast, mul_comm ((10 : ℚ) ^ e'), ← mul_assoc] at h
    exact .inl ⟨k, rfl, by exact_mod_cast mul_right_cancel₀ hpow h⟩
  · obtain ⟨k, rfl⟩ := Int.le.dest hle
    have hpow : (10 : ℚ) ^ e ≠ 0 := zpow_ne_zero _ hne
    rw [zpow_add₀ hne, zpow_natCast, mul_comm ((10 : ℚ) ^ e), ← mul_assoc] at h
    exact .inr ⟨k, rfl, by exact_mod_cast mul_right_cancel₀ hpow h⟩

/-- The digits that rounding takes off a short value are zeros. -/
theorem excess_dvd {d : Decimal} (h : Short d.value) : 10 ^ d.excess ∣ d.coefficient := by
  obtain ⟨c, e, hc, he, hvalue⟩ := h
  by_cases hzero : d.coefficient = 0
  · rw [hzero]
    exact dvd_zero _
  unfold excess
  rcases coefficient_cases hvalue with ⟨k, hk, hcoefficient⟩ | ⟨k, hk, hcoefficient⟩
  · have hlt : d.coefficient < 10 ^ precision :=
      (Nat.le_mul_of_pos_right d.coefficient (Nat.pow_pos (by norm_num))).trans_lt
        (hcoefficient ▸ hc)
    have hlog : Nat.log 10 d.coefficient < precision := Nat.log_lt_of_lt_pow hzero hlt
    have hexcess : max (Nat.log 10 d.coefficient + 1 - precision)
        (smallestExponent - d.exponent).toNat = 0 := by
      omega
    rw [hexcess]
    exact one_dvd _
  · have hlt : d.coefficient < 10 ^ (precision + k) := by
      rw [hcoefficient, pow_add]
      exact Nat.mul_lt_mul_of_pos_right hc (Nat.pow_pos (by norm_num))
    have hlog : Nat.log 10 d.coefficient < precision + k := Nat.log_lt_of_lt_pow hzero hlt
    have hle : max (Nat.log 10 d.coefficient + 1 - precision)
        (smallestExponent - d.exponent).toNat ≤ k := by
      omega
    exact (pow_dvd_pow 10 hle).trans ⟨c, hcoefficient.trans (mul_comm c _)⟩

theorem rounded_value {d : Decimal} (h : Short d.value) : d.rounded.value = d.value := by
  have hdvd := excess_dvd h
  unfold rounded value
  dsimp only
  set excess := d.excess
  have hdrop : dropDigits d.coefficient excess = d.coefficient / 10 ^ excess := by
    unfold dropDigits
    rw [Nat.mod_eq_zero_of_dvd hdvd]
    simp
  have hne : (10 : ℚ) ≠ 0 := by norm_num
  have hcast : ((d.coefficient / 10 ^ excess : ℕ) : ℚ) * 10 ^ excess = d.coefficient := by
    exact_mod_cast Nat.div_mul_cancel hdvd
  rw [hdrop, zpow_add₀ hne, zpow_natCast, ← hcast]
  ring

theorem mul_value {a b : Decimal} (h : Short (a.value * b.value)) :
    (a.mul b).value = a.value * b.value := by
  have hproduct : value ⟨a.coefficient * b.coefficient, a.exponent + b.exponent⟩ =
      a.value * b.value := by
    unfold value
    rw [zpow_add₀ (by norm_num)]
    push_cast
    ring
  unfold mul
  rw [rounded_value (hproduct ▸ h), hproduct]

/-- A coefficient written with a smaller exponent. -/
theorem value_rescaled (d : Decimal) {e : ℤ} (h : e ≤ d.exponent) :
    value ⟨d.coefficient * 10 ^ (d.exponent - e).toNat, e⟩ = d.value := by
  obtain ⟨k, hk⟩ := Int.le.dest h
  have hsub : (d.exponent - e).toNat = k := by omega
  unfold value
  dsimp only
  rw [hsub, ← hk, zpow_add₀ (by norm_num), zpow_natCast]
  push_cast
  ring

theorem add_value {a b : Decimal} (h : Short (a.value + b.value)) :
    (a.add b).value = a.value + b.value := by
  have hsum : value ⟨a.coefficient * 10 ^ (a.exponent - min a.exponent b.exponent).toNat +
      b.coefficient * 10 ^ (b.exponent - min a.exponent b.exponent).toNat,
      min a.exponent b.exponent⟩ = a.value + b.value := by
    rw [← value_rescaled a (min_le_left a.exponent b.exponent),
      ← value_rescaled b (min_le_right a.exponent b.exponent)]
    unfold value
    push_cast
    ring
  unfold add
  dsimp only
  rw [rounded_value (hsum ▸ h), hsum]

/-! ## Digits after the point -/

/-- The number that digits after the point stand for. -/
def fractionValue : List ℕ → ℚ
  | [] => 0
  | d :: ds => (d + fractionValue ds) / 10

theorem fractionValue_concat (ds : List ℕ) (d : ℕ) :
    fractionValue (ds ++ [d]) = fractionValue ds + d / 10 ^ (ds.length + 1) := by
  induction ds with
  | nil => simp [fractionValue]
  | cons c ds ih =>
    rw [List.cons_append, fractionValue, ih, fractionValue, List.length_cons, pow_succ 10 (_ + 1)]
    field_simp
    ring

/-- Zeros at the end do not count. -/
theorem fractionValue_rdropWhile (ds : List ℕ) :
    fractionValue (ds.rdropWhile (· = 0)) = fractionValue ds := by
  induction ds using List.reverseRecOn with
  | nil => rfl
  | append_singleton ds d ih =>
    by_cases hd : d = 0
    · rw [List.rdropWhile_concat_pos _ _ _ (by simpa using hd), ih, fractionValue_concat, hd]
      simp
    · rw [List.rdropWhile_concat_neg _ _ _ (by simpa using hd)]

theorem length_lastDigits (places n : ℕ) : (lastDigits places n).length = places := by
  induction places generalizing n with
  | zero => rfl
  | succ places ih => rw [lastDigits, List.length_append, ih, List.length_singleton]

theorem lastDigits_lt (places n : ℕ) : ∀ d ∈ lastDigits places n, d < 10 := by
  induction places generalizing n with
  | zero => simp [lastDigits]
  | succ places ih =>
    intro d hd
    rcases List.mem_append.mp hd with hd | hd
    · exact ih _ d hd
    · rw [List.mem_singleton.mp hd]
      exact Nat.mod_lt _ (by norm_num)

theorem fractionValue_lastDigits (places n : ℕ) :
    fractionValue (lastDigits places n) = ((n % 10 ^ places : ℕ) : ℚ) / 10 ^ places := by
  induction places generalizing n with
  | zero => simp [lastDigits, fractionValue, Nat.mod_one]
  | succ places ih =>
    have hmod : n % 10 ^ (places + 1) = n % 10 + 10 * (n / 10 % 10 ^ places) := by
      rw [pow_succ', Nat.mod_mul]
    rw [lastDigits, fractionValue_concat, ih, length_lastDigits, hmod, pow_succ' (10 : ℚ) places]
    push_cast
    field_simp
    ring

/-! ## The text -/

def whole (d : Decimal) : ℕ :=
  d.coefficient * 10 ^ d.exponent.toNat / 10 ^ (-d.exponent).toNat

def fraction (d : Decimal) : List ℕ :=
  (lastDigits (-d.exponent).toNat (d.coefficient * 10 ^ d.exponent.toNat)).rdropWhile (· = 0)

/-- A number as a quotient of integers. -/
theorem value_eq_div (d : Decimal) :
    d.value = (d.coefficient * 10 ^ d.exponent.toNat : ℕ) / (10 ^ (-d.exponent).toNat : ℕ) := by
  have hne : (10 : ℚ) ≠ 0 := by norm_num
  have hexponent : d.exponent = d.exponent.toNat - (-d.exponent).toNat := by omega
  unfold value
  nth_rewrite 1 [hexponent]
  rw [zpow_sub₀ hne, zpow_natCast, zpow_natCast]
  push_cast
  ring

theorem value_eq (d : Decimal) : d.value = d.whole + fractionValue d.fraction := by
  rw [value_eq_div]
  unfold whole fraction
  rw [fractionValue_rdropWhile, fractionValue_lastDigits]
  set n := d.coefficient * 10 ^ d.exponent.toNat
  set places := (-d.exponent).toNat
  have hparts : (n : ℚ) = 10 ^ places * (n / 10 ^ places : ℕ) + (n % 10 ^ places : ℕ) := by
    exact_mod_cast (Nat.div_add_mod n (10 ^ places)).symm
  nth_rewrite 1 [hparts]
  push_cast
  field_simp

theorem toInt_eq_floor (d : Decimal) : (d.toInt : ℤ) = ⌊d.value⌋ := by
  rw [value_eq_div, Rat.floor_natCast_div_natCast]
  rfl

theorem length_fraction_le (d : Decimal) : d.fraction.length ≤ (-d.exponent).toNat := by
  have hle := (List.rdropWhile_prefix (fun digit => decide (digit = 0))
    (lastDigits (-d.exponent).toNat (d.coefficient * 10 ^ d.exponent.toNat))).length_le
  rwa [length_lastDigits] at hle

theorem lastDigits_of_dvd {places n : ℕ} (h : 10 ^ places ∣ n) :
    ∀ digit ∈ lastDigits places n, digit = 0 := by
  induction places generalizing n with
  | zero => simp [lastDigits]
  | succ places ih =>
    obtain ⟨k, rfl⟩ := h
    have hquotient : 10 ^ (places + 1) * k / 10 = 10 ^ places * k := by
      rw [pow_succ', mul_assoc, Nat.mul_div_cancel_left _ (by norm_num)]
    have hrest : 10 ^ (places + 1) * k % 10 = 0 := by
      rw [pow_succ', mul_assoc, Nat.mul_mod_right]
    intro digit hdigit
    rw [lastDigits, hquotient, hrest] at hdigit
    rcases List.mem_append.mp hdigit with hdigit | hdigit
    · exact ih (dvd_mul_right _ k) digit hdigit
    · exact List.mem_singleton.mp hdigit

theorem fraction_of_integral {d : Decimal} (h : d.IsIntegral) : d.fraction = [] := by
  apply List.rdropWhile_eq_nil_iff.mpr
  intro digit hdigit
  simpa using lastDigits_of_dvd h digit hdigit

theorem fraction_lt {d : Decimal} : ∀ digit ∈ d.fraction, digit < 10 := fun digit hdigit =>
  lastDigits_lt _ _ digit ((List.rdropWhile_prefix _ _).subset hdigit)

theorem digitChar_injOn : ∀ m < 10, ∀ n < 10, Nat.digitChar m = Nat.digitChar n → m = n := by
  decide

/-- The point and the digits after it, when there are any. -/
def pointChars (digits : List ℕ) : List Char :=
  if digits = [] then [] else '.' :: digits.map Nat.digitChar

theorem toList_fixed (d : Decimal) :
    d.fixed.toList = Nat.toDigits 10 d.whole ++ pointChars d.fraction := by
  change (toString d.whole ++ if d.fraction = [] then "" else
    "." ++ String.ofList (d.fraction.map Nat.digitChar)).toList = _
  unfold pointChars
  rw [String.toList_append]
  congr 1
  · exact Nat.toList_repr
  · split
    · rfl
    · rw [String.toList_append]
      exact congrArg ('.' :: ·) String.toList_ofList

/-- A number without a fraction is written as an integer. -/
theorem fixed_of_integral {d : Decimal} (h : d.IsIntegral) : d.fixed = toString d.toInt := by
  apply String.toList_injective
  rw [toList_fixed, fraction_of_integral h]
  exact (List.append_nil _).trans Nat.toList_repr.symm

theorem takeWhile_whole (n : ℕ) (digits : List ℕ) :
    (Nat.toDigits 10 n ++ pointChars digits).takeWhile (· ≠ '.') = Nat.toDigits 10 n := by
  have hpoint : ∀ c ∈ Nat.toDigits 10 n, decide (c ≠ '.') = true := by
    intro c hc
    have hdigit := Nat.isDigit_of_mem_toDigits (by norm_num) (by norm_num) hc
    rw [decide_eq_true_eq]
    rintro rfl
    cases hdigit
  rw [List.takeWhile_append_of_pos hpoint]
  unfold pointChars
  split <;> simp

theorem pointChars_inj {ds es : List ℕ} (hds : ∀ d ∈ ds, d < 10) (hes : ∀ e ∈ es, e < 10)
    (h : pointChars ds = pointChars es) : ds = es := by
  unfold pointChars at h
  split at h
  next hds_nil =>
    split at h
    next hes_nil => rw [hds_nil, hes_nil]
    next => cases h
  next =>
    split at h
    next => cases h
    next => exact Text.eq_of_map_eq digitChar_injOn hds hes (List.cons.inj h).2

theorem value_eq_of_fixed {a b : Decimal} (h : a.fixed = b.fixed) : a.value = b.value := by
  have htext := congrArg String.toList h
  rw [toList_fixed, toList_fixed] at htext
  have hdigits := congrArg (List.takeWhile (· ≠ '.')) htext
  rw [takeWhile_whole, takeWhile_whole] at hdigits
  rw [hdigits] at htext
  have hwhole : a.whole = b.whole := by
    rw [← Nat.ofDigitChars_ten_toDigits (n := a.whole), hdigits, Nat.ofDigitChars_ten_toDigits]
  have hfraction := pointChars_inj fraction_lt fraction_lt (List.append_cancel_left htext)
  rw [value_eq, value_eq, hwhole, hfraction]

end OpenJobSpec.Decimal
