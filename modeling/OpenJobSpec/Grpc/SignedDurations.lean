import OpenJobSpec.Grpc.DurationMapping
import OpenJobSpec.Retry.DurationGrammar

/-! # What a duration of a message is decoded to

The sign is read with the seconds and the fraction is read on its own, so a
minus sign does not reach the fraction. Besides, arithmetic keeps 28 digits, of
which the milliseconds need not be among the first.
-/
namespace OpenJobSpec.Grpc
open ExceptRules HalfEven
variable {digit : Char → Option ℕ}

/-- Toward zero. -/
def truncate (q : ℚ) : ℤ := if q < 0 then ⌈q⌉ else ⌊q⌋

namespace ProtoDuration
variable (m : ProtoDuration)

/-- The number of seconds that a text stands for: its sign is the sign of the whole. -/
def exact : ℚ :=
  if m.negative then -(m.seconds + m.fraction.value) else m.seconds + m.fraction.value

def exactMilliseconds : ℤ := truncate (m.exact * 1000)

/-- The fraction in nanoseconds. -/
def fractionNanos : ℕ := m.fraction.coefficient * 10 ^ (9 + m.fraction.exponent).toNat

/-- The seconds and the fraction, without the sign, in nanoseconds. -/
def nanos : ℕ := m.seconds * 10 ^ 9 + m.fractionNanos

/-- The groups of a match have at most nine digits after the point. -/
structure WellFormed : Prop where
  places : -9 ≤ m.fraction.exponent
  nonpos : m.fraction.exponent ≤ 0
  fraction : m.fractionNanos < 10 ^ 9

end ProtoDuration

/-- The digits past the significant ones do not touch the milliseconds: either they follow them and
carry nothing into them, or the milliseconds end in as many zeros. -/
def MillisecondsKept (nanos : ℕ) : Prop :=
  if Decimal.past nanos ≤ 6 then
    ¬ (RoundsUp nanos (10 ^ Decimal.past nanos) ∧
      10 ^ (6 - Decimal.past nanos) ∣ nanos / 10 ^ Decimal.past nanos + 1)
  else 10 ^ (Decimal.past nanos - 6) ∣ nanos / 10 ^ 6

/-- Seconds that a fraction is taken off are rounded back to when they have no more than the
significant digits and the fraction is at most half of the last one. -/
def RoundedBack (seconds gap : ℕ) : Prop :=
  let unit := 10 ^ Decimal.past (seconds * 10 ^ 9 - gap)
  unit ∣ seconds * 10 ^ 9 ∧
    (2 * gap < unit ∨ 2 * gap = unit ∧ seconds * 10 ^ 9 / unit % 2 = 0)

/-- The milliseconds of a rounded number of nanoseconds. -/
def roundedMilliseconds (nanos : ℕ) : ℕ :=
  nearest nanos (10 ^ Decimal.past nanos) * 10 ^ Decimal.past nanos / 10 ^ 6

theorem milliseconds_kept_iff (nanos : ℕ) :
    roundedMilliseconds nanos = nanos / 10 ^ 6 ↔ MillisecondsKept nanos := by
  unfold roundedMilliseconds MillisecondsKept
  set digits := Decimal.past nanos
  by_cases hfine : digits ≤ 6
  · obtain ⟨places, hplaces⟩ := Nat.le.dest hfine
    have hrest : 6 - digits = places := by omega
    rw [if_pos hfine, hrest, ← hplaces, pow_add, mul_comm (10 ^ digits) (10 ^ places),
      Nat.mul_div_mul_right _ _ (Nat.pow_pos (by norm_num)), mul_comm (10 ^ places)]
    exact nearest_div_eq_iff
  · obtain ⟨places, hplaces⟩ := Nat.le.dest (not_le.mp hfine).le
    have hrest : digits - 6 = places := by omega
    have hmany : 2 < 10 ^ places := by
      calc 2 < 10 ^ 1 := by norm_num
        _ ≤ 10 ^ places := Nat.pow_le_pow_right (by norm_num) (by omega)
    rw [if_neg hfine, hrest, ← hplaces, pow_add, mul_comm (10 ^ 6), ← mul_assoc,
      Nat.mul_div_cancel _ (by norm_num), mul_comm (10 ^ places)]
    exact nearest_mul_eq_iff (by norm_num) hmany

/-- Nanoseconds that fit into the significant digits. -/
theorem roundedMilliseconds_of_short {nanos : ℕ} (h : nanos < 10 ^ 9) :
    roundedMilliseconds nanos = nanos / 10 ^ 6 := by
  have hpast : Decimal.past nanos = 0 := by
    have hlog : Nat.log 10 nanos ≤ Nat.log 10 (10 ^ 9) := Nat.log_mono_right h.le
    rw [Nat.log_pow (by norm_num)] at hlog
    unfold Decimal.past Decimal.precision
    omega
  rw [roundedMilliseconds, hpast, pow_zero, nearest_of_dvd Nat.one_pos (one_dvd nanos),
    Nat.div_one, mul_one]

/-- The rounded difference has the milliseconds of the sum only when it is the number of whole
seconds. -/
theorem rounded_whole {seconds gap digits : ℕ} (hgap : 0 < gap) (hlt : gap < 10 ^ 9)
    (h : nearest (seconds * 10 ^ 9 - gap) (10 ^ digits) * 10 ^ digits / 10 ^ 6 =
      (seconds * 10 ^ 9 + gap) / 10 ^ 6) :
    nearest (seconds * 10 ^ 9 - gap) (10 ^ digits) * 10 ^ digits = seconds * 10 ^ 9 ∧
      gap < 10 ^ 6 := by
  have hunit : 0 < 10 ^ digits := Nat.pow_pos (by norm_num)
  rcases Nat.le_total digits 9 with hfine | hcoarse
  · obtain ⟨c, hc⟩ := (Nat.pow_dvd_pow 10 hfine).mul_left seconds
    have hbelow : nearest (seconds * 10 ^ 9 - gap) (10 ^ digits) ≤ c :=
      nearest_le hunit (by rw [mul_comm c, ← hc]; omega)
    have hmost := Nat.mul_le_mul_right (10 ^ digits) hbelow
    rw [mul_comm c, ← hc] at hmost
    omega
  · obtain ⟨c, hc⟩ := Nat.pow_dvd_pow 10 hcoarse
    have hmultiple : nearest (seconds * 10 ^ 9 - gap) (10 ^ digits) * 10 ^ digits =
        nearest (seconds * 10 ^ 9 - gap) (10 ^ digits) * c * 10 ^ 9 := by
      nth_rewrite 2 [hc]
      ring
    omega

/-- A fraction that was taken off instead of added is not seen when it is under a millisecond and
rounded away. -/
theorem rounded_back_iff {seconds gap : ℕ} (hseconds : 0 < seconds) (hgap : 0 < gap)
    (hlt : gap < 10 ^ 9) :
    roundedMilliseconds (seconds * 10 ^ 9 - gap) = (seconds * 10 ^ 9 + gap) / 10 ^ 6 ↔
      gap < 10 ^ 6 ∧ RoundedBack seconds gap := by
  unfold roundedMilliseconds RoundedBack
  dsimp only
  set digits := Decimal.past (seconds * 10 ^ 9 - gap)
  have hunit : 0 < 10 ^ digits := Nat.pow_pos (by norm_num)
  have hle : gap ≤ seconds * 10 ^ 9 := by omega
  constructor
  · intro h
    have hback := rounded_whole hgap hlt h
    refine ⟨hback.2, ⟨_, hback.1.symm.trans (mul_comm _ _)⟩, ?_⟩
    have hquotient : seconds * 10 ^ 9 / 10 ^ digits =
        nearest (seconds * 10 ^ 9 - gap) (10 ^ digits) := by
      exact Nat.div_eq_of_eq_mul_left hunit hback.1.symm
    rw [hquotient]
    apply (nearest_sub_eq_iff hgap (by rw [hback.1]; exact hle)).mp
    rw [hback.1]
  · rintro ⟨hsmall, ⟨c, hc⟩, hnear⟩
    have hquotient : seconds * 10 ^ 9 / 10 ^ digits = c := by
      rw [hc, Nat.mul_div_cancel_left _ hunit]
    rw [hquotient] at hnear
    have hback : nearest (c * 10 ^ digits - gap) (10 ^ digits) = c :=
      (nearest_sub_eq_iff hgap (by rw [mul_comm, ← hc]; exact hle)).mpr hnear
    rw [mul_comm c, ← hc] at hback
    rw [hback, mul_comm c, ← hc]
    omega

/-! ## The groups of a match -/

theorem numeral_lt {digits : List ℕ} (h : ∀ n ∈ digits, n < 10) :
    numeral digits < 10 ^ digits.length := by
  induction digits using List.reverseRecOn with
  | nil => exact Nat.one_pos
  | append_singleton digits last ih =>
    have hlast : last < 10 := h last (by simp)
    have hinit := ih fun n hn => h n (List.mem_append_left _ hn)
    have hone : numeral [last] = last := by simp [numeral]
    rw [numeral_append, hone, List.length_append, List.length_singleton, pow_one, pow_succ]
    omega

theorem spanDigits_lt (hbelow : ∀ c n, digit c = some n → n < 10) (text : List Char) :
    ∀ n ∈ (spanDigits digit text).1, n < 10 := by
  obtain ⟨run, -, -, hdigits⟩ := Retry.spanDigits_split digit text
  rw [hdigits]
  intro n hn
  obtain ⟨c, -, hc⟩ := List.mem_filterMap.mp hn
  exact hbelow c n hc

theorem wellFormed_of_match (hbelow : ∀ c n, digit c = some n → n < 10) {value : String}
    {m : ProtoDuration} (h : matchProtoDuration digit value = some m) : m.WellFormed := by
  unfold matchProtoDuration at h
  generalize optionalMinus value.toList = signed at h
  obtain ⟨negative, text⟩ := signed
  dsimp only at h
  split at h
  · cases h
    exact ⟨Int.neg_nonpos_of_nonneg (by decide), le_rfl, by simp [ProtoDuration.fractionNanos]⟩
  next d ds fraction hspan =>
    split at h
    next f fs hspan' =>
      split at h
      next hlength =>
        cases h
        have hdigits := spanDigits_lt hbelow fraction
        rw [hspan'] at hdigits
        refine ⟨?_, ?_, ?_⟩
        · change -9 ≤ -(((f :: fs).length : ℕ) : ℤ)
          omega
        · exact neg_nonpos.mpr (Int.natCast_nonneg _)
        · have hrest : (9 + -(((f :: fs).length : ℕ) : ℤ)).toNat = 9 - (f :: fs).length := by omega
          change numeral (f :: fs) * 10 ^ (9 + -(((f :: fs).length : ℕ) : ℤ)).toNat < 10 ^ 9
          rw [hrest]
          calc numeral (f :: fs) * 10 ^ (9 - (f :: fs).length)
              < 10 ^ (f :: fs).length * 10 ^ (9 - (f :: fs).length) :=
                Nat.mul_lt_mul_of_pos_right (numeral_lt hdigits) (Nat.pow_pos (by norm_num))
            _ = 10 ^ 9 := by rw [← pow_add, Nat.add_sub_cancel' hlength]
      next => cases h
    next => cases h
  next => cases h

namespace ProtoDuration
variable {m : ProtoDuration}

/-- The number of nanoseconds that the sum is rounded from. -/
def summed (m : ProtoDuration) : ℕ :=
  if m.negative ∧ m.seconds ≠ 0 then m.seconds * 10 ^ 9 - m.fractionNanos else m.nanos

theorem sum_value (hm : m.WellFormed) :
    m.sum.1 = decide (m.negative ∧ m.seconds ≠ 0) ∧
      m.sum.2.value = (Decimal.rounded ⟨m.summed, -9⟩).value := by
  obtain ⟨hplaces, hnonpos, -⟩ := hm
  obtain ⟨places, hexponent⟩ := Int.eq_ofNat_of_zero_le (neg_nonneg.mpr hnonpos)
  have hfraction : m.fraction.exponent = -places := by omega
  have hrest : (9 + m.fraction.exponent).toNat = 9 - places := by omega
  have hnine : places + (9 - places) = 9 := by omega
  have hsmallest : Decimal.smallestExponent ≤ -9 := by decide
  have hshift : ∀ c : ℕ, (Decimal.rounded ⟨c * 10 ^ (9 - places), -9⟩).value =
      (Decimal.rounded ⟨c, m.fraction.exponent⟩).value := by
    intro c
    have hexponents : m.fraction.exponent - (9 - places : ℕ) = -9 := by omega
    have hplaced := Decimal.rounded_places (c := c) (9 - places)
      (hsmallest.trans_eq hexponents.symm)
    rwa [hexponents] at hplaced
  have hwhole : m.seconds * 10 ^ places * 10 ^ (9 - places) = m.seconds * 10 ^ 9 := by
    rw [mul_assoc, ← pow_add, hnine]
  have hnegated : (-m.fraction.exponent).toNat = places := by omega
  unfold sum summed
  by_cases hnegative : m.negative ∧ m.seconds ≠ 0
  · rw [if_pos hnegative, if_pos hnegative]
    refine ⟨(decide_eq_true hnegative).symm, ?_⟩
    rw [hnegated, ← hshift, Nat.sub_mul, hwhole, fractionNanos, hrest]
  · rw [if_neg hnegative, if_neg hnegative]
    refine ⟨(decide_eq_false hnegative).symm, ?_⟩
    have hmin : min (0 : ℤ) m.fraction.exponent = m.fraction.exponent := min_eq_right hnonpos
    have hzero : (0 - m.fraction.exponent).toNat = places := by omega
    rw [Decimal.add]
    dsimp only
    rw [hmin, hzero, sub_self, Int.toNat_zero, pow_zero, mul_one, ← hshift, Nat.add_mul, hwhole,
      nanos, fractionNanos, hrest]

/-- Sums in nanoseconds, rounded, are multiplied exactly. -/
theorem rounded_thousand (n : ℕ) :
    (Decimal.rounded ⟨n, -9⟩).value * 1000 =
        (nearest n (10 ^ Decimal.past n) * 10 ^ Decimal.past n : ℕ) / (10 ^ 6 : ℕ) ∧
      Decimal.Short ((Decimal.rounded ⟨n, -9⟩).value * 1000) := by
  have hsmallest : Decimal.smallestExponent ≤ -9 := by decide
  have hvalue : (Decimal.rounded ⟨n, -9⟩).value * 1000 =
      Decimal.dropDigits n (Decimal.past n) * (10 : ℚ) ^ (-6 + Decimal.past n : ℤ) := by
    rw [Decimal.rounded_eq hsmallest, Decimal.value]
    dsimp only
    rw [zpow_add₀ (by norm_num), zpow_add₀ (by norm_num)]
    ring
  constructor
  · rw [hvalue, zpow_add₀ (by norm_num), zpow_natCast, Decimal.dropDigits_eq]
    push_cast
    ring
  · rw [hvalue]
    apply Decimal.short_of_le (Decimal.dropDigits_le n)
    exact hsmallest.trans (by omega)

theorem product_value (hm : m.WellFormed) :
    (m.sum.2.mul ⟨1000, 0⟩).value = (Decimal.rounded ⟨m.summed, -9⟩).value * 1000 := by
  have hthousand : Decimal.value ⟨1000, 0⟩ = 1000 := IsoDuration.value_ofNat 1000
  have hshort := (rounded_thousand m.summed).2
  rw [← (sum_value hm).2, ← hthousand] at hshort
  rw [Decimal.mul_value hshort, hthousand, (sum_value hm).2]

theorem product_toInt (hm : m.WellFormed) :
    (m.sum.2.mul ⟨1000, 0⟩).toInt = roundedMilliseconds m.summed := by
  have hfloor := Decimal.toInt_eq_floor (m.sum.2.mul ⟨1000, 0⟩)
  rw [product_value hm, (rounded_thousand m.summed).1, Rat.floor_natCast_div_natCast] at hfloor
  exact_mod_cast hfloor

theorem product_overflows_iff (hm : m.WellFormed) :
    (m.sum.2.mul ⟨1000, 0⟩).Overflows ↔
      10 ^ Decimal.digitLimit ≤ roundedMilliseconds m.summed := by
  have hfloor := Decimal.toInt_eq_floor (m.sum.2.mul ⟨1000, 0⟩)
  rw [product_toInt hm] at hfloor
  rw [Decimal.overflows_iff]
  have hcast : (10 : ℚ) ^ Decimal.digitLimit = ((10 ^ Decimal.digitLimit : ℕ) : ℤ) := by
    push_cast
    rfl
  rw [hcast, ← Int.le_floor, ← hfloor]
  exact Int.ofNat_le

/-- A duration that matches is decoded to rounded milliseconds, and has the sign of its seconds. -/
theorem durationToMilliseconds_eq_ok_iff (hm : m.WellFormed) {value : String}
    (h : matchProtoDuration digit value = some m) (z : ℤ) :
    durationToMilliseconds digit value = .ok z ↔
      roundedMilliseconds m.summed < 10 ^ Decimal.digitLimit ∧
        (if m.negative ∧ m.seconds ≠ 0 then -(roundedMilliseconds m.summed : ℤ)
          else roundedMilliseconds m.summed) = z := by
  have hsign : m.sum = (decide (m.negative ∧ m.seconds ≠ 0), m.sum.2) :=
    Prod.ext (sum_value hm).1 rfl
  rw [durationToMilliseconds, h]
  dsimp only
  rw [hsign]
  dsimp only
  rw [product_toInt hm]
  by_cases hlarge : 10 ^ Decimal.digitLimit ≤ roundedMilliseconds m.summed
  · rw [if_pos ((product_overflows_iff hm).mpr hlarge)]
    refine iff_of_false ?_ fun h => absurd h.1 (not_lt.mpr hlarge)
    intro h
    cases h
  · rw [if_neg ((product_overflows_iff hm).not.mpr hlarge), and_iff_right (not_le.mp hlarge)]
    simp only [decide_eq_true_eq, Except.ok.injEq]

/-! ## The exact value -/

theorem fraction_value (hm : m.WellFormed) : m.fraction.value = m.fractionNanos / 10 ^ 9 := by
  have hrescaled := Decimal.value_rescaled m.fraction hm.places
  have hrest : (m.fraction.exponent - -9).toNat = (9 + m.fraction.exponent).toNat := by omega
  rw [← hrescaled, hrest, Decimal.value, fractionNanos]
  norm_num
  ring

theorem nanos_milliseconds : m.nanos / 10 ^ 6 = m.seconds * 1000 + m.fractionNanos / 10 ^ 6 := by
  unfold nanos
  omega

theorem truncate_natCast_div (n d : ℕ) :
    truncate ((n : ℚ) / d) = (n / d : ℕ) ∧ truncate (-((n : ℚ) / d)) = -(n / d : ℕ) := by
  have hnonneg : (0 : ℚ) ≤ n / d := by positivity
  have hfloor : ⌊(n : ℚ) / d⌋ = (n / d : ℕ) := Rat.floor_natCast_div_natCast n d
  constructor
  · rw [truncate, if_neg (not_lt.mpr hnonneg), hfloor]
  · rcases hnonneg.eq_or_lt with hzero | hpos
    · rw [← hzero] at hfloor ⊢
      rw [← hfloor]
      simp [truncate]
    · rw [truncate, if_pos (neg_lt_zero.mpr hpos), Int.ceil_neg, hfloor]

theorem exact_eq (hm : m.WellFormed) :
    m.exact = if m.negative then -((m.nanos : ℚ) / 10 ^ 9) else (m.nanos : ℚ) / 10 ^ 9 := by
  have hsum : m.seconds + m.fraction.value = (m.nanos : ℚ) / 10 ^ 9 := by
    rw [fraction_value hm, nanos]
    push_cast
    ring
  rw [exact, hsum]

theorem exactMilliseconds_eq (hm : m.WellFormed) :
    m.exactMilliseconds =
      if m.negative then -((m.nanos / 10 ^ 6 : ℕ) : ℤ) else (m.nanos / 10 ^ 6 : ℕ) := by
  have hthousand : (m.nanos : ℚ) / 10 ^ 9 * 1000 = m.nanos / (10 ^ 6 : ℕ) := by
    push_cast
    ring
  rw [exactMilliseconds, exact_eq hm]
  split
  · rw [neg_mul, hthousand]
    exact (truncate_natCast_div m.nanos (10 ^ 6)).2
  · rw [hthousand]
    exact (truncate_natCast_div m.nanos (10 ^ 6)).1

end ProtoDuration

/-! ## The interval -/

theorem integral_iff {d : Decimal} {n unit : ℕ} (hunit : 0 < unit) (h : d.value = n / unit) :
    d.IsIntegral ↔ unit ∣ n := by
  have hden : ((10 ^ (-d.exponent).toNat : ℕ) : ℚ) ≠ 0 := by positivity
  have hunit' : (unit : ℚ) ≠ 0 := by exact_mod_cast hunit.ne'
  have hcross : d.coefficient * 10 ^ d.exponent.toNat * unit = n * 10 ^ (-d.exponent).toNat := by
    rw [Decimal.value_eq_div, div_eq_div_iff hden hunit'] at h
    exact_mod_cast h
  unfold Decimal.IsIntegral
  generalize d.coefficient * 10 ^ d.exponent.toNat = num at hcross
  have hpos : 0 < 10 ^ (-d.exponent).toNat := Nat.pow_pos (by norm_num)
  generalize 10 ^ (-d.exponent).toNat = den at hcross hpos
  constructor
  · rintro ⟨c, rfl⟩
    refine ⟨c, Nat.eq_of_mul_eq_mul_right hpos ?_⟩
    rw [← hcross]
    ring
  · rintro ⟨c, rfl⟩
    refine ⟨c, Nat.eq_of_mul_eq_mul_right hunit ?_⟩
    rw [hcross]
    ring

/-- Rounded nanoseconds leave few digits to the milliseconds. -/
theorem short_milliseconds (nanos : ℕ) :
    Decimal.Short (Decimal.value ⟨roundedMilliseconds nanos, -3⟩) := by
  have hsmallest : Decimal.smallestExponent ≤ -9 := by decide
  have hle := Decimal.dropDigits_le nanos
  rw [Decimal.dropDigits_eq] at hle
  unfold roundedMilliseconds
  generalize nearest nanos (10 ^ Decimal.past nanos) = c at hle
  rcases Nat.le_total (Decimal.past nanos) 6 with hfine | hcoarse
  · apply Decimal.short_of_le _ (hsmallest.trans (by norm_num))
    apply (Nat.div_le_of_le_mul ?_).trans hle
    rw [mul_comm]
    exact Nat.mul_le_mul_right c (Nat.pow_le_pow_right (by norm_num) hfine)
  · obtain ⟨places, hplaces⟩ := Nat.le.dest hcoarse
    rw [← hplaces, pow_add, mul_comm (10 ^ 6), ← mul_assoc, Nat.mul_div_cancel _ (by norm_num)]
    have hvalue : Decimal.value ⟨c * 10 ^ places, -3⟩ = c * (10 : ℚ) ^ (places - 3 : ℤ) := by
      rw [Decimal.value, zpow_sub₀ (by norm_num), zpow_natCast]
      push_cast
      ring
    rw [hvalue]
    exact Decimal.short_of_le hle (hsmallest.trans (by omega))

/-- A long number of few significant digits ends in zeros. -/
theorem thousand_dvd_of_short {n : ℕ} (hshort : Decimal.Short (Decimal.value ⟨n, -3⟩))
    (hlong : 10 ^ (Decimal.precision + 3) ≤ n) : 1000 ∣ n := by
  obtain ⟨c, e, hc, -, hvalue⟩ := hshort
  change (n : ℚ) * 10 ^ (-3 : ℤ) = c * 10 ^ e at hvalue
  rcases Decimal.coefficient_cases hvalue with ⟨places, -, hn⟩ | ⟨places, -, hn⟩
  · have hle : n ≤ c := hn ▸ Nat.le_mul_of_pos_right n (Nat.pow_pos (by norm_num))
    have hmore : 10 ^ Decimal.precision ≤ 10 ^ (Decimal.precision + 3) :=
      Nat.pow_le_pow_right (by norm_num) (by omega)
    omega
  · have hlt : 10 ^ (Decimal.precision + 3) < 10 ^ (Decimal.precision + places) := by
      calc 10 ^ (Decimal.precision + 3) ≤ c * 10 ^ places := hn ▸ hlong
        _ < 10 ^ Decimal.precision * 10 ^ places :=
          Nat.mul_lt_mul_of_pos_right hc (Nat.pow_pos (by norm_num))
        _ = _ := (pow_add _ _ _).symm
    have hplaces := (Nat.pow_lt_pow_iff_right (by norm_num)).mp hlt
    rw [hn]
    exact ((pow_dvd_pow 10 (by omega : 3 ≤ places)).mul_left c)

theorem interval_iff (hdigit : AsciiDigits digit) {value : String} {n : ℕ}
    (h : durationToMilliseconds digit value = .ok (n : ℤ))
    (hshort : Decimal.Short (Decimal.value ⟨n, -3⟩)) :
    (∃ iso d, protobufDurationToIso digit value = .ok iso ∧ parseIsoDuration digit iso = some d ∧
      d.exact * 1000 = (n : ℤ)) ↔ n / 1000 < 10 ^ maxStrDigits := by
  have hvalue := seconds_value hshort
  have hintegral := integral_iff (by norm_num) hvalue
  have htoInt := seconds_toInt hshort
  constructor
  · rintro ⟨iso, -, hiso, -⟩
    by_contra hlong
    rw [not_lt] at hlong
    have hwritable : ¬ Writable (Decimal.rounded ⟨n, -3⟩) := by
      have hmany : 10 ^ (Decimal.precision + 3) ≤ 10 ^ maxStrDigits :=
        Nat.pow_le_pow_right (by norm_num) (by decide)
      have hdvd := thousand_dvd_of_short hshort
        (hmany.trans (hlong.trans (Nat.div_le_self n 1000)))
      refine Classical.not_imp.mpr ⟨hintegral.mpr hdvd, ?_⟩
      rw [htoInt, not_lt]
      exact Nat.le_log_of_pow_le (by norm_num) hlong
    obtain ⟨e, he⟩ := protobufDurationToIso_error h hwritable
    cases hiso.symm.trans he
  · intro hsmall
    have hwritable : Writable (Decimal.rounded ⟨n, -3⟩) := by
      intro _
      rw [htoInt]
      rcases Nat.eq_zero_or_pos (n / 1000) with hzero | hpos
      · rw [hzero, Nat.log_zero_right]
        decide
      · exact Nat.log_lt_of_lt_pow hpos.ne' hsmall
    obtain ⟨seconds, hparse, hseconds, -⟩ :=
      parse_secondsText hdigit (Decimal.rounded ⟨n, -3⟩)
    refine ⟨_, _, protobufDurationToIso_eq h hwritable, hparse, ?_⟩
    rw [IsoDuration.exact, hseconds, hvalue]
    push_cast
    ring

/-! ## Decoding -/

/-- A duration is decoded to the milliseconds of its value, in both of the forms. -/
structure DecodesToValue (digit : Char → Option ℕ) (value : String) (m : ProtoDuration) :
    Prop where
  milliseconds : durationToMilliseconds digit value = .ok m.exactMilliseconds
  interval : 0 ≤ m.exact → ∃ iso d, protobufDurationToIso digit value = .ok iso ∧
    parseIsoDuration digit iso = some d ∧ d.exact * 1000 = m.exactMilliseconds

namespace ProtoDuration

/-- A minus sign before a fraction loses less than a millisecond, or the arithmetic loses none. -/
def Kept (m : ProtoDuration) : Prop :=
  if m.negative ∧ 0 < m.fractionNanos then
    m.fractionNanos < 10 ^ 6 ∧ (m.seconds = 0 ∨ RoundedBack m.seconds m.fractionNanos)
  else MillisecondsKept m.nanos

/-- No more seconds than arithmetic multiplies, or than a text has digits for. -/
def InRange (m : ProtoDuration) : Prop :=
  m.seconds < 10 ^ (if m.negative then Decimal.digitLimit - 3 else maxStrDigits)

variable {m : ProtoDuration}

theorem kept_iff (hm : m.WellFormed) :
    (if m.negative ∧ m.seconds ≠ 0 then -(roundedMilliseconds m.summed : ℤ)
      else roundedMilliseconds m.summed) = m.exactMilliseconds ↔ m.Kept := by
  obtain ⟨-, -, hfraction⟩ := id hm
  rw [exactMilliseconds_eq hm, Kept]
  by_cases hnegative : m.negative
  · simp only [hnegative, true_and, if_true]
    by_cases hseconds : m.seconds = 0
    · have hnanos : m.nanos = m.fractionNanos := by rw [nanos, hseconds, zero_mul, zero_add]
      have hsummed : m.summed = m.fractionNanos := by
        rw [summed, if_neg fun h => h.2 hseconds, hnanos]
      rw [if_neg (not_not.mpr hseconds), hsummed, hnanos, roundedMilliseconds_of_short hfraction]
      by_cases hzero : 0 < m.fractionNanos
      · rw [if_pos hzero, and_iff_left (.inl hseconds)]
        omega
      · have hnone : m.fractionNanos = 0 := by omega
        rw [if_neg hzero, ← milliseconds_kept_iff, roundedMilliseconds_of_short hfraction, hnone]
        exact iff_of_true (by simp) rfl
    · have hsummed : m.summed = m.seconds * 10 ^ 9 - m.fractionNanos :=
        if_pos ⟨hnegative, hseconds⟩
      rw [if_pos hseconds, neg_inj, Nat.cast_inj, hsummed]
      by_cases hzero : 0 < m.fractionNanos
      · rw [if_pos hzero, or_iff_right hseconds]
        exact rounded_back_iff (Nat.pos_of_ne_zero hseconds) hzero hfraction
      · have hnone : m.fractionNanos = 0 := by omega
        rw [if_neg hzero, ← milliseconds_kept_iff, nanos, hnone, Nat.sub_zero, Nat.add_zero]
  · have hsummed : m.summed = m.nanos := if_neg fun h => hnegative h.1
    rw [if_neg fun h => hnegative h.1, if_neg hnegative, if_neg fun h => hnegative h.1, hsummed,
      Nat.cast_inj]
    exact milliseconds_kept_iff m.nanos

theorem roundedMilliseconds_of_kept (hm : m.WellFormed) (h : m.Kept) :
    roundedMilliseconds m.summed = m.nanos / 10 ^ 6 := by
  have hequal := (kept_iff hm).mpr h
  rw [exactMilliseconds_eq hm] at hequal
  split at hequal <;> split at hequal <;> omega

theorem exact_nonneg_iff (hm : m.WellFormed) : 0 ≤ m.exact ↔ m.negative = false ∨ m.nanos = 0 := by
  have hnonneg : (0 : ℚ) ≤ (m.nanos : ℚ) / 10 ^ 9 := by positivity
  rw [exact_eq hm]
  cases m.negative with
  | false => exact iff_of_true hnonneg (.inl rfl)
  | true =>
    rw [if_pos rfl, neg_nonneg, or_iff_right nofun]
    constructor
    · intro hle
      have hzero := le_antisymm hle hnonneg
      rw [div_eq_zero_iff] at hzero
      exact_mod_cast hzero.resolve_right (by norm_num)
    · intro hzero
      rw [hzero]
      simp

/-- A duration that is not negative has as many milliseconds as nanoseconds allow. -/
theorem exactMilliseconds_of_nonneg (hm : m.WellFormed) (h : 0 ≤ m.exact) :
    m.exactMilliseconds = (m.nanos / 10 ^ 6 : ℕ) := by
  rw [exactMilliseconds_eq hm]
  rcases (exact_nonneg_iff hm).mp h with hpositive | hzero
  · rw [hpositive]
    exact if_neg Bool.false_ne_true
  · rw [hzero]
    simp

theorem milliseconds_lt_iff (hm : m.WellFormed) {digits : ℕ} (hdigits : 3 ≤ digits) :
    m.nanos / 10 ^ 6 < 10 ^ digits ↔ m.seconds < 10 ^ (digits - 3) := by
  have hfraction := hm.fraction
  obtain ⟨more, rfl⟩ := Nat.le.dest hdigits
  rw [nanos_milliseconds, Nat.add_sub_cancel_left, pow_add]
  omega

theorem inRange_iff (hm : m.WellFormed) :
    m.InRange ↔ m.nanos / 10 ^ 6 < 10 ^ Decimal.digitLimit ∧
      (0 ≤ m.exact → m.seconds < 10 ^ maxStrDigits) := by
  rw [InRange, exact_nonneg_iff hm, milliseconds_lt_iff hm (by decide)]
  cases m.negative with
  | false =>
    have hfewer : 10 ^ maxStrDigits ≤ 10 ^ (Decimal.digitLimit - 3) :=
      Nat.pow_le_pow_right (by norm_num) (by decide)
    rw [if_neg Bool.false_ne_true]
    exact ⟨fun h => ⟨h.trans_le hfewer, fun _ => h⟩, fun h => h.2 (.inl rfl)⟩
  | true =>
    rw [if_pos rfl]
    refine ⟨fun h => ⟨h, ?_⟩, fun h => h.1⟩
    rintro (hpositive | hzero)
    · cases hpositive
    · have hnone : m.seconds = 0 := by
        unfold nanos at hzero
        omega
      rw [hnone]
      exact Nat.pow_pos (by norm_num)

end ProtoDuration

theorem durations_decode_iff (hdigit : AsciiDigits digit)
    (hbelow : ∀ c n, digit c = some n → n < 10) {value : String} {m : ProtoDuration}
    (h : matchProtoDuration digit value = some m) :
    DecodesToValue digit value m ↔ m.Kept ∧ m.InRange := by
  have hm := wellFormed_of_match hbelow h
  have hmilliseconds : durationToMilliseconds digit value = .ok m.exactMilliseconds ↔
      m.Kept ∧ m.nanos / 10 ^ 6 < 10 ^ Decimal.digitLimit := by
    rw [ProtoDuration.durationToMilliseconds_eq_ok_iff hm h, ProtoDuration.kept_iff hm, and_comm]
    refine and_congr_right fun hkept => ?_
    rw [ProtoDuration.roundedMilliseconds_of_kept hm hkept]
  -- an interval takes milliseconds that are right
  have hinterval : durationToMilliseconds digit value = .ok m.exactMilliseconds → 0 ≤ m.exact →
      ((∃ iso d, protobufDurationToIso digit value = .ok iso ∧
        parseIsoDuration digit iso = some d ∧ d.exact * 1000 = m.exactMilliseconds) ↔
        m.seconds < 10 ^ maxStrDigits) := by
    intro hok hnonneg
    have hshort := short_milliseconds m.summed
    rw [ProtoDuration.roundedMilliseconds_of_kept hm (hmilliseconds.mp hok).1] at hshort
    rw [ProtoDuration.exactMilliseconds_of_nonneg hm hnonneg] at hok ⊢
    have hseconds : m.nanos / 10 ^ 6 / 1000 = m.seconds := by
      have hfraction := hm.fraction
      rw [ProtoDuration.nanos_milliseconds]
      omega
    rw [← hseconds]
    exact interval_iff hdigit hok hshort
  rw [ProtoDuration.inRange_iff hm]
  constructor
  · rintro ⟨hok, htext⟩
    obtain ⟨hkept, hfits⟩ := hmilliseconds.mp hok
    exact ⟨hkept, hfits, fun hnonneg => (hinterval hok hnonneg).mp (htext hnonneg)⟩
  · rintro ⟨hkept, hfits, hshort⟩
    have hok := hmilliseconds.mpr ⟨hkept, hfits⟩
    exact ⟨hok, fun hnonneg => (hinterval hok hnonneg).mpr (hshort hnonneg)⟩

theorem asciiDigit_lt : ∀ c n, asciiDigit c = some n → n < 10 := by
  intro c n h
  unfold asciiDigit at h
  split at h
  next hc =>
    cases h
    have hrange : 48 ≤ c.toNat ∧ c.toNat ≤ 57 := by
      simpa [Char.isDigit, UInt32.le_iff_toNat_le] using hc
    omega
  next => cases h

theorem ninety_seconds_decode :
    DecodesToValue asciiDigit "90.5s" ⟨false, 90, ⟨5, -1⟩⟩ ↔
      ProtoDuration.Kept ⟨false, 90, ⟨5, -1⟩⟩ ∧ ProtoDuration.InRange ⟨false, 90, ⟨5, -1⟩⟩ :=
  durations_decode_iff asciiDigits asciiDigit_lt (by decide +kernel)

/-- The fraction of minus one and a half seconds is added to minus one, and minus half a second
loses its sign. -/
theorem signed_fraction_lost :
    durationToMilliseconds asciiDigit "-1.5s" = .ok (-500) ∧
    durationToMilliseconds asciiDigit "-0.5s" = .ok 500 ∧
    ¬ ∀ value m, matchProtoDuration asciiDigit value = some m →
      DecodesToValue asciiDigit value m := by
  have hminus : durationToMilliseconds asciiDigit "-1.5s" = .ok (-500) := by decide +kernel
  refine ⟨hminus, by decide +kernel, fun hall => ?_⟩
  have hvalue := (hall "-1.5s" ⟨true, 1, ⟨5, -1⟩⟩ (by decide +kernel)).milliseconds
  have hexact : ProtoDuration.exactMilliseconds ⟨true, 1, ⟨5, -1⟩⟩ = -1500 := by
    norm_num [ProtoDuration.exactMilliseconds, ProtoDuration.exact, truncate, Decimal.value]
  rw [hexact, hminus] at hvalue
  cases hvalue

end OpenJobSpec.Grpc
