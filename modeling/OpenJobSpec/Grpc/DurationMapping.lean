import OpenJobSpec.Grpc.EnqueueAgreement
import OpenJobSpec.Python.DecimalRounding
import OpenJobSpec.Retry.CappedDelays

/-! # Durations through the mapping and back

The text of a duration is read digit by digit, so every reader finds the groups
that the writer put there. What is lost is what lies past a millisecond.
-/
namespace OpenJobSpec.Grpc
open ExceptRules
variable {digit : Char → Option ℕ}

/-- The digits among the ASCII characters. -/
def AsciiDigits (digit : Char → Option ℕ) : Prop :=
  ∀ c : Char, c.toNat < 128 → digit c = if c.isDigit then some (c.toNat - 48) else none

theorem AsciiDigits.digit_none (h : AsciiDigits digit) {c : Char} (hascii : c.toNat < 128)
    (hc : c.isDigit = false) : digit c = none := by
  rw [h c hascii, hc]
  rfl

theorem AsciiDigits.digit_some (h : AsciiDigits digit) {c : Char} (hc : c.isDigit = true) :
    digit c = some (c.toNat - 48) := by
  have hascii : c.toNat < 128 := by
    have hrange : 48 ≤ c.toNat ∧ c.toNat ≤ 57 := by
      simpa [Char.isDigit, UInt32.le_iff_toNat_le] using hc
    omega
  rw [h c hascii, if_pos hc]

/-- A text that begins with an ASCII character which is no digit. -/
theorem AsciiDigits.head_none (h : AsciiDigits digit) {c : Char} (hascii : c.toNat < 128)
    (hc : c.isDigit = false) (rest : List Char) : ∀ c' ∈ (c :: rest).head?, digit c' = none := by
  rintro _ ⟨⟩
  exact h.digit_none hascii hc

/-- Digits are taken up to the first character that is none. -/
theorem spanDigits_append (h : AsciiDigits digit) {text rest : List Char}
    (htext : ∀ c ∈ text, c.isDigit = true) (hrest : ∀ c ∈ rest.head?, digit c = none) :
    spanDigits digit (text ++ rest) = (text.map fun c => c.toNat - 48, rest) := by
  induction text with
  | nil =>
    cases rest with
    | nil => rfl
    | cons c rest =>
      rw [List.nil_append, spanDigits, hrest c rfl]
      rfl
  | cons c text ih =>
    rw [List.forall_mem_cons] at htext
    rw [List.cons_append, spanDigits, h.digit_some htext.1, ih htext.2]
    rfl

theorem numeral_append (xs ys : List ℕ) :
    numeral (xs ++ ys) = numeral xs * 10 ^ ys.length + numeral ys := by
  induction ys using List.reverseRecOn with
  | nil => simp [numeral]
  | append_singleton ys y ih =>
    have hlast : ∀ zs : List ℕ, numeral (zs ++ [y]) = numeral zs * 10 + y := by simp [numeral]
    rw [← List.append_assoc, hlast, ih, hlast, List.length_append, List.length_singleton, pow_succ]
    ring

theorem numeral_fraction (digits : List ℕ) :
    (numeral digits : ℚ) * 10 ^ (-(digits.length : ℤ)) = Decimal.fractionValue digits := by
  induction digits using List.reverseRecOn with
  | nil => simp [numeral, Decimal.fractionValue]
  | append_singleton digits last ih =>
    rw [Decimal.fractionValue_concat, ← ih, numeral_append, List.length_append]
    have hlast : numeral [last] = last := by simp [numeral]
    rw [hlast, List.length_singleton, zpow_neg, zpow_neg, zpow_natCast, zpow_natCast]
    push_cast
    field_simp
    ring

theorem numeral_toDigits (n : ℕ) :
    numeral ((Nat.toDigits 10 n).map fun c => c.toNat - 48) = n := by
  have hfold : numeral ((Nat.toDigits 10 n).map fun c => c.toNat - 48) =
      Nat.ofDigitChars 10 (Nat.toDigits 10 n) 0 := by
    rw [numeral, List.foldl_map, Nat.ofDigitChars_eq_foldl]
    simp only [mul_comm]
    rfl
  rw [hfold, Nat.ofDigitChars_ten_toDigits]

theorem optionalMinus_whole (d : Decimal) (rest : List Char) :
    optionalMinus (Nat.toDigits 10 d.whole ++ rest) = (false, Nat.toDigits 10 d.whole ++ rest) := by
  cases hwhole : Nat.toDigits 10 d.whole with
  | nil => exact absurd hwhole Nat.toDigits_ne_nil
  | cons c cs =>
    have hc : c.isDigit = true := by
      apply Nat.isDigit_of_mem_toDigits (b := 10) (n := d.whole) (by norm_num) (by norm_num)
      rw [hwhole]
      exact List.mem_cons_self
    have hminus : c ≠ '-' := by
      rintro rfl
      cases hc
    unfold optionalMinus
    split
    next heq => exact absurd (List.cons.inj heq).1 hminus
    next => rfl

/-! ## Reading a written number -/

section Reads
variable (hdigit : AsciiDigits digit) (d : Decimal)

include hdigit

/-- The digits before the point. -/
theorem span_whole {rest : List Char} (hrest : ∀ c ∈ rest.head?, digit c = none) :
    ∃ n ns, spanDigits digit (Nat.toDigits 10 d.whole ++ rest) = (n :: ns, rest) ∧
      numeral (n :: ns) = d.whole := by
  have hdigits : ∀ c ∈ Nat.toDigits 10 d.whole, c.isDigit = true := fun c hc =>
    Nat.isDigit_of_mem_toDigits (by norm_num) (by norm_num) hc
  have hspan := spanDigits_append hdigit hdigits hrest
  have hnumeral := numeral_toDigits d.whole
  cases hmap : (Nat.toDigits 10 d.whole).map fun c => c.toNat - 48 with
  | nil => exact absurd (List.map_eq_nil_iff.mp hmap) Nat.toDigits_ne_nil
  | cons n ns =>
    rw [hmap] at hspan hnumeral
    exact ⟨n, ns, hspan, hnumeral⟩

/-- The digits after the point. -/
theorem span_fraction {rest : List Char} (hrest : ∀ c ∈ rest.head?, digit c = none) :
    spanDigits digit (d.fraction.map Nat.digitChar ++ rest) = (d.fraction, rest) := by
  have hdigits : ∀ c ∈ d.fraction.map Nat.digitChar, c.isDigit = true := by
    intro c hc
    obtain ⟨n, hn, rfl⟩ := List.mem_map.mp hc
    have hall : ∀ n < 10, (Nat.digitChar n).isDigit = true := by decide
    exact hall n (Decimal.fraction_lt n hn)
  have hback : (d.fraction.map Nat.digitChar).map (fun c => c.toNat - 48) = d.fraction := by
    rw [List.map_map]
    calc d.fraction.map ((fun c => c.toNat - 48) ∘ Nat.digitChar) = d.fraction.map id :=
          List.map_congr_left fun n hn =>
            Nat.toNat_digitChar_sub_48_of_lt_ten (Decimal.fraction_lt n hn)
      _ = d.fraction := List.map_id _
  rw [spanDigits_append hdigit hdigits hrest, hback]

/-- The groups of a written duration: its seconds, and a fraction of up to nine digits. -/
theorem match_decimalDuration (hlength : d.fraction.length ≤ 9) :
    ∃ fraction, matchProtoDuration digit (decimalDuration d) = some ⟨false, d.whole, fraction⟩ ∧
      fraction.value = Decimal.fractionValue d.fraction := by
  have htext : (decimalDuration d).toList =
      Nat.toDigits 10 d.whole ++ (Decimal.pointChars d.fraction ++ ['s']) := by
    rw [decimalDuration, String.toList_append, Decimal.toList_fixed, List.append_assoc]
    rfl
  have hends := hdigit.head_none (c := 's') (by decide) (by decide) []
  unfold matchProtoDuration
  rw [htext, optionalMinus_whole d]
  dsimp only
  cases hfraction : d.fraction with
  | nil =>
    obtain ⟨n, ns, hspan, hnumeral⟩ := span_whole hdigit d hends
    rw [Decimal.pointChars, if_pos rfl, List.nil_append, hspan]
    refine ⟨⟨0, 0⟩, ?_, by simp [Decimal.value, Decimal.fractionValue]⟩
    exact congrArg (fun seconds => some (ProtoDuration.mk false seconds ⟨0, 0⟩)) hnumeral
  | cons f fs =>
    have hpoint := hdigit.head_none (c := '.') (by decide) (by decide)
      ((f :: fs).map Nat.digitChar ++ ['s'])
    obtain ⟨n, ns, hspan, hnumeral⟩ := span_whole hdigit d hpoint
    have hrest := span_fraction hdigit d hends
    rw [hfraction] at hrest hlength
    rw [Decimal.pointChars, if_neg (List.cons_ne_nil f fs), List.cons_append, hspan]
    simp only [hrest, if_pos hlength, hnumeral]
    exact ⟨_, rfl, numeral_fraction (f :: fs)⟩

/-- The seconds of a written interval: one number, with the digits of the fraction after it. -/
theorem secondsComponent_fixed :
    ∃ seconds, secondsComponent digit (d.fixed.toList ++ ['S']) = (seconds, []) ∧
      seconds.value = d.value ∧ seconds.exponent = -(d.fraction.length : ℤ) := by
  have hends := hdigit.head_none (c := 'S') (by decide) (by decide) []
  rw [Decimal.toList_fixed, List.append_assoc]
  unfold secondsComponent
  cases hfraction : d.fraction with
  | nil =>
    obtain ⟨n, ns, hspan, hnumeral⟩ := span_whole hdigit d hends
    rw [Decimal.pointChars, if_pos rfl, List.nil_append, hspan]
    refine ⟨⟨numeral (n :: ns), 0⟩, rfl, ?_, rfl⟩
    rw [Decimal.value_eq d, hfraction, hnumeral]
    simp [Decimal.value, Decimal.fractionValue]
  | cons f fs =>
    have hpoint := hdigit.head_none (c := '.') (by decide) (by decide)
      ((f :: fs).map Nat.digitChar ++ ['S'])
    obtain ⟨n, ns, hspan, hnumeral⟩ := span_whole hdigit d hpoint
    have hrest := span_fraction hdigit d hends
    rw [hfraction] at hrest
    rw [Decimal.pointChars, if_neg (List.cons_ne_nil f fs), List.cons_append, hspan]
    simp only [hrest]
    refine ⟨⟨numeral (n :: ns ++ f :: fs), -((f :: fs).length : ℤ)⟩, rfl, ?_, rfl⟩
    have hne : (10 : ℚ) ^ (f :: fs).length ≠ 0 := pow_ne_zero _ (by norm_num)
    have hfrac := numeral_fraction (f :: fs)
    rw [Decimal.value_eq d, hfraction, ← hfrac, Decimal.value, numeral_append, hnumeral]
    rw [zpow_neg, zpow_natCast]
    push_cast
    field_simp

/-- A component with another unit than the seconds' is not there. -/
theorem component_fixed (unit : Char) (hpoint : unit ≠ '.') (hseconds : unit ≠ 'S') :
    component digit unit (d.fixed.toList ++ ['S']) = (0, d.fixed.toList ++ ['S']) := by
  have hstop : ∃ c rest, Decimal.pointChars d.fraction ++ ['S'] = c :: rest ∧ c ≠ unit ∧
      ∀ c' ∈ (c :: rest).head?, digit c' = none := by
    unfold Decimal.pointChars
    split
    · exact ⟨'S', [], rfl, hseconds.symm, hdigit.head_none (by decide) (by decide) []⟩
    · exact ⟨'.', _, rfl, hpoint.symm, hdigit.head_none (by decide) (by decide) _⟩
  obtain ⟨c, rest, hrest, hc, hends⟩ := hstop
  obtain ⟨n, ns, hspan, -⟩ := span_whole hdigit d hends
  have htext : d.fixed.toList ++ ['S'] = Nat.toDigits 10 d.whole ++ c :: rest := by
    rw [Decimal.toList_fixed, List.append_assoc, hrest]
  rw [htext, component, hspan]
  exact if_neg hc

/-- The text of an interval of seconds. -/
def secondsText (d : Decimal) : String := "PT" ++ d.fixed ++ "S"

theorem parse_secondsText :
    ∃ seconds, parseIsoDuration digit (secondsText d) = some ⟨0, 0, 0, seconds⟩ ∧
      seconds.value = d.value ∧ seconds.exponent = -(d.fraction.length : ℤ) ∧
      Retry.groupLengths digit (secondsText d) = [0, 0, 0] := by
  obtain ⟨seconds, hseconds, hvalue, hexponent⟩ := secondsComponent_fixed hdigit d
  suffices parseIsoDuration digit (secondsText d) = some ⟨0, 0, 0, seconds⟩ ∧
      Retry.groupLengths digit (secondsText d) = [0, 0, 0] from
    ⟨seconds, this.1, hvalue, hexponent, this.2⟩
  have htext : (secondsText d).toList = 'P' :: 'T' :: (d.fixed.toList ++ ['S']) := by
    rw [secondsText, String.toList_append, String.toList_append]
    rfl
  have hdays : component digit 'D' ('T' :: (d.fixed.toList ++ ['S'])) =
      (0, 'T' :: (d.fixed.toList ++ ['S'])) := by
    have hspan : spanDigits digit ('T' :: (d.fixed.toList ++ ['S'])) =
        ([], 'T' :: (d.fixed.toList ++ ['S'])) := by
      rw [spanDigits, hdigit.digit_none (by decide) (by decide)]
    rw [component, hspan]
  have hhours := component_fixed hdigit d 'H' (by decide) (by decide)
  have hminutes := component_fixed hdigit d 'M' (by decide) (by decide)
  unfold parseIsoDuration Retry.groupLengths
  rw [htext]
  constructor
  · simp only [hdays, hhours, hminutes, hseconds, if_true]
  · simp only [hdays, List.tail_cons, hhours, hminutes, Nat.sub_self, Nat.zero_sub]

end Reads

/-! ## Magnitudes on which arithmetic is exact -/

/-- The most seconds that a protobuf duration has. -/
def mostSeconds : ℕ := 315576000000

theorem rounded_exponent (d : Decimal) : d.exponent ≤ d.rounded.exponent := by
  unfold Decimal.rounded
  dsimp only
  omega

theorem short_scaled {d : Decimal} (hplaces : -9 ≤ d.exponent) (hle : d.value ≤ mostSeconds)
    (factor : ℕ) (hfactor : factor ≤ 1000) : Decimal.Short (d.value * factor) := by
  have hvalue := Decimal.value_rescaled d hplaces
  set n := d.coefficient * 10 ^ (d.exponent - -9).toNat
  have hn : n ≤ mostSeconds * 10 ^ 9 := by
    have hscaled : (n : ℚ) = d.value * 10 ^ 9 := by
      rw [← hvalue, Decimal.value]
      norm_num
      field_simp
    have hcast : (n : ℚ) ≤ mostSeconds * 10 ^ 9 := by
      rw [hscaled]
      exact mul_le_mul_of_nonneg_right hle (by positivity)
    exact_mod_cast hcast
  have hsmall : n * factor < 10 ^ Decimal.precision := by
    calc n * factor ≤ mostSeconds * 10 ^ 9 * 1000 := Nat.mul_le_mul hn hfactor
      _ < 10 ^ Decimal.precision := by decide
  refine ⟨n * factor, -9, hsmall, by decide, ?_⟩
  rw [← hvalue, Decimal.value]
  push_cast
  ring

/-- A number of milliseconds that a message can hold is far from overflowing. -/
theorem not_overflows {d : Decimal} (h : d.value ≤ mostSeconds * 1000) : ¬ d.Overflows := by
  rw [Decimal.overflows_iff, not_le]
  have hsmall : (mostSeconds * 1000 : ℚ) < 10 ^ 15 := by norm_num [mostSeconds]
  have hlarge : (10 : ℚ) ^ 15 ≤ 10 ^ Decimal.digitLimit :=
    pow_le_pow_right₀ (by norm_num) (by decide)
  exact h.trans_lt (hsmall.trans_le hlarge)

theorem durationToMilliseconds_decimalDuration (hdigit : AsciiDigits digit) {d : Decimal}
    (hplaces : -9 ≤ d.exponent) (hle : d.value ≤ mostSeconds) :
    durationToMilliseconds digit (decimalDuration d) = .ok ⌊d.value * 1000⌋ := by
  have hlength : d.fraction.length ≤ 9 := d.length_fraction_le.trans (by omega)
  obtain ⟨fraction, hmatch, hfraction⟩ := match_decimalDuration hdigit d hlength
  have hwhole : Decimal.value ⟨d.whole, 0⟩ + fraction.value = d.value := by
    rw [IsoDuration.value_ofNat, hfraction, ← d.value_eq]
  have hshort : Decimal.Short d.value := by
    simpa using short_scaled hplaces hle 1 (by norm_num)
  have hsum : (Decimal.add ⟨d.whole, 0⟩ fraction).value = d.value := by
    rw [Decimal.add_value (hwhole ▸ hshort), hwhole]
  have hproduct : ((Decimal.add ⟨d.whole, 0⟩ fraction).mul ⟨1000, 0⟩).value = d.value * 1000 := by
    have hthousand : Decimal.value ⟨1000, 0⟩ = 1000 := IsoDuration.value_ofNat 1000
    have hscaled : Decimal.Short (d.value * 1000) := by
      exact_mod_cast short_scaled hplaces hle 1000 le_rfl
    rw [Decimal.mul_value (by rwa [hsum, hthousand]), hsum, hthousand]
  have hpositive : (⟨false, d.whole, fraction⟩ : ProtoDuration).sum =
      (false, Decimal.add ⟨d.whole, 0⟩ fraction) := if_neg fun h => by cases h.1
  have hfits : ¬ ((Decimal.add ⟨d.whole, 0⟩ fraction).mul ⟨1000, 0⟩).Overflows := by
    apply not_overflows
    rw [hproduct]
    exact mul_le_mul_of_nonneg_right hle (by norm_num)
  rw [durationToMilliseconds, hmatch]
  dsimp only
  rw [hpositive, ← hproduct, ← Decimal.toInt_eq_floor]
  dsimp only
  rw [if_neg hfits, if_neg Bool.false_ne_true]

/-! ## There and back -/

/-- The seconds that a number of milliseconds is turned into. -/
theorem seconds_value {n : ℕ} (hshort : Decimal.Short (Decimal.value ⟨n, -3⟩)) :
    (Decimal.rounded ⟨n, -3⟩).value = n / (1000 : ℕ) := by
  rw [Decimal.rounded_value hshort, Decimal.value]
  norm_num
  ring

theorem seconds_toInt {n : ℕ} (hshort : Decimal.Short (Decimal.value ⟨n, -3⟩)) :
    (Decimal.rounded ⟨n, -3⟩).toInt = n / 1000 := by
  have hfloor := Decimal.toInt_eq_floor (Decimal.rounded ⟨n, -3⟩)
  rw [seconds_value hshort, Rat.floor_natCast_div_natCast] at hfloor
  exact_mod_cast hfloor

theorem short_of_le_most {n : ℕ} (hle : n ≤ mostSeconds * 1000) :
    Decimal.Short (Decimal.value ⟨n, -3⟩) := by
  have hsmall : n < 10 ^ Decimal.precision := hle.trans_lt (by decide)
  exact ⟨n, -3, hsmall, by decide, rfl⟩

theorem rounded_milliseconds {n : ℕ} (hle : n ≤ mostSeconds * 1000) :
    (Decimal.rounded ⟨n, -3⟩).value = n / 1000 ∧ -3 ≤ (Decimal.rounded ⟨n, -3⟩).exponent := by
  refine ⟨?_, rounded_exponent ⟨n, -3⟩⟩
  exact_mod_cast seconds_value (short_of_le_most hle)

/-- The seconds of an interval are no integer too long to be written. -/
def Writable (seconds : Decimal) : Prop :=
  seconds.IsIntegral → Nat.log 10 seconds.toInt < maxStrDigits

theorem writable_milliseconds {n : ℕ} (hle : n ≤ mostSeconds * 1000) :
    Writable (Decimal.rounded ⟨n, -3⟩) := by
  intro _
  have hseconds := seconds_toInt (short_of_le_most hle)
  have hmost : (Decimal.rounded ⟨n, -3⟩).toInt ≤ mostSeconds := by omega
  have hlog : Nat.log 10 mostSeconds < 12 := Nat.log_lt_of_lt_pow (by decide) (by decide)
  exact (Nat.log_mono_right hmost).trans_lt (hlog.trans (by decide))

theorem milliseconds_survive (hdigit : AsciiDigits digit) {milliseconds : ℤ}
    (hnonneg : 0 ≤ milliseconds) (hle : milliseconds ≤ 315576000000000) :
    (millisecondsToDuration milliseconds >>= durationToMilliseconds digit) =
      .ok milliseconds := by
  obtain ⟨n, rfl⟩ := Int.eq_ofNat_of_zero_le hnonneg
  have hn : n ≤ mostSeconds * 1000 := by
    unfold mostSeconds
    omega
  obtain ⟨hvalue, hplaces⟩ := rounded_milliseconds hn
  have hmost : (Decimal.rounded ⟨n, -3⟩).value ≤ mostSeconds := by
    rw [hvalue, div_le_iff₀ (by norm_num)]
    exact_mod_cast hn
  have hback := durationToMilliseconds_decimalDuration hdigit
    (le_trans (by norm_num) hplaces) hmost
  rw [hvalue, div_mul_cancel₀ _ (by norm_num)] at hback
  rw [millisecondsToDuration, if_neg (not_lt.mpr hnonneg)]
  change durationToMilliseconds digit (decimalDuration (Decimal.rounded ⟨n, -3⟩)) = _
  rw [hback]
  exact congrArg Except.ok (Int.floor_natCast n)

theorem parseIsoDuration_exponent {value : String} {d : IsoDuration}
    (h : parseIsoDuration digit value = some d) : d.seconds.exponent ≤ 0 := by
  have hcomponent : ∀ text, (secondsComponent digit text).1.exponent ≤ 0 := by
    intro text
    unfold secondsComponent
    split
    · exact le_rfl
    · split
      · exact neg_nonpos.mpr (Int.natCast_nonneg _)
      · exact le_rfl
    · exact le_rfl
  unfold parseIsoDuration at h
  split at h
  · dsimp only at h
    split at h
    · cases h
      exact le_rfl
    · split at h
      · cases h
        exact hcomponent _
      · cases h
    · cases h
  · cases h

theorem exact_nonneg (d : IsoDuration) : 0 ≤ d.exact := by
  have hseconds : 0 ≤ d.seconds.value :=
    mul_nonneg (Nat.cast_nonneg _) (zpow_nonneg (by norm_num) _)
  unfold IsoDuration.exact
  positivity

/-- Durations of at most nine places and no more seconds than a message holds are not rounded. -/
theorem unrounded_of_le {d : IsoDuration} (hzero : d.seconds.exponent ≤ 0)
    (hplaces : -9 ≤ d.seconds.exponent) (hle : d.exact ≤ mostSeconds) : d.Unrounded := by
  obtain ⟨places, hexponent⟩ := Int.eq_ofNat_of_zero_le (neg_nonneg.mpr hzero)
  have hneg : d.seconds.exponent = -places := by omega
  have hnine : places ≤ 9 := by omega
  have hsmallest : Decimal.smallestExponent ≤ -9 := by decide
  apply IsoDuration.unrounded_of_lt places hneg (hsmallest.trans hplaces)
  have hscaled : d.exact * 10 ^ places =
      ((d.days * 86400 + d.hours * 3600 + d.minutes * 60) * 10 ^ places
        + d.seconds.coefficient : ℕ) := by
    unfold IsoDuration.exact Decimal.value
    rw [hneg, zpow_neg, zpow_natCast]
    push_cast
    field_simp
  have hcast : (((d.days * 86400 + d.hours * 3600 + d.minutes * 60) * 10 ^ places
      + d.seconds.coefficient : ℕ) : ℚ) ≤ mostSeconds * 10 ^ places := by
    rw [← hscaled]
    exact mul_le_mul_of_nonneg_right hle (by positivity)
  have hnat : (d.days * 86400 + d.hours * 3600 + d.minutes * 60) * 10 ^ places
      + d.seconds.coefficient ≤ mostSeconds * 10 ^ places := by exact_mod_cast hcast
  calc _ ≤ mostSeconds * 10 ^ places := hnat
    _ ≤ mostSeconds * 10 ^ 9 := Nat.mul_le_mul_left _ (Nat.pow_le_pow_right (by norm_num) hnine)
    _ < 10 ^ Decimal.precision := by decide

theorem total_exponent {d : IsoDuration} (hplaces : -9 ≤ d.seconds.exponent) :
    -9 ≤ d.total.exponent := by
  have hadd : ∀ a b : Decimal, min a.exponent b.exponent ≤ (a.add b).exponent := fun a b =>
    rounded_exponent ⟨_, min a.exponent b.exponent⟩
  have hmul : ∀ m n : ℕ, 0 ≤ (Decimal.mul ⟨m, 0⟩ ⟨n, 0⟩).exponent := fun m n =>
    rounded_exponent ⟨m * n, 0 + 0⟩
  have hhours := hadd (.mul ⟨d.days, 0⟩ ⟨86400, 0⟩) (.mul ⟨d.hours, 0⟩ ⟨3600, 0⟩)
  have hminutes := hadd ((Decimal.mul ⟨d.days, 0⟩ ⟨86400, 0⟩).add (.mul ⟨d.hours, 0⟩ ⟨3600, 0⟩))
    (.mul ⟨d.minutes, 0⟩ ⟨60, 0⟩)
  have hseconds := hadd (((Decimal.mul ⟨d.days, 0⟩ ⟨86400, 0⟩).add
    (.mul ⟨d.hours, 0⟩ ⟨3600, 0⟩)).add (.mul ⟨d.minutes, 0⟩ ⟨60, 0⟩)) d.seconds
  have hd := hmul d.days 86400
  have hh := hmul d.hours 3600
  have hm := hmul d.minutes 60
  unfold IsoDuration.total
  omega

/-- An interval is written without a fraction when it has none, which is what `format` does too. -/
theorem protobufDurationToIso_eq {text : String} {n : ℕ}
    (h : durationToMilliseconds digit text = .ok (n : ℤ))
    (hwritable : Writable (Decimal.rounded ⟨n, -3⟩)) :
    protobufDurationToIso digit text = .ok (secondsText (Decimal.rounded ⟨n, -3⟩)) := by
  have hsign : ¬ (n : ℤ) < 0 := not_lt.mpr (Int.natCast_nonneg n)
  rw [protobufDurationToIso, h, ok_bind]
  simp only [Int.natAbs_natCast, if_neg hsign]
  by_cases hintegral : (Decimal.rounded ⟨n, -3⟩).IsIntegral
  · rw [if_pos hintegral, strInt, if_neg (not_le.mpr (hwritable hintegral)), ok_bind,
      ← Decimal.fixed_of_integral hintegral]
    rfl
  · rw [if_neg hintegral]
    rfl

theorem protobufDurationToIso_error {text : String} {n : ℕ}
    (h : durationToMilliseconds digit text = .ok (n : ℤ))
    (hwritable : ¬ Writable (Decimal.rounded ⟨n, -3⟩)) :
    ∃ e, protobufDurationToIso digit text = .error e := by
  obtain ⟨hintegral, hlong⟩ := Classical.not_imp.mp hwritable
  rw [protobufDurationToIso, h, ok_bind]
  simp only [Int.natAbs_natCast]
  rw [if_pos hintegral, strInt, if_pos (not_lt.mp hlong)]
  exact ⟨_, rfl⟩

/-- A number of seconds rounded down to a whole millisecond. -/
def wholeMilliseconds (seconds : ℚ) : ℚ := ⌊seconds * 1000⌋ / 1000

/-- Both readers of ISO durations find in a text the number that it was written from. -/
theorem read_secondsText (hdigit : AsciiDigits digit) {d : Decimal} (hplaces : -9 ≤ d.exponent)
    (hle : d.value ≤ mostSeconds) :
    (∃ back, isoDurationToProtobuf digit (secondsText d) = .ok (decimalDuration back) ∧
      back.value = d.value) ∧
    Retry.parseIso8601Duration digit (secondsText d) = .ok d.value := by
  obtain ⟨seconds, hparse, hvalue, hexponent, hgroups⟩ := parse_secondsText hdigit d
  have hlength := d.length_fraction_le
  have hexact : (⟨0, 0, 0, seconds⟩ : IsoDuration).exact = d.value := by
    rw [IsoDuration.exact, hvalue]
    simp
  constructor
  · refine ⟨(⟨0, 0, 0, seconds⟩ : IsoDuration).total, by rw [isoDurationToProtobuf, hparse], ?_⟩
    have hunrounded : (⟨0, 0, 0, seconds⟩ : IsoDuration).Unrounded := by
      apply unrounded_of_le
      · change seconds.exponent ≤ 0
        omega
      · change -9 ≤ seconds.exponent
        omega
      · rw [hexact]
        exact hle
    rw [IsoDuration.total_value hunrounded, hexact]
  · have hwhole : Retry.withoutFinalNewline (secondsText d) = secondsText d := by
      have hlast : (secondsText d).toList.getLast? = some 'S' := by
        rw [secondsText, String.toList_append]
        exact List.getLast?_concat
      have hline : ¬ (secondsText d).toList.getLast? = some '\n' := by
        rw [hlast]
        decide
      rw [Retry.withoutFinalNewline, if_neg hline]
    have hmatch : Retry.matchDuration digit (secondsText d) = some ⟨0, 0, 0, seconds⟩ := by
      rw [Retry.matchDuration, hwhole, hparse]
    have hdigits : Retry.IntDigits digit (secondsText d) := by
      intro n hn
      rw [hwhole, hgroups] at hn
      have hzero : n = 0 := by simpa using hn
      rw [hzero]
      exact Nat.zero_le _
    have hzero : Retry.wholeSeconds ⟨0, 0, 0, seconds⟩ < Number.floatLimit := by
      have hwhole : Retry.wholeSeconds ⟨0, 0, 0, seconds⟩ = 0 := by simp [Retry.wholeSeconds]
      rw [hwhole]
      exact Number.floatLimit_pos
    rw [(Retry.parse_cases hmatch hdigits).1 hzero, Retry.inSeconds, hvalue]
    simp [Retry.wholeSeconds]

/-- Milliseconds survive the mapping, and a duration survives it up to a whole millisecond. -/
theorem durations_survive_mapping (hdigit : AsciiDigits digit) :
    (∀ milliseconds : ℤ, 0 ≤ milliseconds → milliseconds ≤ 315576000000000 →
      (millisecondsToDuration milliseconds >>= durationToMilliseconds digit) =
        .ok milliseconds) ∧
    ∀ value d, parseIsoDuration digit value = some d → -9 ≤ d.seconds.exponent →
      d.exact ≤ mostSeconds →
      ∃ text milliseconds iso,
        isoDurationToProtobuf digit value = .ok text ∧
        durationToMilliseconds digit text = .ok milliseconds ∧
        protobufDurationToIso digit text = .ok iso ∧
        (∃ back, isoDurationToProtobuf digit iso = .ok (decimalDuration back) ∧
          back.value = wholeMilliseconds d.exact) ∧
        Retry.parseIso8601Duration digit iso = .ok (wholeMilliseconds d.exact) := by
  refine ⟨fun milliseconds hnonneg hle => milliseconds_survive hdigit hnonneg hle, ?_⟩
  intro value d hparse hplaces hle
  have htotal := IsoDuration.total_value
    (unrounded_of_le (parseIsoDuration_exponent hparse) hplaces hle)
  have hmilliseconds := durationToMilliseconds_decimalDuration hdigit (total_exponent hplaces)
    (htotal ▸ hle)
  rw [htotal] at hmilliseconds
  -- the milliseconds are a natural number in range
  have hfloor : 0 ≤ ⌊d.exact * 1000⌋ :=
    Int.floor_nonneg.mpr (mul_nonneg (exact_nonneg d) (by norm_num))
  obtain ⟨n, hn⟩ := Int.eq_ofNat_of_zero_le hfloor
  have hmost : n ≤ mostSeconds * 1000 := by
    have hle' : (n : ℚ) ≤ mostSeconds * 1000 := by
      have hcast : (n : ℚ) = (⌊d.exact * 1000⌋ : ℤ) := by rw [hn]; rfl
      rw [hcast]
      exact (Int.floor_le _).trans (mul_le_mul_of_nonneg_right hle (by norm_num))
    exact_mod_cast hle'
  obtain ⟨hvalue, hthree⟩ := rounded_milliseconds hmost
  have hrounded : (Decimal.rounded ⟨n, -3⟩).value = wholeMilliseconds d.exact := by
    rw [hvalue, wholeMilliseconds, hn]
    rfl
  have hread := read_secondsText hdigit (le_trans (by norm_num) hthree) (by
    rw [hvalue, div_le_iff₀ (by norm_num)]
    exact_mod_cast hmost)
  rw [hrounded] at hread
  exact ⟨decimalDuration d.total, ⌊d.exact * 1000⌋, secondsText (Decimal.rounded ⟨n, -3⟩),
    by rw [isoDurationToProtobuf, hparse], hmilliseconds,
    protobufDurationToIso_eq (hmilliseconds.trans (congrArg Except.ok hn))
      (writable_milliseconds hmost), hread.1, hread.2⟩

def asciiDigit (c : Char) : Option ℕ := if c.isDigit then some (c.toNat - 48) else none

theorem asciiDigits : AsciiDigits asciiDigit := fun _ _ => rfl

theorem parse_ninetySeconds :
    parseIsoDuration asciiDigit "PT90.0005S" = some ⟨0, 0, 0, ⟨900005, -4⟩⟩ := by
  decide +kernel

theorem ninety_seconds_survive :
    (millisecondsToDuration 90000 >>= durationToMilliseconds asciiDigit) = .ok 90000 ∧
    ∃ text milliseconds iso,
      isoDurationToProtobuf asciiDigit "PT90.0005S" = .ok text ∧
      durationToMilliseconds asciiDigit text = .ok milliseconds ∧
      protobufDurationToIso asciiDigit text = .ok iso ∧
      (∃ back, isoDurationToProtobuf asciiDigit iso = .ok (decimalDuration back) ∧
        back.value = wholeMilliseconds (IsoDuration.exact ⟨0, 0, 0, ⟨900005, -4⟩⟩)) ∧
      Retry.parseIso8601Duration asciiDigit iso =
        .ok (wholeMilliseconds (IsoDuration.exact ⟨0, 0, 0, ⟨900005, -4⟩⟩)) :=
  ⟨(durations_survive_mapping asciiDigits).1 90000 (by decide) (by decide),
    (durations_survive_mapping asciiDigits).2 "PT90.0005S" _ parse_ninetySeconds (by decide)
      (by norm_num [IsoDuration.exact, Decimal.value, mostSeconds])⟩

end OpenJobSpec.Grpc
