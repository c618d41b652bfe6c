import OpenJobSpec.Foundation.ExceptRules
import OpenJobSpec.Http.RateLimiter
import OpenJobSpec.Retry.Backoff
import OpenJobSpec.Sse.SubscriptionSession
import OpenJobSpec.Worker.ExecutionRetry
import Mathlib.Tactic.Linarith
import Mathlib.Tactic.Positivity

/-! # Capped delays

Four places compute an exponential delay first and cap it afterwards. Whatever
is computed lies under the cap; what can fail is the computation of the value
that the cap is applied to.
-/
namespace OpenJobSpec
open ExceptRules Sse

/-- A delay is computed, and lies between zero and a maximum. -/
def Capped (delay : Except Exn ℚ) (maximum : ℚ) : Prop :=
  ∃ d, delay = .ok d ∧ 0 ≤ d ∧ d ≤ maximum

theorem not_capped_of_error {e : Exn} {maximum : ℚ} : ¬ Capped (.error e) maximum := by
  rintro ⟨d, hd, -⟩
  cases hd

theorem capped_ok_iff {d maximum : ℚ} : Capped (.ok d) maximum ↔ 0 ≤ d ∧ d ≤ maximum := by
  constructor
  · rintro ⟨_, ⟨⟩, h⟩
    exact h
  · exact fun h => ⟨d, rfl, h⟩

/-- A draw of `random.random()`. -/
structure Draw (random : ℚ) : Prop where
  nonneg : 0 ≤ random
  lt_one : random < 1

/-! ## The conversions that can fail -/

namespace Number

def IsInt (n : Number) : Prop := ∃ i, n = .int i

theorem toFloat_int (i : ℤ) :
    (int i).toFloat = if floatLimit ≤ i.natAbs then .error tooLarge else .ok (i : ℚ) := rfl

/-- A number that a float can hold: an integer below the limit, and every float. -/
def Fits : Number → Prop
  | int i => i.natAbs < floatLimit
  | float _ => True

theorem toFloat_of_fits {n : Number} (h : n.Fits) : n.toFloat = .ok n.value := by
  cases n with
  | int i => rw [toFloat_int, if_neg (not_le.mpr h), value]
  | float q => rfl

theorem toFloat_of_not_fits {n : Number} (h : ¬ n.Fits) : n.toFloat = .error tooLarge := by
  cases n with
  | int i => rw [toFloat_int, if_pos (not_lt.mp h)]
  | float q => exact absurd trivial h

theorem smaller_fits_iff (a b : Number) :
    (a.smaller b).Fits ↔ (a.value ≤ b.value → a.Fits) ∧ (b.value < a.value → b.Fits) := by
  unfold smaller
  by_cases h : b.value < a.value
  · rw [if_pos h]
    exact ⟨fun hb => ⟨fun hle => absurd h (not_lt.mpr hle), fun _ => hb⟩, fun hall => hall.2 h⟩
  · rw [if_neg h]
    exact ⟨fun ha => ⟨fun _ => ha, fun hlt => absurd hlt h⟩, fun hall => hall.1 (not_lt.mp h)⟩

theorem scaled_ok_iff (n : Number) (exponent : ℕ) :
    (∃ m, n.scaled exponent = .ok m) ↔ n.IsInt ∨ exponent < 1024 := by
  cases n with
  | int i => exact iff_of_true ⟨_, rfl⟩ (.inl ⟨i, rfl⟩)
  | float q =>
    have hfloat : ¬ (float q).IsInt := by
      rintro ⟨i, hi⟩
      cases hi
    rw [or_iff_right hfloat, scaled]
    by_cases h : 1024 ≤ exponent
    · rw [if_pos h]
      refine iff_of_false ?_ (not_lt.mpr h)
      rintro ⟨m, hm⟩
      cases hm
    · rw [if_neg h]
      exact iff_of_true ⟨_, rfl⟩ (not_le.mp h)

theorem scaled_spec {n m : Number} {exponent : ℕ} (h : n.scaled exponent = .ok m) :
    m.value = n.value * 2 ^ exponent ∧
      (m.Fits ↔ ∀ i, n = .int i → (i * 2 ^ exponent).natAbs < floatLimit) := by
  cases n with
  | int i =>
    cases h
    refine ⟨by simp [value], ?_⟩
    constructor
    · rintro hfits _ ⟨⟩
      exact hfits
    · exact fun hall => hall i rfl
  | float q =>
    rw [scaled] at h
    split at h
    · cases h
    · cases h
      exact ⟨rfl, iff_of_true trivial fun i hi => by cases hi⟩

end Number

/-! ## Reconnects of a subscription -/

namespace Sse.SubscriptionSession
variable (s : SubscriptionSession)

theorem pause_capped_iff (reconnects : ℕ) :
    Capped (s.pause reconnects) 30 ↔ s.reconnectDelay.IsInt ∨ reconnects - 1 < 1024 := by
  rw [← Number.scaled_ok_iff, pause]
  cases hscaled : s.reconnectDelay.scaled (reconnects - 1) with
  | error e =>
    refine iff_of_false not_capped_of_error ?_
    rintro ⟨m, hm⟩
    cases hm
  | ok m =>
    refine iff_of_true (capped_ok_iff.mpr ⟨?_, min_le_right _ _⟩) ⟨m, rfl⟩
    have hnonneg : 0 ≤ m.value := by
      rw [(Number.scaled_spec hscaled).1]
      exact mul_nonneg s.delay_nonneg (by positivity)
    exact le_min hnonneg (by norm_num)

end Sse.SubscriptionSession

/-! ## Local retries of a worker -/

/-- A jitter between a half and one keeps a delay between zero and itself. -/
theorem jittered_le {capped random : ℚ} (h : 0 ≤ capped) (hdraw : Draw random) :
    0 ≤ capped * (1 / 2 + random * (1 / 2)) ∧ capped * (1 / 2 + random * (1 / 2)) ≤ capped := by
  have hlow : 0 ≤ 1 / 2 + random * (1 / 2) := by linarith [hdraw.nonneg]
  have hhigh : 1 / 2 + random * (1 / 2) ≤ 1 := by linarith [hdraw.lt_one]
  exact ⟨mul_nonneg h hlow, mul_le_of_le_one_right h hhigh⟩

namespace Worker.ExecutionRetry
variable (r : ExecutionRetry) (attempt : ℕ)

/-- The power of two is in range, and so is the number that the cap leaves. -/
structure DelayFits : Prop where
  power : r.baseDelay.IsInt ∨ attempt < 1024
  scaled : r.baseDelay.value * 2 ^ attempt ≤ r.maxDelay.value →
    ∀ i, r.baseDelay = .int i → (i * 2 ^ attempt).natAbs < Number.floatLimit
  maximum : r.maxDelay.value < r.baseDelay.value * 2 ^ attempt → r.maxDelay.Fits

theorem delay_capped_iff (hdraw : Draw (r.randomValue attempt)) :
    Capped (r.delay attempt) r.maxDelay.value ↔ r.DelayFits attempt := by
  cases hscaled : r.baseDelay.scaled attempt with
  | error e =>
    rw [delay, hscaled]
    refine iff_of_false not_capped_of_error fun hfits => ?_
    obtain ⟨m, hm⟩ := (Number.scaled_ok_iff _ _).mpr hfits.power
    cases hscaled.symm.trans hm
  | ok m =>
    obtain ⟨hvalue, hm⟩ := Number.scaled_spec hscaled
    have hpower := (Number.scaled_ok_iff _ _).mp ⟨m, hscaled⟩
    have hiff : (m.smaller r.maxDelay).Fits ↔ r.DelayFits attempt := by
      rw [Number.smaller_fits_iff, hm, hvalue]
      exact ⟨fun h => ⟨hpower, h.1, h.2⟩, fun h => ⟨h.scaled, h.maximum⟩⟩
    rw [← hiff, delay, hscaled, ok_bind]
    by_cases hfits : (m.smaller r.maxDelay).Fits
    · rw [Number.toFloat_of_fits hfits, ok_bind, Number.value_smaller, hvalue]
      refine iff_of_true (capped_ok_iff.mpr ?_) hfits
      have hscale : 0 ≤ r.baseDelay.value * 2 ^ attempt :=
        mul_nonneg r.baseDelay_nonneg (by positivity)
      have hcapped := le_min hscale r.maxDelay_nonneg
      have hle := min_le_right (r.baseDelay.value * 2 ^ attempt) r.maxDelay.value
      split
      · have hjitter := jittered_le hcapped hdraw
        exact ⟨hjitter.1, hjitter.2.trans hle⟩
      · exact ⟨hcapped, hle⟩
    · rw [Number.toFloat_of_not_fits hfits]
      exact iff_of_false not_capped_of_error hfits

end Worker.ExecutionRetry

/-! ## Retries of a request -/

theorem Http.calculateBackoff_capped_iff {random : ℚ} (hdraw : Draw random) {config : RetryConfig}
    (hmin : 0 ≤ config.minBackoff) (hmax : 0 ≤ config.maxBackoff) (attempt : ℕ)
    (retryAfter : Option ℚ) :
    Capped (calculateBackoff random attempt retryAfter config) config.maxBackoff ↔
      BackoffComputes attempt retryAfter := by
  by_cases hcomputes : BackoffComputes attempt retryAfter
  · refine iff_of_true ?_ hcomputes
    obtain ⟨delay, hdelay⟩ := calculateBackoff_ok random config hcomputes
    rw [hdelay]
    apply capped_ok_iff.mpr
    unfold calculateBackoff at hdelay
    cases hafter : retryAfter.filter (fun seconds => 0 < seconds) with
    | some seconds =>
      have hpositive : 0 < seconds := by
        simpa using (Option.mem_filter_iff.mp hafter).2
      rw [hafter] at hdelay
      cases hdelay
      exact ⟨le_min hpositive.le hmax, min_le_right _ _⟩
    | none =>
      rw [hafter] at hdelay
      obtain ⟨power, hpower, hrest⟩ := bind_eq_ok.mp hdelay
      cases hrest
      have hpositive : 0 ≤ power := by
        unfold powTwo at hpower
        split at hpower
        · cases hpower
          positivity
        · cases hpower
      have hcapped := le_min (mul_nonneg hmin hpositive) hmax
      have hjitter := jittered_le hcapped hdraw
      exact ⟨hjitter.1, hjitter.2.trans (min_le_right _ _)⟩
  · refine iff_of_false ?_ hcomputes
    obtain ⟨message, hmessage⟩ := calculateBackoff_error random config hcomputes
    rw [hmessage]
    exact not_capped_of_error

/-! ## The server-side retry policy -/

namespace Number

/-- A power that is computed: of an integer as an integer, unless the exponent is negative, and of
a float with an exponent that is converted. -/
def PowerFits (base : Number) (exponent : ℤ) : Prop :=
  match base with
  | int n =>
    if 0 ≤ exponent then (n ^ exponent.toNat).natAbs < floatLimit
    else n.natAbs < floatLimit ∧ exponent.natAbs < floatLimit
  | float q => exponent.natAbs < floatLimit ∧ q ^ exponent < floatLimit

theorem floatPow_of_pos {q : ℚ} (hq : 0 < q) (exponent : ℤ) :
    (q ^ exponent < floatLimit → floatPow q exponent = .ok (q ^ exponent)) ∧
      (¬ q ^ exponent < floatLimit → ∃ e, floatPow q exponent = .error e) := by
  have hzero : ¬ (q = 0 ∧ exponent < 0) := fun h => hq.ne' h.1
  have habs : |q ^ exponent| = q ^ exponent := abs_of_pos (zpow_pos hq exponent)
  constructor
  · intro h
    rw [floatPow, if_neg hzero, habs, if_neg (not_le.mpr h)]
  · intro h
    rw [floatPow, if_neg hzero, habs, if_pos (not_lt.mp h)]
    exact ⟨_, rfl⟩

/-- A number of at least one raised to a power and made a float. -/
theorem pow_toFloat {base : Number} (hbase : 1 ≤ base.value) (exponent : ℤ) :
    (base.PowerFits exponent → ∃ q, base.pow exponent >>= toFloat = .ok q ∧ 0 ≤ q) ∧
      (¬ base.PowerFits exponent → ∃ e, base.pow exponent >>= toFloat = .error e) := by
  have hpositive : 0 < base.value := zero_lt_one.trans_le hbase
  cases base with
  | int n =>
    rw [value] at hbase hpositive
    by_cases hexponent : 0 ≤ exponent
    · rw [PowerFits, if_pos hexponent, pow, if_pos hexponent, ok_bind]
      constructor
      · intro h
        refine ⟨_, toFloat_of_fits h, ?_⟩
        have hn : 0 ≤ n := by exact_mod_cast hpositive.le
        exact Int.cast_nonneg (pow_nonneg hn _)
      · exact fun h => ⟨_, toFloat_of_not_fits h⟩
    · rw [PowerFits, if_neg hexponent, pow, if_neg hexponent]
      constructor
      · rintro ⟨hn, hk⟩
        have hone : (n : ℚ) ^ exponent ≤ 1 := zpow_le_one_of_nonpos₀ hbase (not_le.mp hexponent).le
        have hlimit : (1 : ℚ) < floatLimit := by exact_mod_cast Nat.one_lt_two_pow (by decide)
        have hsmall : (n : ℚ) ^ exponent < floatLimit := hone.trans_lt hlimit
        rw [toFloat_of_fits (n := int n) hn, ok_bind, toFloat_of_fits (n := int exponent) hk,
          ok_bind, value, (floatPow_of_pos hpositive exponent).1 hsmall]
        exact ⟨_, rfl, (zpow_pos hpositive exponent).le⟩
      · intro h
        by_cases hn : (int n).Fits
        · have hk : ¬ (int exponent).Fits := fun hk => h ⟨hn, hk⟩
          rw [toFloat_of_fits hn, ok_bind, toFloat_of_not_fits hk]
          exact ⟨_, rfl⟩
        · rw [toFloat_of_not_fits hn]
          exact ⟨_, rfl⟩
  | float q =>
    rw [value] at hbase hpositive
    rw [PowerFits, pow]
    constructor
    · rintro ⟨hk, hsmall⟩
      rw [toFloat_of_fits (n := int exponent) hk, ok_bind,
        (floatPow_of_pos hpositive exponent).1 hsmall]
      exact ⟨_, rfl, (zpow_pos hpositive exponent).le⟩
    · intro h
      by_cases hk : (int exponent).Fits
      · obtain ⟨e, he⟩ := (floatPow_of_pos hpositive exponent).2 fun hsmall => h ⟨hk, hsmall⟩
        rw [toFloat_of_fits hk, ok_bind, he]
        exact ⟨_, rfl⟩
      · rw [toFloat_of_not_fits hk]
        exact ⟨_, rfl⟩

end Number

namespace Retry
variable {digit : Char → Option ℕ}

def inSeconds (d : Grpc.IsoDuration) : ℚ := wholeSeconds d + d.seconds.value

theorem inSeconds_nonneg (d : Grpc.IsoDuration) : 0 ≤ inSeconds d := by
  have hseconds : 0 ≤ d.seconds.value :=
    mul_nonneg (Nat.cast_nonneg _) (zpow_nonneg (by norm_num) _)
  exact add_nonneg (Nat.cast_nonneg _) hseconds

variable (digit) in
/-- No group of days, hours or minutes has more digits than `int` reads. -/
def IntDigits (text : String) : Prop :=
  ∀ n ∈ groupLengths digit (withoutFinalNewline text), n ≤ Grpc.maxStrDigits

theorem digitLimit_cases (lengths : List ℕ) :
    ((∀ n ∈ lengths, n ≤ Grpc.maxStrDigits) → digitLimit lengths = .ok ()) ∧
      ((¬ ∀ n ∈ lengths, n ≤ Grpc.maxStrDigits) →
        ∃ message, digitLimit lengths = .error (.builtin .valueError message)) := by
  unfold digitLimit
  cases hfind : lengths.find? fun n => Grpc.maxStrDigits < n with
  | none =>
    have hnone := List.find?_eq_none.mp hfind
    exact ⟨fun _ => rfl, fun h => absurd (fun n hn => by simpa using hnone n hn) h⟩
  | some n =>
    refine ⟨fun h => ?_, fun _ => ⟨_, rfl⟩⟩
    have hlong : Grpc.maxStrDigits < n := by simpa using List.find?_some hfind
    exact absurd (h n (List.mem_of_find?_eq_some hfind)) (not_le.mpr hlong)

/-- A duration is computed when its days, hours and minutes are in range. -/
theorem parse_cases {text : String} {d : Grpc.IsoDuration} (h : matchDuration digit text = some d)
    (hdigits : IntDigits digit text) :
    (wholeSeconds d < Number.floatLimit → parseIso8601Duration digit text = .ok (inSeconds d)) ∧
      (¬ wholeSeconds d < Number.floatLimit →
        parseIso8601Duration digit text = .error Number.tooLarge) := by
  rw [parseIso8601Duration, h]
  dsimp only
  rw [(digitLimit_cases _).1 hdigits, ok_bind]
  constructor
  · intro hsmall
    have hfits : (Number.int (wholeSeconds d)).Fits := hsmall
    rw [Number.toFloat_of_fits hfits]
    rfl
  · intro hlarge
    have hfits : ¬ (Number.int (wholeSeconds d)).Fits := hlarge
    rw [Number.toFloat_of_not_fits hfits]
    rfl

theorem parse_of_long {text : String} {d : Grpc.IsoDuration}
    (h : matchDuration digit text = some d) (hdigits : ¬ IntDigits digit text) :
    ∃ message, parseIso8601Duration digit text = .error (.builtin .valueError message) := by
  obtain ⟨message, hlimit⟩ := (digitLimit_cases _).2 hdigits
  rw [parseIso8601Duration, h]
  dsimp only
  rw [hlimit]
  exact ⟨message, rfl⟩

variable (digit) in
/-- An interval that is read and in range. -/
structure IntervalFits (text : String) (d : Grpc.IsoDuration) : Prop where
  digits : IntDigits digit text
  range : wholeSeconds d < Number.floatLimit

theorem parse_of_fits {text : String} {d : Grpc.IsoDuration}
    (h : matchDuration digit text = some d) :
    (IntervalFits digit text d → parseIso8601Duration digit text = .ok (inSeconds d)) ∧
      (¬ IntervalFits digit text d → ∃ e, parseIso8601Duration digit text = .error e) := by
  constructor
  · rintro ⟨hdigits, hrange⟩
    exact (parse_cases h hdigits).1 hrange
  · intro hnot
    by_cases hdigits : IntDigits digit text
    · exact ⟨_, (parse_cases h hdigits).2 fun hrange => hnot ⟨hdigits, hrange⟩⟩
    · obtain ⟨message, he⟩ := parse_of_long h hdigits
      exact ⟨_, he⟩

variable (digit) in
/-- Both intervals are read and in range, and so is the power of the coefficient. -/
structure BackoffFits (policy : BackoffPolicy) (initial maximum : Grpc.IsoDuration) (attempt : ℤ) :
    Prop where
  initial : IntervalFits digit policy.initialInterval initial
  maximum : IntervalFits digit policy.maxInterval maximum
  power : policy.backoffCoefficient.PowerFits (attempt - 1)

theorem delayForAttempt_capped_iff {policy : BackoffPolicy} {initial maximum : Grpc.IsoDuration}
    (hinitial : matchDuration digit policy.initialInterval = some initial)
    (hmaximum : matchDuration digit policy.maxInterval = some maximum)
    (hcoefficient : 1 ≤ policy.backoffCoefficient.value) {random : ℚ} (hdraw : Draw random)
    (attempt : ℤ) :
    Capped (policy.delayForAttempt digit random attempt) (inSeconds maximum) ↔
      BackoffFits digit policy initial maximum attempt := by
  have hpower := Number.pow_toFloat hcoefficient (attempt - 1)
  unfold BackoffPolicy.delayForAttempt
  by_cases hi : IntervalFits digit policy.initialInterval initial
  swap
  · obtain ⟨e, he⟩ := (parse_of_fits hinitial).2 hi
    rw [he]
    exact iff_of_false not_capped_of_error fun h => hi h.initial
  rw [(parse_of_fits hinitial).1 hi, ok_bind]
  by_cases hm : IntervalFits digit policy.maxInterval maximum
  swap
  · obtain ⟨e, he⟩ := (parse_of_fits hmaximum).2 hm
    rw [he]
    exact iff_of_false not_capped_of_error fun h => hm h.maximum
  rw [(parse_of_fits hmaximum).1 hm, ok_bind, ← bind_assoc]
  by_cases hp : policy.backoffCoefficient.PowerFits (attempt - 1)
  swap
  · obtain ⟨e, he⟩ := hpower.2 hp
    rw [he]
    exact iff_of_false not_capped_of_error fun h => hp h.power
  obtain ⟨q, hq, hnonneg⟩ := hpower.1 hp
  rw [hq, ok_bind]
  refine iff_of_true (capped_ok_iff.mpr ?_) ⟨hi, hm, hp⟩
  have hdelay : 0 ≤ min (inSeconds initial * q) (inSeconds maximum) :=
    le_min (mul_nonneg (inSeconds_nonneg initial) hnonneg) (inSeconds_nonneg maximum)
  split
  · have huniform : 0 ≤ uniform random (1 / 2) (3 / 2) := by
      unfold uniform
      linarith [hdraw.nonneg]
    exact ⟨le_min (mul_nonneg hdelay huniform) (inSeconds_nonneg maximum), min_le_right _ _⟩
  · exact ⟨hdelay, min_le_right _ _⟩

end Retry

/-! ## All four delays -/

/-- A session and a worker retry with their default delays. -/
def patientSession : SubscriptionSession where
  streamUrl := "http://localhost/ojs/v1/events/stream"
  channel := "jobs"
  auth := none
  malformedData := .raw
  reconnect := true
  maxReconnects := 2000
  reconnectDelay := .float (1 / 2)
  ownsClient := true
  channel_ne := by decide
  delay_nonneg := by decide +kernel

theorem tenth_nonneg : 0 ≤ (Number.float (1 / 10)).value := by decide +kernel

theorem thirty_nonneg : 0 ≤ (Number.float 30).value := by decide +kernel

def patientRetry : Worker.ExecutionRetry where
  maxRetries := 2000
  baseDelay := .float (1 / 10)
  maxDelay := .float 30
  jitter := false
  randomValue _ := 0
  baseDelay_nonneg := tenth_nonneg
  maxDelay_nonneg := thirty_nonneg

/-- The ASCII digits. -/
def decimalDigit (c : Char) : Option ℕ := if c.isDigit then some (c.toNat - 48) else none

end OpenJobSpec
