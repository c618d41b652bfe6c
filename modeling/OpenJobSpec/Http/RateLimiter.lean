import OpenJobSpec.Errors.Hierarchy
import Mathlib.Algebra.Order.Ring.Rat

/-! # Retry configuration and the backoff before a retry

Delays are exact rationals, except that raising a float to a power raises
`OverflowError` once the result reaches 2^1024, as the interpreter does.
-/
namespace OpenJobSpec.Http

structure RetryConfig where
  maxRetries : ℤ := 3
  minBackoff : ℚ := 1 / 2
  maxBackoff : ℚ := 30
  enabled : Bool := true
  retryServerErrors : Bool := true
deriving DecidableEq

/-- `2.0**attempt`. -/
def powTwo (attempt : ℕ) : Except Exn ℚ :=
  if attempt < 1024 then .ok (2 ^ attempt)
  else .error (.builtin .overflowError "(34, 'Numerical result out of range')")

/-- Backoff delay for a retry; `random` is the draw of `random.random()`. -/
def calculateBackoff (random : ℚ) (attempt : ℕ) (retryAfter : Option ℚ) (config : RetryConfig) :
    Except Exn ℚ :=
  match retryAfter.filter (fun seconds => 0 < seconds) with
  | some seconds => .ok (min seconds config.maxBackoff)
  | none => do
    let power ← powTwo attempt
    let backoff := min (config.minBackoff * power) config.maxBackoff
    return backoff * (1 / 2 + random * (1 / 2))

/-- The backoff fails exactly past attempt 1023 of a response without a positive Retry-After. -/
def BackoffComputes (attempt : ℕ) (retryAfter : Option ℚ) : Prop :=
  attempt < 1024 ∨ ∃ seconds, retryAfter = some seconds ∧ 0 < seconds

instance (attempt : ℕ) (retryAfter : Option ℚ) : Decidable (BackoffComputes attempt retryAfter) :=
  match retryAfter with
  | none => decidable_of_iff (attempt < 1024) (by simp [BackoffComputes])
  | some seconds => decidable_of_iff (attempt < 1024 ∨ 0 < seconds) (by simp [BackoffComputes])

theorem calculateBackoff_ok (random : ℚ) (config : RetryConfig) {attempt : ℕ}
    {retryAfter : Option ℚ} (h : BackoffComputes attempt retryAfter) :
    ∃ delay, calculateBackoff random attempt retryAfter config = .ok delay := by
  unfold calculateBackoff
  cases hf : retryAfter.filter (fun seconds => 0 < seconds) with
  | some seconds => exact ⟨_, rfl⟩
  | none =>
    rcases h with hlt | ⟨seconds, rfl, hpos⟩
    · exact ⟨_, by simp only [powTwo, if_pos hlt]; rfl⟩
    · rw [Option.filter_some_pos (by simpa using hpos)] at hf
      cases hf

theorem calculateBackoff_error (random : ℚ) (config : RetryConfig) {attempt : ℕ}
    {retryAfter : Option ℚ} (h : ¬ BackoffComputes attempt retryAfter) :
    ∃ message, calculateBackoff random attempt retryAfter config =
      .error (.builtin .overflowError message) := by
  simp only [BackoffComputes, not_or, not_exists, not_and] at h
  obtain ⟨hlt, hpos⟩ := h
  have hf : retryAfter.filter (fun seconds => 0 < seconds) = none := by
    cases retryAfter with
    | none => rfl
    | some seconds => simpa using hpos seconds rfl
  refine ⟨"(34, 'Numerical result out of range')", ?_⟩
  simp only [calculateBackoff, hf, powTwo, if_neg hlt]
  rfl

end OpenJobSpec.Http
