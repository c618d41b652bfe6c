import OpenJobSpec.Errors.Hierarchy
import Mathlib.Algebra.Order.Ring.Rat

/-! # The local lease of an execution

The lease is a deadline on the worker's own clock. A retry sleep waits for its
target or for an extension, whichever the event loop reports first, and looks at
the clock again whenever it wakes. Times are seconds, and exact.
-/
namespace OpenJobSpec.Worker

structure ExecutionLease where
  visibilitySeconds : ℚ
  deadline : ℚ
  /-- the event that an extension sets -/
  extended : Bool

/-- A retry sleep that waits: its target, and when its timer fires. -/
structure RetrySleep where
  target : ℚ
  wakeAt : ℚ

/-- What a retry sleep does once it has looked at the clock. -/
inductive SleepMove
  | returns
  /-- raises `LeaseBudgetExceededError` -/
  | exceeded
  | sleeps (sleep : RetrySleep)

namespace ExecutionLease

def create (visibilityTimeoutMs : ℤ) (clock : ℚ) : Except Exn ExecutionLease :=
  if visibilityTimeoutMs < 1 then
    .error (.builtin .valueError "visibility_timeout_ms must be at least 1")
  else .ok ⟨visibilityTimeoutMs / 1000, clock + visibilityTimeoutMs / 1000, false⟩

variable (lease : ExecutionLease)

def remaining (clock : ℚ) : ℚ := max 0 (lease.deadline - clock)

def extend (clock : ℚ) (visibilityTimeoutMs : Option ℤ) : ExecutionLease :=
  let duration := match visibilityTimeoutMs with
    | none => lease.visibilitySeconds
    | some ms => ms / 1000
  { lease with deadline := max lease.deadline (clock + duration), extended := true }

/-- One turn of the loop of `sleep_for_retry`. -/
def sleepLoop (clock target : ℚ) : SleepMove :=
  let remainingDelay := target - clock
  if remainingDelay ≤ 0 then .returns
  else if lease.remaining clock ≤ 0 then .exceeded
  else .sleeps ⟨target, clock + min remainingDelay (lease.remaining clock)⟩

/-- `sleep_for_retry` up to its first wait. -/
def sleepForRetry (clock delay : ℚ) : Except Exn SleepMove :=
  if delay < 0 then .error (.builtin .valueError "retry delay cannot be negative")
  else .ok (lease.sleepLoop clock (clock + delay))

/-- Whether a wait can end by an extension, or by the timer, at this instant. -/
def canWake (clock : ℚ) (sleep : RetrySleep) (byExtension : Bool) : Bool :=
  if byExtension then lease.extended else sleep.wakeAt ≤ clock

/-- A wait has ended, by an extension or by the timer alone. -/
def wake (clock : ℚ) (sleep : RetrySleep) (byExtension : Bool) : SleepMove :=
  if byExtension then lease.sleepLoop clock sleep.target
  else if clock < sleep.target ∧ lease.remaining clock ≤ 0 then .exceeded
  else lease.sleepLoop clock sleep.target

variable {lease} {clock target : ℚ}

theorem remaining_pos_iff : 0 < lease.remaining clock ↔ clock < lease.deadline := by
  rw [remaining, lt_max_iff, sub_pos]
  simp

/-- Nothing but its target ends a sleep normally. -/
theorem sleepLoop_returns_iff : lease.sleepLoop clock target = .returns ↔ target ≤ clock := by
  unfold sleepLoop
  dsimp only
  by_cases h : target - clock ≤ 0
  · simp [h, sub_nonpos.mp h]
  · rw [if_neg h]
    have hlt : ¬ target ≤ clock := fun hle => h (sub_nonpos.mpr hle)
    by_cases hl : lease.remaining clock ≤ 0
    · simp [hl, hlt]
    · simp [hl, hlt]

theorem wake_returns {sleep : RetrySleep} {byExtension : Bool}
    (h : lease.wake clock sleep byExtension = .returns) : sleep.target ≤ clock := by
  unfold wake at h
  split at h
  · exact sleepLoop_returns_iff.mp h
  · split at h
    · cases h
    · exact sleepLoop_returns_iff.mp h

end ExecutionLease

end OpenJobSpec.Worker
