import OpenJobSpec.Foundation.Runs
import OpenJobSpec.Worker.ExecutionLease
import Mathlib.Tactic.NormNum

/-! # A retry sleep and the lease it must not outlive

The call looks at the clock when it begins and whenever its wait ends, which may
be long after its timer was due. It looks at its target before it looks at the
lease, so a target that has come ends it whatever became of the lease.
-/
namespace OpenJobSpec.Worker
open Runs

inductive SleepStatus
  | waiting (sleep : RetrySleep)
  /-- returned, and the retry begins at this instant with so much of the lease left -/
  | returned (clock remaining : ℚ)
  /-- raised `LeaseBudgetExceededError` -/
  | exceeded (clock remaining : ℚ)
  | cancelled

structure SleepRun where
  lease : ExecutionLease
  clock : ℚ
  startedAt : ℚ
  delay : ℚ
  status : SleepStatus

inductive SleepEvent
  | pass (duration : ℚ)
  | extend (visibilityTimeoutMs : Option ℤ)
  | wake (byExtension : Bool)
  | cancel

namespace SleepRun

/-- What a look at the clock led to. -/
def moved (s : SleepRun) : SleepMove → SleepRun
  | .returns => { s with status := .returned s.clock (s.lease.remaining s.clock) }
  | .exceeded => { s with status := .exceeded s.clock (s.lease.remaining s.clock) }
  | .sleeps sleep =>
    { s with status := .waiting sleep, lease := { s.lease with extended := false } }

def start (lease : ExecutionLease) (clock delay : ℚ) : Except Exn SleepRun := do
  let move ← lease.sleepForRetry clock delay
  return moved ⟨lease, clock, clock, delay, .cancelled⟩ move

def next (s : SleepRun) (event : SleepEvent) : Option SleepRun :=
  match event, s.status with
  | .pass duration, _ => if 0 ≤ duration then some { s with clock := s.clock + duration } else none
  | .extend ms, _ => some { s with lease := s.lease.extend s.clock ms }
  | .wake byExtension, .waiting sleep =>
    if s.lease.canWake s.clock sleep byExtension then
      some (s.moved (s.lease.wake s.clock sleep byExtension))
    else none
  | .cancel, .waiting _ => some { s with status := .cancelled }
  | _, _ => none

end SleepRun

/-- A call that returned did so after its delay and with some of the lease left, and one that
raised did so with none left. -/
def SafelyEnded (s : SleepRun) : Prop :=
  match s.status with
  | .returned clock remaining => s.startedAt + s.delay ≤ clock ∧ 0 < remaining
  | .exceeded _ remaining => remaining = 0
  | .waiting _ | .cancelled => True

/-- After any part of a schedule the call has not ended wrongly, and no deadline came down. -/
def LeaseAware (s : SleepRun) (events : List SleepEvent) : Prop :=
  ∀ reached, reached <+: events →
    SafelyEnded (run SleepRun.next s reached) ∧
      ∀ before, before <+: reached →
        (run SleepRun.next s before).lease.deadline ≤ (run SleepRun.next s reached).lease.deadline

/-- A wait that ends once its target has come ends before the lease does. -/
def WakesInTime (s : SleepRun) : SleepEvent → Prop
  | .wake byExtension => ∀ sleep, s.status = .waiting sleep →
    s.lease.canWake s.clock sleep byExtension = true → sleep.target ≤ s.clock →
      s.clock < s.lease.deadline
  | _ => True

namespace ExecutionLease
variable {lease : ExecutionLease} {clock target : ℚ}

theorem remaining_nonneg (lease : ExecutionLease) (clock : ℚ) : 0 ≤ lease.remaining clock :=
  le_max_left 0 _

theorem sleepLoop_exceeded (h : lease.sleepLoop clock target = .exceeded) :
    lease.remaining clock = 0 := by
  unfold sleepLoop at h
  dsimp only at h
  split at h
  · cases h
  · split at h
    next hexpired => exact le_antisymm hexpired (lease.remaining_nonneg clock)
    next => cases h

theorem sleepLoop_sleeps {sleep : RetrySleep} (h : lease.sleepLoop clock target = .sleeps sleep) :
    sleep.target = target := by
  unfold sleepLoop at h
  dsimp only at h
  split at h
  · cases h
  · split at h <;> cases h
    rfl

/-- A target that has come ends a wait, whatever woke it. -/
theorem wake_of_target_le {sleep : RetrySleep} (h : sleep.target ≤ clock) (byExtension : Bool) :
    lease.wake clock sleep byExtension = .returns := by
  unfold wake
  split
  · exact sleepLoop_returns_iff.mpr h
  · rw [if_neg fun hbefore => absurd hbefore.1 (not_lt.mpr h)]
    exact sleepLoop_returns_iff.mpr h

theorem wake_exceeded {sleep : RetrySleep} {byExtension : Bool}
    (h : lease.wake clock sleep byExtension = .exceeded) : lease.remaining clock = 0 := by
  unfold wake at h
  split at h
  · exact sleepLoop_exceeded h
  · split at h
    next hexpired => exact le_antisymm hexpired.2 (lease.remaining_nonneg clock)
    next => exact sleepLoop_exceeded h

theorem wake_sleeps {sleep woken : RetrySleep} {byExtension : Bool}
    (h : lease.wake clock sleep byExtension = .sleeps woken) : woken.target = sleep.target := by
  unfold wake at h
  split at h
  · exact sleepLoop_sleeps h
  · split at h
    · cases h
    · exact sleepLoop_sleeps h

end ExecutionLease

namespace SleepRun
variable {lease : ExecutionLease} {clock delay : ℚ} {s t : SleepRun} {event : SleepEvent}

/-! ## What one event keeps -/

theorem deadline_moved (s : SleepRun) (move : SleepMove) :
    (s.moved move).lease.deadline = s.lease.deadline := by
  cases move <;> rfl

theorem deadline_next (h : s.next event = some t) : s.lease.deadline ≤ t.lease.deadline := by
  unfold next at h
  split at h
  next duration _ =>
    split at h <;> cases h
    exact le_rfl
  next ms _ =>
    cases h
    exact le_max_left _ _
  next byExtension sleep _ =>
    split at h <;> cases h
    exact (deadline_moved _ _).ge
  next =>
    cases h
    exact le_rfl
  next => cases h

theorem deadline_run (s : SleepRun) (events : List SleepEvent) :
    s.lease.deadline ≤ (run next s events).lease.deadline :=
  run_invariant (fun t : SleepRun => s.lease.deadline ≤ t.lease.deadline) le_rfl
    fun _ _ _ _ hs hn => hs.trans (deadline_next hn)

/-- A call that waits still has its first target. -/
def OnTarget (s : SleepRun) : Prop :=
  ∀ sleep, s.status = .waiting sleep → sleep.target = s.startedAt + s.delay

theorem onTarget_moved {move : SleepMove}
    (h : ∀ sleep, move = .sleeps sleep → sleep.target = s.startedAt + s.delay) :
    OnTarget (s.moved move) := by
  intro waiting hwaiting
  cases move with
  | returns => cases hwaiting
  | exceeded => cases hwaiting
  | sleeps sleep =>
    cases hwaiting
    exact h _ rfl

theorem OnTarget.next (hs : OnTarget s) (hn : s.next event = some t) : OnTarget t := by
  unfold SleepRun.next at hn
  split at hn
  next duration _ =>
    split at hn <;> cases hn
    exact hs
  next ms _ =>
    cases hn
    exact hs
  next byExtension sleep hwaiting =>
    split at hn <;> cases hn
    exact onTarget_moved fun woken h =>
      (ExecutionLease.wake_sleeps h).trans (hs sleep hwaiting)
  next =>
    cases hn
    intro sleep hwaiting
    cases hwaiting
  next => cases hn

/-- Of the ways to move on, only a return can be wrong. -/
theorem safelyEnded_moved_iff {move : SleepMove}
    (hreturns : move = .returns → s.startedAt + s.delay ≤ s.clock)
    (hexceeded : move = .exceeded → s.lease.remaining s.clock = 0) :
    SafelyEnded (s.moved move) ↔ (move = .returns → s.clock < s.lease.deadline) := by
  cases move with
  | returns =>
    constructor
    · exact fun h _ => ExecutionLease.remaining_pos_iff.mp h.2
    · exact fun h => ⟨hreturns rfl, ExecutionLease.remaining_pos_iff.mpr (h rfl)⟩
  | exceeded => exact ⟨(fun _ h => by cases h), fun _ => hexceeded rfl⟩
  | sleeps sleep => exact ⟨(fun _ h => by cases h), fun _ => trivial⟩

theorem safelyEnded_next_iff (hs : OnTarget s) (hn : s.next event = some t) :
    SafelyEnded t ↔ SafelyEnded s ∧ WakesInTime s event := by
  unfold SleepRun.next at hn
  split at hn
  next duration _ =>
    split at hn <;> cases hn
    exact (and_iff_left trivial).symm
  next ms _ =>
    cases hn
    exact (and_iff_left trivial).symm
  next byExtension sleep hwaiting =>
    have hsafe : SafelyEnded s := by
      unfold SafelyEnded
      rw [hwaiting]
      trivial
    split at hn <;> cases hn
    next hwakes =>
      have htarget := hs sleep hwaiting
      rw [safelyEnded_moved_iff (fun h => htarget ▸ ExecutionLease.wake_returns h)
        fun h => ExecutionLease.wake_exceeded h, and_iff_right hsafe]
      constructor
      · intro h waiting hsame _ hcome
        rw [hwaiting] at hsame
        cases hsame
        exact h (ExecutionLease.wake_of_target_le hcome byExtension)
      · exact fun h hreturns => h sleep hwaiting hwakes (ExecutionLease.wake_returns hreturns)
  next sleep hwaiting =>
    cases hn
    have hsafe : SafelyEnded s := by
      unfold SafelyEnded
      rw [hwaiting]
      trivial
    exact ⟨fun _ => ⟨hsafe, trivial⟩, fun _ => trivial⟩
  next => cases hn

/-- A wait that cannot end now does not end too late. -/
theorem wakesInTime_of_next_none (hn : s.next event = none) : WakesInTime s event := by
  cases event with
  | pass duration => trivial
  | extend ms => trivial
  | cancel => trivial
  | wake byExtension =>
    intro sleep hwaiting hwakes _
    simp [SleepRun.next, hwaiting, hwakes] at hn

/-! ## The first look at the clock -/

theorem start_eq (h : start lease clock delay = .ok s) :
    0 ≤ delay ∧
      s = moved ⟨lease, clock, clock, delay, .cancelled⟩
        (lease.sleepLoop clock (clock + delay)) := by
  unfold start ExecutionLease.sleepForRetry at h
  split at h
  · cases h
  next hnonneg =>
    cases h
    exact ⟨not_lt.mp hnonneg, rfl⟩

theorem onTarget_start (h : start lease clock delay = .ok s) : OnTarget s := by
  obtain ⟨_, rfl⟩ := start_eq h
  exact onTarget_moved fun sleep h => ExecutionLease.sleepLoop_sleeps h

theorem safelyEnded_start_iff (h : start lease clock delay = .ok s) :
    SafelyEnded s ↔ (delay = 0 → clock < lease.deadline) := by
  obtain ⟨hnonneg, rfl⟩ := start_eq h
  have hreturns : lease.sleepLoop clock (clock + delay) = .returns ↔ delay = 0 := by
    rw [ExecutionLease.sleepLoop_returns_iff, add_le_iff_nonpos_right]
    exact ⟨fun h => le_antisymm h hnonneg, fun h => h.le⟩
  rw [safelyEnded_moved_iff (fun h => ExecutionLease.sleepLoop_returns_iff.mp h)
    fun h => ExecutionLease.sleepLoop_exceeded h]
  exact imp_congr_left hreturns

end SleepRun

open SleepRun

/-- A retry sleep respects its lease under a schedule exactly when, at every look at the clock
that finds the delay over, the lease still runs. -/
theorem retry_sleep_lease_aware_iff {lease : ExecutionLease} {clock delay : ℚ} {s : SleepRun}
    (hstart : SleepRun.start lease clock delay = .ok s) (events : List SleepEvent) :
    LeaseAware s events ↔
      (delay = 0 → clock < lease.deadline) ∧ Along WakesInTime SleepRun.next s events := by
  have hsafe : ∀ reached, SafelyEnded (run SleepRun.next s reached) ↔
      (delay = 0 → clock < lease.deadline) ∧ Along WakesInTime SleepRun.next s reached := by
    intro reached
    rw [run_iff_along OnTarget (fun _ _ _ hs hn => hs.next hn)
      (fun _ _ _ hs hn => safelyEnded_next_iff hs hn)
      (fun _ _ _ hn => wakesInTime_of_next_none hn) (onTarget_start hstart) reached,
      safelyEnded_start_iff hstart]
  constructor
  · exact fun h => (hsafe events).mp (h events List.prefix_rfl).1
  · intro h reached hreached
    refine ⟨(hsafe reached).mpr ⟨h.1, Along.of_prefix h.2 hreached⟩, ?_⟩
    rintro before ⟨rest, rfl⟩
    rw [run_append]
    exact deadline_run _ rest

/-! ## A delay as long as the lease -/

/-- A delay within a lease of one second that begins with it. -/
def sleepOfOneLease (delay : ℚ) : SleepRun :=
  ⟨⟨1, 1, false⟩, 0, 0, delay, .waiting ⟨delay, delay⟩⟩

theorem start_sleepOfOneLease {delay : ℚ} (hpos : 0 < delay) (hle : delay ≤ 1) :
    SleepRun.start ⟨1, 1, false⟩ 0 delay = .ok (sleepOfOneLease delay) := by
  have hloop : ExecutionLease.sleepLoop ⟨1, 1, false⟩ 0 (0 + delay) =
      .sleeps ⟨delay, delay⟩ := by
    norm_num [ExecutionLease.sleepLoop, ExecutionLease.remaining, not_le.mpr hpos, hle]
  rw [SleepRun.start, ExecutionLease.sleepForRetry, if_neg (not_lt.mpr hpos.le), hloop]
  rfl

theorem short_sleep_lease_aware :
    LeaseAware (sleepOfOneLease (1 / 2)) [.pass (1 / 2), .wake false] := by
  have hstart := @start_sleepOfOneLease (1 / 2) (by norm_num) (by norm_num)
  refine (retry_sleep_lease_aware_iff hstart _).mpr ⟨by norm_num, trivial, ?_, trivial⟩
  intro sleep _ _ _
  have hpass : apply SleepRun.next (sleepOfOneLease (1 / 2)) (.pass (1 / 2)) =
      { sleepOfOneLease (1 / 2) with clock := 0 + 1 / 2 } := by
    norm_num [apply, SleepRun.next, sleepOfOneLease]
  rw [hpass]
  norm_num [sleepOfOneLease]

theorem long_sleep_outlives_lease : ¬ LeaseAware (sleepOfOneLease 1) [.pass 1, .wake false] := by
  intro h
  have hended := (h _ List.prefix_rfl).1
  have hpass : apply SleepRun.next (sleepOfOneLease 1) (.pass 1) =
      { sleepOfOneLease 1 with clock := 0 + 1 } := by
    norm_num [apply, SleepRun.next, sleepOfOneLease]
  rw [run_cons, hpass] at hended
  have hwakes : ExecutionLease.canWake ⟨1, 1, false⟩ (0 + 1) ⟨1, 1⟩ false = true := by
    norm_num [ExecutionLease.canWake]
  have hwake : ExecutionLease.wake ⟨1, 1, false⟩ (0 + 1) ⟨1, 1⟩ false = .returns :=
    ExecutionLease.wake_of_target_le (by norm_num) false
  simp only [run_cons, run_nil, apply, SleepRun.next, sleepOfOneLease, if_pos hwakes,
    hwake] at hended
  norm_num [SafelyEnded, SleepRun.moved, ExecutionLease.remaining] at hended

end OpenJobSpec.Worker
