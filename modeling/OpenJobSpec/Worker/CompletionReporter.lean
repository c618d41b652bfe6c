import OpenJobSpec.Errors.Hierarchy
import OpenJobSpec.Foundation.RetryLoop
import Mathlib.Data.Rat.Defs

/-! # Delivery of one terminal outcome

A reporter belongs to one execution. The first outcome reported claims it, and
only that outcome is delivered: the delivery loop calls ack or nack until a call
succeeds, raises what is not retried, or the attempts run out.
-/
namespace OpenJobSpec.Worker
open RetryLoop

inductive TerminalOutcome (V : Type)
  | completed (result : V)
  | failed (error : Fields)
deriving DecidableEq

inductive CompletionCall (V : Type)
  | ack (jobId : String) (result : V)
  | nack (jobId : String) (error : Fields)
deriving DecidableEq

/-- How the call of one attempt ends, and the sleep after it when one is due. -/
structure DeliveryReply where
  call : Except Raised Unit
  sleep : Except Raised Unit

structure CompletionReporter (V : Type) where
  jobId : String
  maxAttempts : ℤ := 3
  outcome : Option (TerminalOutcome V) := none

variable {V : Type}

def TerminalOutcome.call (jobId : String) : TerminalOutcome V → CompletionCall V
  | completed result => .ack jobId result
  | failed error => .nack jobId error

def retryableDelivery : Exn → Bool
  | .connection _ | .timeout _ | .executionTimeout _ => true
  | .api e => e.error.retryable
  | _ => false

def deliverMove (maxAttempts : ℤ) (attempt : ℕ) (reply : DeliveryReply) :
    Move ℚ (Except Raised Unit) :=
  match reply.call with
  | .ok () => .halt (.ok ())
  | .error .cancelled => .halt (.error .cancelled)
  | .error (.exception e) =>
    if maxAttempts - 1 ≤ attempt ∨ ¬ retryableDelivery e then .halt (.error (.exception e))
    else
      match reply.sleep with
      | .ok () => .again ((attempt + 1) * (1 / 2))
      | .error raised => .halt (.error raised)

abbrev DeliveryRun := Run DeliveryReply ℚ (Except Raised Unit)

def deliver (maxAttempts : ℤ) (script : List DeliveryReply) : DeliveryRun :=
  if maxAttempts ≤ 0 then ⟨[], [], false, some (.ok ())⟩ else run (deliverMove maxAttempts) 0 script

structure Report (V : Type) where
  reporter : CompletionReporter V
  won : Bool
  delivery : DeliveryRun

/-- The claim lock is taken without suspending, so a report that starts is decided
before its first call. -/
def CompletionReporter.report (reporter : CompletionReporter V) (outcome : TerminalOutcome V)
    (script : List DeliveryReply) : Report V :=
  if reporter.outcome.isSome then ⟨reporter, false, ⟨[], [], false, some (.ok ())⟩⟩
  else ⟨{ reporter with outcome := some outcome }, true, deliver reporter.maxAttempts script⟩

/-! ## What the delivery loop can do -/

theorem retryableDelivery_iff (e : Exn) :
    retryableDelivery e = true ↔
      (∃ m, e = .connection m) ∨ (∃ m, e = .timeout m ∨ e = .executionTimeout m) ∨
      ∃ a, e = .api a ∧ a.error.retryable = true := by
  cases e <;> simp [retryableDelivery]

theorem deliverMove_again {maxAttempts : ℤ} {attempt : ℕ} {reply : DeliveryReply} {delay : ℚ}
    (h : deliverMove maxAttempts attempt reply = .again delay) :
    (attempt : ℤ) < maxAttempts - 1 ∧
      ∃ e, reply.call = .error (.exception e) ∧ retryableDelivery e = true := by
  unfold deliverMove at h
  split at h
  · cases h
  · cases h
  · rename_i e he
    split at h
    · cases h
    · rename_i hn
      obtain ⟨hlt, hretry⟩ := not_or.mp hn
      exact ⟨Int.not_le.mp hlt, e, he, by simpa using hretry⟩

theorem deliverMove_bounded (maxAttempts : ℤ) :
    Bounded (deliverMove maxAttempts) (maxAttempts - 1).toNat := by
  intro k reply delay h
  have hlt := (deliverMove_again h).1
  omega

theorem deliver_attempts {maxAttempts : ℤ} (h : 0 < maxAttempts) (script : List DeliveryReply) :
    1 ≤ (deliver maxAttempts script).attempts ∧
      ((deliver maxAttempts script).attempts : ℤ) ≤ maxAttempts := by
  have hd : deliver maxAttempts script = run (deliverMove maxAttempts) 0 script :=
    if_neg (Int.not_le.mpr h)
  have hpos := run_attempts_pos (deliverMove maxAttempts) 0 script
  have hle := run_attempts_le (deliverMove_bounded maxAttempts) 0 script
  rw [hd]
  omega

theorem deliver_retried {maxAttempts : ℤ} {script : List DeliveryReply} {k : ℕ}
    (h : k + 1 < (deliver maxAttempts script).attempts) :
    ∃ reply e, (deliver maxAttempts script).outcomes[k]? = some reply ∧
      reply.call = .error (.exception e) ∧ retryableDelivery e = true := by
  unfold deliver at h ⊢
  split at h
  · simp [Run.attempts] at h
  · rename_i hn
    rw [if_neg hn]
    obtain ⟨reply, delay, hk, hm⟩ := run_again_of_lt h
    obtain ⟨_, e, he, hretry⟩ := deliverMove_again hm
    exact ⟨reply, e, hk, he, hretry⟩

theorem deliver_delivered {maxAttempts : ℤ} {script : List DeliveryReply} {k : ℕ}
    {reply : DeliveryReply} (hk : (deliver maxAttempts script).outcomes[k]? = some reply)
    (hok : reply.call = .ok ()) : (deliver maxAttempts script).attempts = k + 1 := by
  have hlt : k < (deliver maxAttempts script).attempts := by
    have h := (List.getElem?_eq_some_iff.mp hk).1
    unfold Run.attempts
    omega
  by_contra hne
  have hmore : k + 1 < (deliver maxAttempts script).attempts := by omega
  obtain ⟨answer, e, ha, he, _⟩ := deliver_retried hmore
  rw [hk] at ha
  cases ha
  rw [hok] at he
  cases he

theorem deliver_result_ne_none {maxAttempts : ℤ} {script : List DeliveryReply}
    (h : maxAttempts ≤ script.length) : (deliver maxAttempts script).result ≠ none := by
  unfold deliver
  split
  · simp
  · exact run_result_ne_none (deliverMove_bounded maxAttempts) (by omega)

theorem deliverMove_halt_ok {maxAttempts : ℤ} {attempt : ℕ} {reply : DeliveryReply}
    (h : deliverMove maxAttempts attempt reply = .halt (.ok ())) : reply.call = .ok () := by
  unfold deliverMove at h
  split at h
  · assumption
  · cases h
  · split at h
    · cases h
    · split at h <;> cases h

/-- The loop returns exactly when one of its calls is answered. -/
theorem deliver_ok_iff {maxAttempts : ℤ} {script : List DeliveryReply} (h : 0 < maxAttempts)
    (hlen : maxAttempts ≤ script.length) :
    (deliver maxAttempts script).result = some (.ok ()) ↔
      ∃ (k : ℕ) (reply : DeliveryReply), (deliver maxAttempts script).outcomes[k]? = some reply ∧
        reply.call = .ok () := by
  have hd : deliver maxAttempts script = run (deliverMove maxAttempts) 0 script :=
    if_neg (Int.not_le.mpr h)
  constructor
  · intro hresult
    rw [hd] at hresult ⊢
    obtain ⟨before, reply, houtcomes, hhalt⟩ := run_result_eq_some hresult
    exact ⟨before.length, reply, by simp [houtcomes], deliverMove_halt_ok hhalt⟩
  · rintro ⟨k, reply, hk, hok⟩
    have hattempts := deliver_delivered hk hok
    obtain ⟨result, hresult⟩ := Option.ne_none_iff_exists'.mp (deliver_result_ne_none hlen)
    rw [hd] at hk hattempts hresult ⊢
    have hended : (run (deliverMove maxAttempts) 0 script).inFlight = false := by
      rw [Bool.eq_false_iff, Ne, run_inFlight_iff, hresult]
      exact Option.some_ne_none result
    obtain ⟨before, last, houtcomes, hhalt⟩ := run_result_eq_some hresult
    have hlast : k = before.length := by
      simp only [Run.attempts, hended, houtcomes, List.length_append, List.length_singleton,
        Bool.toNat_false] at hattempts
      omega
    have hsame : last = reply := by
      simpa [houtcomes, hlast] using hk
    rw [hsame] at hhalt
    simp only [deliverMove, hok] at hhalt
    cases hhalt
    exact hresult

/-- The loop ends as cancelled only where a call or a sleep of it was. -/
theorem deliver_cancelled {maxAttempts : ℤ} {script : List DeliveryReply} (h : 0 < maxAttempts)
    (hresult : (deliver maxAttempts script).result = some (.error .cancelled)) :
    ∃ reply ∈ script, reply.call = .error .cancelled ∨ reply.sleep = .error .cancelled := by
  rw [deliver, if_neg (Int.not_le.mpr h)] at hresult
  obtain ⟨before, reply, houtcomes, hhalt⟩ := run_result_eq_some hresult
  have hmem : reply ∈ script := by
    refine ( run_outcomes_prefix (deliverMove maxAttempts) 0 script).subset ?_
    rw [houtcomes]
    exact List.mem_append_right before (List.mem_singleton.mpr rfl)
  refine ⟨reply, hmem, ?_⟩
  unfold deliverMove at hhalt
  split at hhalt
  · cases hhalt
  next hcall => exact .inl hcall
  · split at hhalt
    · cases hhalt
    · split at hhalt
      · cases hhalt
      next hsleep =>
        cases hhalt
        exact .inr hsleep

end OpenJobSpec.Worker
