import OpenJobSpec.Wire.Job
import OpenJobSpec.Worker.CompletionReporter

/-! # One execution of a job

The body either has no handler to run, or awaits the handler inside the
execution middleware and then reports what came of it. A cancellation reaches
the body as the ending of whatever it awaits: the handler, a call of the
delivery, or the sleep between two calls.
-/
namespace OpenJobSpec.Worker
open RetryLoop

variable {V : Type}

def unknownJobType (job : Job) : Fields :=
  [("code", .str "unknown_job_type"),
    ("message", .str ("No handler registered for job type: " ++ job.type)),
    ("retryable", .bool false)]

def jobCancelled : Fields :=
  [("code", .str "cancelled"), ("message", .str "Job cancelled during shutdown"),
    ("retryable", .bool true)]

def handlerError (e : Exn) : Fields :=
  [("code", .str "handler_error"), ("message", .str e.message), ("retryable", .bool true)]

/-- An execution so far: the outcomes that claimed its reporter, its transport calls, the
replies to those that ended, and how the body ended. -/
structure Execution (V : Type) where
  claimed : List (TerminalOutcome V)
  calls : List (CompletionCall V)
  replies : List DeliveryReply
  result : Option (Except Raised Unit)

def Execution.handling : Execution V := ⟨[], [], [], none⟩

/-- The body reports an outcome, and `after` follows the end of the report. -/
def Execution.reporting (reporter : CompletionReporter V) (outcome : TerminalOutcome V)
    (script : List DeliveryReply) (after : Except Raised Unit → Except Raised Unit) :
    Execution V :=
  let report := reporter.report outcome script
  ⟨if report.won then [outcome] else [],
    List.replicate report.delivery.attempts (outcome.call reporter.jobId),
    report.delivery.outcomes, report.delivery.result.map after⟩

/-- `except Exception: logger.exception(...)`. -/
def logged : Except Raised Unit → Except Raised Unit
  | .error (.exception _) => .ok ()
  | ended => ended

/-- `handlers` tells the types that have a handler; `handled` is how the middleware chain
around the handler ends, or `none` while it runs. -/
def processJob (handlers : String → Bool) (job : Job) (handled : Option (Except Raised V))
    (script : List DeliveryReply) : Execution V :=
  let reporter : CompletionReporter V := { jobId := job.id }
  if handlers job.type then
    match handled with
    | none => .handling
    | some (.error .cancelled) =>
      .reporting reporter (.failed jobCancelled) script fun ended => ended >>= fun _ =>
        .error .cancelled
    | some (.error (.exception e)) => .reporting reporter (.failed (handlerError e)) script logged
    | some (.ok result) => .reporting reporter (.completed result) script logged
  else .reporting reporter (.failed (unknownJobType job)) script id

/-! ## One terminal outcome -/

def dueOutcome (handlers : String → Bool) (job : Job) (handled : Option (Except Raised V)) :
    Option (TerminalOutcome V) :=
  if handlers job.type then
    match handled with
    | none => none
    | some (.error .cancelled) => some (.failed jobCancelled)
    | some (.error (.exception e)) => some (.failed (handlerError e))
    | some (.ok result) => some (.completed result)
  else some (.failed (unknownJobType job))

structure SingleOutcome (jobId : String) (o : TerminalOutcome V) (script : List DeliveryReply)
    (r : Execution V) : Prop where
  claimed : r.claimed = [o]
  same_call : ∀ c ∈ r.calls, c = o.call jobId
  called : 1 ≤ r.calls.length
  at_most_three : r.calls.length ≤ 3
  retried : ∀ k, k + 1 < r.calls.length → ∃ reply e, r.replies[k]? = some reply ∧
    reply.call = .error (.exception e) ∧
    ((∃ m, e = .connection m) ∨ (∃ m, e = .timeout m ∨ e = .executionTimeout m) ∨
      ∃ a, e = .api a ∧ a.error.retryable = true)
  last_if_delivered : ∀ (k : ℕ) reply, r.replies[k]? = some reply → reply.call = .ok () →
    r.calls.length = k + 1
  ends : 3 ≤ script.length → r.result ≠ none

theorem reporting_singleOutcome (jobId : String) (o : TerminalOutcome V)
    (script : List DeliveryReply) (after : Except Raised Unit → Except Raised Unit) :
    SingleOutcome jobId o script (.reporting { jobId := jobId } o script after) := by
  have hattempts : 1 ≤ (deliver 3 script).attempts ∧ ((deliver 3 script).attempts : ℤ) ≤ 3 :=
    deliver_attempts (by omega) script
  constructor
  · rfl
  · intro c hc
    exact (List.mem_replicate.mp hc).2
  · simpa [Execution.reporting, CompletionReporter.report] using hattempts.1
  · have h := hattempts.2
    simp only [Execution.reporting, CompletionReporter.report, List.length_replicate]
    exact_mod_cast h
  · intro k hk
    simp only [Execution.reporting, CompletionReporter.report, List.length_replicate] at hk
    obtain ⟨reply, e, hr, he, hretry⟩ := deliver_retried hk
    exact ⟨reply, e, hr, he, (retryableDelivery_iff e).mp hretry⟩
  · intro k reply hr hok
    have h := deliver_delivered hr hok
    simpa [Execution.reporting, CompletionReporter.report] using h
  · intro hlen
    have h : (deliver 3 script).result ≠ none := deliver_result_ne_none (by omega)
    simpa [Execution.reporting, CompletionReporter.report] using h

end OpenJobSpec.Worker
