import OpenJobSpec.Serverless.JobEvents
import OpenJobSpec.Worker.CompletionReporter

/-! # One invocation behind a serverless entrypoint

The bridge runs the handler of a job, checks that the result can be printed, and
reports the completion when the entrypoint asks for it and a transport is
configured. A handler is whatever it does for the job at hand: it returns a value
(`none` is the interpreter's null), raises, or is cancelled.
-/
namespace OpenJobSpec.Serverless
open Worker

variable {V : Type}

/-- Three replies are enough for a delivery, which makes at most three calls. -/
structure DeliveryScript where
  replies : List DeliveryReply
  enough : 3 ≤ replies.length

/-- What one invocation meets: how its handler ends, and what the transport answers. -/
structure InvocationWorld (V : Type) where
  handled : Except Raised (Option V)
  script : DeliveryScript

/-- The registered job types, the transport that is there or not, and how results print. -/
structure BridgeConfig (V : Type) where
  handlers : String → Bool
  transport : Bool
  /-- `json.dumps(result, allow_nan=False)` -/
  dumps : Option V → Except Exn String

structure HandlerCall where
  job : Job
  attempt : ℤ

inductive InvocationStatus
  | completed
  | failed
deriving DecidableEq

structure InvocationOutcome (V : Type) where
  status : InvocationStatus
  jobId : String := ""
  result : Option V := none
  error : Option Fields := none
  requiresRedelivery : Bool := false
  cause : Option Exn := none

namespace InvocationOutcome

/-- What an entrypoint prints of an outcome; `none` leaves a member out. -/
structure Dict (V : Type) where
  status : InvocationStatus
  jobId : Option String
  result : Option V
  error : Option Fields

def toDict (outcome : InvocationOutcome V) (includeJobId : Bool) : Dict V where
  status := outcome.status
  jobId := if includeJobId then some outcome.jobId else none
  result := outcome.result
  error := outcome.error

def retryable (outcome : InvocationOutcome V) : Bool :=
  match outcome.error with
  | some error => Fields.get error "retryable" .null = .bool true
  | none => false

end InvocationOutcome

/-! ## Outcomes -/

def handlerNotFoundError (jobType : String) : Exn :=
  .other "HandlerNotFoundError" ("No handler registered for job type: " ++ jobType)

def resultSerializationError : Exn :=
  .other "ResultSerializationError" "handler result is not JSON serializable"

/-- The code of a failure, and whether it may be tried again. -/
def failureCode : Exn → String × Bool
  | .other name _ =>
    if name = "ServerlessEventError" then ("invalid_request", false)
    else if name = "HandlerNotFoundError" then ("unknown_job_type", false)
    else if name = "ResultSerializationError" then ("invalid_result", false)
    else ("handler_error", true)
  | _ => ("handler_error", true)

def errorFields (code : String) (error : Exn) (retryable : Bool) : Fields :=
  [("code", .str code), ("message", .str error.className), ("retryable", .bool retryable)]

def completedOutcome (jobId : String) (result : Option V) : InvocationOutcome V :=
  { status := .completed, jobId, result }

def failedOutcome (jobId : String) (error : Exn) : InvocationOutcome V where
  status := .failed
  jobId := jobId
  error := some (errorFields (failureCode error).1 error (failureCode error).2)
  cause := some error

def callbackFailedOutcome (jobId : String) (error : Exn) : InvocationOutcome V where
  status := .failed
  jobId := jobId
  error := some (errorFields "completion_callback_error" error true)
  requiresRedelivery := true
  cause := some error

/-- `isinstance(error, (TypeError, ValueError))`. -/
def isTypeOrValueError : Exn → Bool
  | .builtin .typeError _ | .builtin .valueError _ => true
  | _ => false

def validateResult (config : BridgeConfig V) (result : Option V) : Except Raised Unit :=
  match config.dumps result with
  | .ok _ => .ok ()
  | .error e => .error (.exception (if isTypeOrValueError e then resultSerializationError else e))

/-! ## The bridge -/

def execute (config : BridgeConfig V) (job : Job) (world : InvocationWorld V) :
    Except Raised (Option V) :=
  if config.handlers job.type then world.handled
  else .error (.exception (handlerNotFoundError job.type))

/-- The result of the handler once it is known to print. -/
def executed (config : BridgeConfig V) (job : Job) (world : InvocationWorld V) :
    Except Raised (Option V) := do
  let result ← execute config job world
  let _ ← validateResult config result
  pure result

/-- The handler calls that executing a job makes. -/
def handlerCalls (config : BridgeConfig V) (job : Job) : List HandlerCall :=
  if config.handlers job.type then [⟨job, if job.attempt = 0 then 1 else job.attempt⟩] else []

/-- The delivery of a fresh reporter, which nothing has claimed. -/
def DeliveryScript.delivery (script : DeliveryScript) : DeliveryRun := deliver 3 script.replies

theorem DeliveryScript.delivery_result_isSome (script : DeliveryScript) :
    script.delivery.result.isSome = true :=
  Option.isSome_iff_ne_none.mpr (deliver_result_ne_none (by exact_mod_cast script.enough))

/-- How the report ends. -/
def DeliveryScript.reported (script : DeliveryScript) : Except Raised Unit :=
  script.delivery.result.get script.delivery_result_isSome

structure Invocation (V : Type) where
  handled : List HandlerCall
  calls : List (CompletionCall (Option V))
  result : Except Raised (InvocationOutcome V)

/-- Reporting an outcome: a failed callback replaces what the invocation would return. -/
def reporting (config : BridgeConfig V) (job : Job) (world : InvocationWorld V)
    (terminal : TerminalOutcome (Option V)) (outcome : InvocationOutcome V) : Invocation V where
  handled := handlerCalls config job
  calls := List.replicate world.script.delivery.attempts (terminal.call job.id)
  result :=
    match world.script.reported with
    | .ok () => .ok outcome
    | .error .cancelled => .error .cancelled
    | .error (.exception e) => .ok (callbackFailedOutcome job.id e)

def invoke (config : BridgeConfig V) (job : Job) (world : InvocationWorld V)
    (reportCompletion : Bool) : Invocation V :=
  match executed config job world with
  | .error .cancelled => ⟨handlerCalls config job, [], .error .cancelled⟩
  | .error (.exception e) =>
    let outcome : InvocationOutcome V := failedOutcome job.id e
    if reportCompletion then
      if config.transport then
        reporting config job world
          (.failed (errorFields (failureCode e).1 e (failureCode e).2)) outcome
      else ⟨handlerCalls config job, [], .ok { outcome with requiresRedelivery := true }⟩
    else ⟨handlerCalls config job, [], .ok outcome⟩
  | .ok result =>
    let outcome := completedOutcome job.id result
    if reportCompletion ∧ config.transport then
      reporting config job world (.completed result) outcome
    else ⟨handlerCalls config job, [], .ok outcome⟩

end OpenJobSpec.Serverless
