import OpenJobSpec.Serverless.AwsLambda

/-! # The Azure entrypoints

A queue trigger answers by returning or by raising: the runtime delivers a
message again when its entrypoint raises. The request of the HTTP trigger parses
its own body.
-/
namespace OpenJobSpec.Serverless
variable {V : Type}

/-- What leaves a queue trigger: the printed outcome with the error behind it, or what the bridge
lets through. -/
inductive QueueFailure (V : Type)
  | runtimeError (printed : InvocationOutcome.Dict V) (cause : Option Exn)
  | raised (raised : Raised)

def resolveQueueTriggerOutcome (outcome : InvocationOutcome V) :
    Except (QueueFailure V) (Option V) :=
  if outcome.retryable then .error (.runtimeError (outcome.toDict true) outcome.cause)
  else .ok outcome.result

structure HttpRequest where
  method : Option String
  /-- `req.get_json()` -/
  getJson : Except (BuiltinClass × String) Json

def parseHttpRequestJson (req : HttpRequest) : Except Exn Json :=
  match req.getJson with
  | .ok value => .ok value
  | .error (cls, message) =>
    .error (if cls = .valueError then serverlessEventError "HTTP request body is not valid JSON"
      else .builtin cls message)

variable (adapter : Adapter V)

def handleQueueMessage (body : EventValue) (world : InvocationWorld V) :
    EntryRun V (Except (QueueFailure V) (Option V)) :=
  match readEvent adapter.text adapter.reader body with
  | .error e => ⟨[], [], resolveQueueTriggerOutcome (failedOutcome "" e)⟩
  | .ok job =>
    let invocation := invoke adapter.bridge job world true
    ⟨invocation.handled, invocation.calls,
      match invocation.result with
      | .ok outcome => resolveQueueTriggerOutcome outcome
      | .error raised => .error (.raised raised)⟩

def readRequest (req : HttpRequest) : Except Exn Job := do
  let value ← parseHttpRequestJson req
  readEvent adapter.text adapter.reader (.json value)

/-- `req.method and req.method.upper() != "POST"`. -/
def methodRefused (method : Option String) : Bool :=
  match method with
  | some m => m ≠ "" ∧ Text.upper m ≠ "POST"
  | none => false

def handleHttpRequest (req : HttpRequest) (world : InvocationWorld V) :
    EntryRun V (Except Raised (HttpResponse V)) :=
  if methodRefused req.method then ⟨[], [], .ok ⟨405, .error "Method not allowed"⟩⟩
  else
    let run := invokeEvent adapter "" (readRequest adapter req) world false
    ⟨run.handled, run.calls, run.answer.map httpResponse⟩

end OpenJobSpec.Serverless
