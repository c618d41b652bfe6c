import OpenJobSpec.Serverless.InvocationBridge

/-! # The Lambda entrypoints

A batch of queue records is handled record by record, and the answer lists the
identifiers of the records that must be delivered again. The HTTP and the direct
entrypoints handle one event and answer with its outcome.
-/
namespace OpenJobSpec.Serverless
open Worker

variable {V : Type}

/-- The interpreter's JSON and time readers, and what the handler object was built with. -/
structure Adapter (V : Type) where
  text : JsonText
  reader : TextReader
  bridge : BridgeConfig V

/-- What an entrypoint did for one event, and how it answered. -/
structure EntryRun (V A : Type) where
  handled : List HandlerCall
  calls : List (CompletionCall (Option V))
  answer : A

variable (adapter : Adapter V)

/-! ## Queue records -/

def recordMessageId : Json → String
  | .object record =>
    match Fields.get record "messageId" (.str "unknown") with
    | .str messageId => messageId
    | _ => "unknown"
  | _ => "unknown"

def readRecord : Json → Except Exn Job
  | .object record =>
    readEvent adapter.text adapter.reader (.json (Fields.get record "body" (.str "")))
  | _ => .error (serverlessEventError "SQS record must be an object")

/-- One turn of the loop. The answer tells whether the record is a failed one. -/
def handleRecord (record : Json) (world : InvocationWorld V) :
    EntryRun V (Except Raised Bool) :=
  match readRecord adapter record with
  | .error _ => ⟨[], [], .ok true⟩
  | .ok job =>
    let invocation := invoke adapter.bridge job world true
    ⟨invocation.handled, invocation.calls,
      match invocation.result with
      | .ok outcome => .ok outcome.requiresRedelivery
      | .error .cancelled => .error .cancelled
      | .error (.exception _) => .ok true⟩

/-- The turns of the loop so far, and the identifiers in `batchItemFailures`. -/
structure BatchRun (V : Type) where
  turns : List (EntryRun V (Except Raised Bool))
  failures : Except Raised (List String)

def handleRecords (worlds : ℕ → InvocationWorld V) : ℕ → List Json → BatchRun V
  | _, [] => ⟨[], .ok []⟩
  | i, record :: rest =>
    let turn := handleRecord adapter record (worlds i)
    match turn.answer with
    | .error raised => ⟨[turn], .error raised⟩
    | .ok failed =>
      let tail := handleRecords worlds (i + 1) rest
      ⟨turn :: tail.turns, do
        let failures ← tail.failures
        pure (if failed then recordMessageId record :: failures else failures)⟩

/-- The records of an event. One without a list of records is answered like an empty one. -/
def eventRecords (event : Fields) : List Json :=
  match Fields.get event "Records" (.array []) with
  | .array records => records
  | _ => []

def handleSqs (event : Fields) (worlds : ℕ → InvocationWorld V) : BatchRun V :=
  handleRecords adapter worlds 0 (eventRecords event)

/-! ## HTTP and direct events -/

inductive HttpBody (V : Type)
  | error (message : String)
  | outcome (outcome : InvocationOutcome.Dict V)

structure HttpResponse (V : Type) where
  statusCode : ℕ
  body : HttpBody V

def contextMethod (event : Fields) : Option String :=
  match Fields.get event "requestContext" (.object []) with
  | .object context =>
    match Fields.get context "http" (.object []) with
    | .object http =>
      match Fields.get http "method" (.str "") with
      | .str method => if method = "" then none else some method
      | _ => none
    | _ => none
  | _ => none

def httpMethod (event : Fields) : String :=
  match contextMethod event with
  | some method => method
  | none =>
    match Fields.get event "httpMethod" (.str "") with
    | .str method => method
    | _ => ""

def isInvalidRequest (outcome : InvocationOutcome V) : Bool :=
  match outcome.error with
  | some error => Fields.get error "code" .null = .str "invalid_request"
  | none => false

def httpResponse (outcome : InvocationOutcome V) : HttpResponse V where
  statusCode := if isInvalidRequest outcome then 400 else 200
  body := .outcome (outcome.toDict false)

/-- The outcome of a guarded entrypoint: an exception becomes a failed outcome. -/
def guarded (jobId : String) : Except Raised (InvocationOutcome V) →
    Except Raised (InvocationOutcome V)
  | .error (.exception e) => .ok (failedOutcome jobId e)
  | ended => ended

/-- Reading an event and invoking its job; a job that cannot be read is a failed outcome. -/
def invokeEvent (jobId : String) (job : Except Exn Job) (world : InvocationWorld V)
    (reportCompletion : Bool) : EntryRun V (Except Raised (InvocationOutcome V)) :=
  match job with
  | .error e => ⟨[], [], .ok (failedOutcome jobId e)⟩
  | .ok job =>
    let invocation := invoke adapter.bridge job world reportCompletion
    ⟨invocation.handled, invocation.calls, guarded jobId invocation.result⟩

def httpBody (event : Fields) : EventValue := .json (Fields.get event "body" (.str ""))

def handleHttp (event : Fields) (world : InvocationWorld V) :
    EntryRun V (Except Raised (HttpResponse V)) :=
  if Text.upper (httpMethod event) ≠ "POST" then
    ⟨[], [], .ok ⟨405, .error "Method not allowed"⟩⟩
  else
    let job := readEvent adapter.text adapter.reader (httpBody event)
    let run := invokeEvent adapter "" job world false
    ⟨run.handled, run.calls, run.answer.map httpResponse⟩

end OpenJobSpec.Serverless
