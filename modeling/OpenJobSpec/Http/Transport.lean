import OpenJobSpec.Errors.ResponseMapper
import OpenJobSpec.Foundation.RetryLoop
import OpenJobSpec.Http.EnqueueIdempotency
import OpenJobSpec.Http.RetryPolicy
import OpenJobSpec.Wire.Job

/-! # The HTTP transport over an arbitrary client

The client library answers each request with a response or with one of its
`RequestError` exceptions. One logical operation is a retry loop over those
answers; what a caller sees is decided by the last of them.
-/
namespace OpenJobSpec.Http
open Errors ExceptRules RetryLoop

def ojsContentType : String := "application/openjobspec+json"
def ojsBasePath : String := "/ojs/v1"
def ojsVersion : String := "1.0"

structure Response where
  statusCode : ℕ
  headers : Headers
  text : String
  /-- `response.json()`, or the builtin exception it raises -/
  json : Except (BuiltinClass × String) Json

inductive ClientOutcome
  | response (r : Response)
  | error (cls : RequestErrorClass) (message : String)

/-- A transport, with the draws of `uuid4` and `random` for each attempt. -/
structure HTTPTransport where
  baseUrl : String
  clientHeaders : Headers
  retryConfig : RetryConfig
  reader : TextReader
  requestId : ℕ → String
  random : ℕ → ℚ

def defaultHeaders (headers : Headers) : Headers :=
  let own := [("Content-Type", ojsContentType), ("Accept", ojsContentType),
    ("OJS-Version", ojsVersion)]
  own.filter (fun h => ¬ headers.any (fun o => o.1 = h.1)) ++ headers

structure Operation where
  method : String
  url : String
  json : Json
  params : Option Fields

structure SentRequest where
  operation : Operation
  headers : Headers

namespace HTTPTransport
variable (t : HTTPTransport)

def url (path : String) : String := ojsBasePath ++ path

/-- The request of one attempt: the client's headers updated with the attempt's own. -/
def sentRequest (op : Operation) (idempotencyKey : Option String) (attempt : ℕ) : SentRequest :=
  ⟨op, t.clientHeaders.update (requestHeaders (t.requestId attempt) idempotencyKey)⟩

/-- The except clauses, in order; a class that none of them names passes through. -/
def mapRequestError (cls : RequestErrorClass) (message : String) : Exn :=
  if cls.isInstance .connectError then
    .connection ("Failed to connect to OJS server at " ++ t.baseUrl ++ ": " ++ message)
  else if cls.isInstance .timeoutException then
    .timeout ("Request to OJS server timed out: " ++ message)
  else if cls.isInstance .readError ∨ cls.isInstance .writeError ∨ cls.isInstance .poolTimeout then
    .connection ("Communication error with OJS server at " ++ t.baseUrl ++ ": " ++ message)
  else .request cls message

def parseErrorBody (text : String) : Json :=
  .object [("error", .object [
    ("message", .str (if text = "" then "Unknown error" else text)),
    ("code", .str "parse_error")])]

/-- The body that is mapped; only a `ValueError` of the decoder is caught. -/
def errorBody (r : Response) : Except Exn Json :=
  match r.json with
  | .ok body => .ok body
  | .error (.valueError, _) => .ok (parseErrorBody r.text)
  | .error (cls, message) => .error (.builtin cls message)

def contentType (r : Response) : String := (r.headers.get "content-type").getD ""

/-- What stands in for a successful response that is not taken to be JSON. -/
def rawBody (r : Response) : Json :=
  .object [("_raw", .str r.text), ("_content_type", .str (contentType r))]

def decodeResponse (r : Response) : Except Exn Json :=
  if 400 ≤ r.statusCode then do
    let body ← errorBody r
    throw (raiseForError t.reader r.statusCode body r.headers)
  else if r.statusCode = 204 then .ok (.object [])
  else if ¬ Text.contains "application/json" (contentType r) then .ok (rawBody r)
  else
    match r.json with
    | .ok value => .ok value
    | .error (.valueError, message) =>
      .error (.connection ("Invalid JSON response from OJS server (Content-Type: "
        ++ contentType r ++ "): " ++ message))
    | .error (cls, message) => .error (.builtin cls message)

/-- Only a 429 is asked for its Retry-After. -/
def retryAfter (r : Response) : Option ℚ :=
  if r.statusCode = 429 then parseRetryAfter t.reader (r.headers.get "retry-after") else none

/-- One turn of the request loop: map an exception, sleep and go again, or decode. -/
def attemptMove (safety : OperationSafety) (attempt : ℕ) :
    ClientOutcome → Move ℚ (Except Exn Json)
  | .error cls message => .halt (.error (t.mapRequestError cls message))
  | .response r =>
    if (retryReason r.statusCode attempt safety t.retryConfig).isSome then
      match calculateBackoff (t.random attempt) attempt (t.retryAfter r) t.retryConfig with
      | .ok delay => .again delay
      | .error e => .halt (.error e)
    else .halt (t.decodeResponse r)

abbrev RequestRun := Run ClientOutcome ℚ (Except Exn Json)

def doRequest (op : Operation) (idempotencyKey : Option String) (script : List ClientOutcome) :
    RequestRun :=
  run (t.attemptMove (classifyOperation op.method idempotencyKey)) 0 script

def sentRequests (op : Operation) (idempotencyKey : Option String) (r : RequestRun) :
    List SentRequest :=
  (List.range r.attempts).map (t.sentRequest op idempotencyKey)

def refused (e : Exn) : RequestRun := ⟨[], [], false, some (.error e)⟩

def request (method path : String) (json : Json) (params : Option Fields)
    (script : List ClientOutcome) : RequestRun :=
  match effectiveIdempotencyKey t.clientHeaders json with
  | .error e => refused e
  | .ok idempotencyKey => t.doRequest ⟨method, url path, json, params⟩ idempotencyKey script

def finish {α : Type} (r : RequestRun) (decode : Json → Except Exn α) : Option (Except Exn α) :=
  r.result.map (fun result => result >>= decode)

/-! ## Operations -/

def decodeJob (data : Json) : Except Exn Job := do
  let job ← data.subscript "job"
  Job.fromDict t.reader job

def push (body : Json) (script : List ClientOutcome) : Option (Except Exn Job) :=
  finish (t.request "POST" "/jobs" body none script) t.decodeJob

def pushBatch (jobs : List Json) (script : List ClientOutcome) : Option (Except Exn (List Job)) :=
  finish (t.request "POST" "/jobs/batch" (.object [("jobs", .array jobs)]) none script)
    fun data => do
    let entries ← (← data.subscript "jobs").iterate
    Job.fromDicts t.reader entries

def fetchBody (queues : List String) (count : ℤ) (workerId : Option String)
    (visibilityTimeoutMs : ℤ) : Json :=
  .object ([("queues", .array (queues.map .str)), ("count", .int count),
    ("visibility_timeout_ms", .int visibilityTimeoutMs)] ++
    (match workerId.filter (· ≠ "") with
    | some id => [("worker_id", .str id)]
    | none => []))

/-- A response without a jobs key is read as an empty list. -/
def decodeFetched (data : Json) : Except Exn (List Job) := do
  let entries ← (← data.getMethod "jobs" (.array [])).iterate
  Job.fromDicts t.reader entries

def fetch (queues : List String) (count : ℤ) (workerId : Option String) (visibilityTimeoutMs : ℤ)
    (script : List ClientOutcome) : Option (Except Exn (List Job)) :=
  finish (t.request "POST" "/workers/fetch" (fetchBody queues count workerId visibilityTimeoutMs)
    none script) t.decodeFetched

end HTTPTransport

/-! ## What one turn of the loop can do -/

namespace HTTPTransport
variable {t : HTTPTransport} {safety : OperationSafety} {attempt : ℕ}

theorem attemptMove_again {o : ClientOutcome} {delay : ℚ}
    (h : t.attemptMove safety attempt o = .again delay) :
    ∃ r, o = .response r ∧ (retryReason r.statusCode attempt safety t.retryConfig).isSome ∧
      BackoffComputes attempt (t.retryAfter r) := by
  cases o with
  | error cls message => simp [attemptMove] at h
  | response r =>
    refine ⟨r, rfl, ?_⟩
    by_cases hr : (retryReason r.statusCode attempt safety t.retryConfig).isSome
    · refine ⟨hr, ?_⟩
      by_contra hb
      obtain ⟨message, hm⟩ := calculateBackoff_error (t.random attempt) t.retryConfig hb
      simp [attemptMove, hr, hm] at h
    · simp [attemptMove, hr] at h

theorem decodeResponse_of_error (t : HTTPTransport) {r : Response} (h : 400 ≤ r.statusCode) :
    ∃ e, t.decodeResponse r = .error e := by
  unfold decodeResponse
  rw [if_pos h]
  cases errorBody r with
  | error e => exact ⟨e, rfl⟩
  | ok body => exact ⟨_, rfl⟩

theorem attemptMove_error (cls : RequestErrorClass) (message : String) :
    t.attemptMove safety attempt (.error cls message) =
      .halt (.error (t.mapRequestError cls message)) := rfl

theorem attemptMove_final {r : Response}
    (h : ¬ (retryReason r.statusCode attempt safety t.retryConfig).isSome) :
    t.attemptMove safety attempt (.response r) = .halt (t.decodeResponse r) := by
  simp [attemptMove, h]

theorem attemptMove_retry {r : Response}
    (h : (retryReason r.statusCode attempt safety t.retryConfig).isSome)
    (hb : BackoffComputes attempt (t.retryAfter r)) :
    ∃ delay, t.attemptMove safety attempt (.response r) = .again delay := by
  obtain ⟨delay, hd⟩ := calculateBackoff_ok (t.random attempt) t.retryConfig hb
  exact ⟨delay, by simp [attemptMove, h, hd]⟩

theorem attemptMove_overflow {r : Response}
    (h : (retryReason r.statusCode attempt safety t.retryConfig).isSome)
    (hb : ¬ BackoffComputes attempt (t.retryAfter r)) :
    ∃ message, t.attemptMove safety attempt (.response r) =
      .halt (.error (.builtin .overflowError message)) := by
  obtain ⟨message, hm⟩ := calculateBackoff_error (t.random attempt) t.retryConfig hb
  exact ⟨message, by simp [attemptMove, h, hm]⟩

theorem attemptMove_bounded (t : HTTPTransport) (safety : OperationSafety) :
    Bounded (t.attemptMove safety) t.retryConfig.maxRetries.toNat := by
  intro k o delay h
  obtain ⟨r, _, hr, _⟩ := attemptMove_again h
  obtain ⟨_, hb, _⟩ := (retryReason_isSome_iff _ _ _ _).mp hr
  omega

theorem attemptMove_bounded_of_disabled (safety : OperationSafety)
    (h : t.retryConfig.enabled = false) : Bounded (t.attemptMove safety) 0 := by
  intro k o delay hm
  obtain ⟨r, _, hr, _⟩ := attemptMove_again hm
  obtain ⟨he, _⟩ := (retryReason_isSome_iff _ _ _ _).mp hr
  simp [h] at he

theorem doRequest_result_ne_none (t : HTTPTransport) (op : Operation)
    (idempotencyKey : Option String) {script : List ClientOutcome}
    (h : t.retryConfig.maxRetries.toNat < script.length) :
    (t.doRequest op idempotencyKey script).result ≠ none :=
  run_result_ne_none (attemptMove_bounded t _) (by simpa using h)

end HTTPTransport

end OpenJobSpec.Http
