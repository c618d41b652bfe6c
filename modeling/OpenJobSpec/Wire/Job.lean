import OpenJobSpec.Wire.WireValidation

/-! # The job envelope as the server returns it

A decoded job holds typed fields, except that a retry policy is copied from the
wire without any check of its members.
-/
namespace OpenJobSpec

inductive JobState
  | scheduled
  | available
  | pending
  | active
  | completed
  | retryable
  | cancelled
  | discarded
deriving DecidableEq

namespace JobState

def values : List (String × JobState) := [
  ("scheduled", scheduled), ("available", available), ("pending", pending), ("active", active),
  ("completed", completed), ("retryable", retryable), ("cancelled", cancelled),
  ("discarded", discarded)]

/-- `JobState(value)`. -/
def ofValue (value : String) : Option JobState := values.lookup value

/-- `state.value`. -/
def value : JobState → String
  | scheduled => "scheduled"
  | available => "available"
  | pending => "pending"
  | active => "active"
  | completed => "completed"
  | retryable => "retryable"
  | cancelled => "cancelled"
  | discarded => "discarded"

def isTerminal : JobState → Bool
  | completed | cancelled | discarded => true
  | scheduled | available | pending | active | retryable => false

@[simp] theorem ofValue_value (state : JobState) : ofValue state.value = some state := by
  cases state <;> rfl

end JobState

/-- A retry policy as `from_dict` leaves it: whatever the wire held. -/
structure RetryPolicy where
  maxAttempts : Json
  initialInterval : Json
  backoffCoefficient : Json
  maxInterval : Json
  jitter : Json
  nonRetryableErrors : Json
deriving DecidableEq

def RetryPolicy.fromDict (data : Fields) : RetryPolicy where
  maxAttempts := Fields.get data "max_attempts" (.int 3)
  initialInterval := Fields.get data "initial_interval" (.str "PT1S")
  backoffCoefficient := Fields.get data "backoff_coefficient" (.float (.finite 2))
  maxInterval := Fields.get data "max_interval" (.str "PT5M")
  jitter := Fields.get data "jitter" (.bool true)
  nonRetryableErrors := Fields.get data "non_retryable_errors" (.array [])

structure UniquePolicy where
  keys : List String
  argsKeys : Option (List String)
  metaKeys : Option (List String)
  period : Option String
  states : List String
  onConflict : String
deriving DecidableEq

/-- `value or default` for an optional string. -/
def orElseString (value : Option String) (default : String) : String :=
  match value with
  | some s => if s = "" then default else s
  | none => default

def UniquePolicy.fromDecoder (decoder : WireDecoder) : Except Exn UniquePolicy := do
  let keys ← decoder.stringArray "key" ["type", "queue", "args"]
  let argsKeys ← match decoder.value "args_keys" .null with
    | .null => pure none
    | _ => some <$> decoder.stringArray "args_keys" []
  let metaKeys ← match decoder.value "meta_keys" .null with
    | .null => pure none
    | _ => some <$> decoder.stringArray "meta_keys" []
  let period ← decoder.string "period" none
  let states ← decoder.stringArray "states" ["available", "active", "scheduled"]
  let onConflict ← decoder.string "on_conflict" (some "reject")
  return ⟨keys, argsKeys, metaKeys, period, states, orElseString onConflict "reject"⟩

structure Job where
  id : String
  type : String
  state : JobState
  args : List Json := []
  queue : String := "default"
  «meta» : Fields := []
  priority : ℤ := 0
  attempt : ℤ := 0
  maxAttempts : ℤ := 3
  timeoutMs : Option ℤ := none
  tags : List String := []
  retry : Option RetryPolicy := none
  unique : Option UniquePolicy := none
  createdAt : Option DateTime := none
  enqueuedAt : Option DateTime := none
  startedAt : Option DateTime := none
  completedAt : Option DateTime := none
  scheduledAt : Option DateTime := none
  expiresAt : Option DateTime := none
  result : Json := .null
  errors : List Fields := []
deriving DecidableEq

namespace Job

def errorEntries : ℕ → List Json → Except Exn (List Fields)
  | _, [] => .ok []
  | index, entry :: rest => do
    let decoder ← WireDecoder.object entry ("job.errors[" ++ toString index ++ "]")
    let tail ← errorEntries (index + 1) rest
    return decoder.data :: tail

/-- An empty policy object counts as no policy. -/
def policyData (data : Option Fields) : Option Fields := data.filter (fun fields => !fields.isEmpty)

def fromDict (reader : TextReader) (data : Json) : Except Exn Job := do
  let decoder ← WireDecoder.object data "job"
  let retryData ← decoder.optionalMapping "retry"
  let retry := (policyData retryData).map RetryPolicy.fromDict
  let uniqueData ← decoder.optionalMapping "unique"
  let unique ← match policyData uniqueData with
    | none => pure none
    | some fields => some <$> UniquePolicy.fromDecoder ⟨fields, "job.unique"⟩
  let stateValue ← decoder.string "state" (some "available")
  let stateName := orElseString stateValue "available"
  let state ← match JobState.ofValue stateName with
    | some s => pure s
    | none => throw (.validation
        ("invalid wire value at job.state: unknown job state " ++ Text.repr stateName))
  let rawErrors ← decoder.array "errors" []
  let errors ← errorEntries 0 rawErrors
  let id ← decoder.requiredString "id"
  let type ← decoder.requiredString "type"
  let args ← decoder.array "args" []
  let queue ← decoder.string "queue" (some "default")
  let «meta» ← decoder.mapping "meta" []
  let priority ← decoder.integer "priority" (some 0)
  let attempt ← decoder.integer "attempt" (some 0)
  let maxAttempts ← decoder.integer "max_attempts" (some 3)
  let timeoutMs ← decoder.integer "timeout_ms" none
  let tags ← decoder.stringArray "tags" []
  let createdAt ← decoder.datetime reader "created_at"
  let enqueuedAt ← decoder.datetime reader "enqueued_at"
  let startedAt ← decoder.datetime reader "started_at"
  let completedAt ← decoder.datetime reader "completed_at"
  let scheduledAt ← decoder.datetime reader "scheduled_at"
  let expiresAt ← decoder.datetime reader "expires_at"
  return {
    id, type, state, args, «meta», timeoutMs, tags, retry, unique, createdAt, enqueuedAt
    startedAt, completedAt, scheduledAt, expiresAt, errors
    queue := orElseString queue "default"
    priority := priority.getD 0
    attempt := attempt.getD 0
    maxAttempts := maxAttempts.getD 0
    result := decoder.value "result" .null }

/-- `[Job.from_dict(j) for j in jobs]`. -/
def fromDicts (reader : TextReader) (jobs : List Json) : Except Exn (List Job) :=
  jobs.mapM (fromDict reader)

end Job

end OpenJobSpec
