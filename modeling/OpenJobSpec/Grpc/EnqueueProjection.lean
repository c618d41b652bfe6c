import OpenJobSpec.Grpc.ArgumentsRoundTrip
import OpenJobSpec.Grpc.ProtobufTime
import OpenJobSpec.Wire.JobRequest

/-! # Enqueue options as the gRPC message holds them

Each option is projected on its own: the piece of the message that it becomes,
or nothing when it is absent or of another type.
-/
namespace OpenJobSpec.Grpc
open ExceptRules

/-- What the projection asks of the interpreter. -/
structure ProjectionRuntime where
  /-- the value of a character that is a decimal digit -/
  digit : Char → Option ℕ
  clock : Clock
  /-- `str(value)` of what is not a text -/
  text : Json → String

/-- An integer, as which a boolean counts. -/
def asInteger : Json → Option ℤ
  | .int n => some n
  | .bool b => some (if b then 1 else 0)
  | _ => none

/-- The entry of a value that passes a check. -/
def checked (accepts : Json → Bool) (key : String) (value : Json) : Fields :=
  if accepts value then [(key, value)] else []

def isText : Json → Bool
  | .str _ => true
  | _ => false

def isInt (value : Json) : Bool := (asInteger value).isSome

def isNumber : Json → Bool
  | .int _ | .bool _ | .float _ => true
  | _ => false

def isBool : Json → Bool
  | .bool _ => true
  | _ => false

def isList : Json → Bool
  | .array _ => true
  | _ => false

def millisecondsEntry (key : String) (value : Json) : Except Exn Fields :=
  match asInteger value with
  | none => .ok []
  | some milliseconds => do
    let duration ← millisecondsToDuration milliseconds
    return [(key, .str duration)]

variable (runtime : ProjectionRuntime)

def isoEntry (key : String) (value : Json) : Except Exn Fields :=
  match value with
  | .str text => do
    let duration ← isoDurationToProtobuf runtime.digit text
    return [(key, .str duration)]
  | _ => .ok []

def expiryEntry (now : ℤ) (value : Json) : Except Exn Fields :=
  match value with
  | .str text => do
    let ttl ← expiryToTtl runtime.clock now text
    return [("ttl", .str ttl)]
  | _ => .ok []

def encodeRetry (retry : Fields) : Except Exn Fields := do
  let initialInterval ← isoEntry runtime "initial_interval"
    (Fields.get retry "initial_interval" .null)
  let maxInterval ← isoEntry runtime "max_interval" (Fields.get retry "max_interval" .null)
  return checked isInt "max_attempts" (Fields.get retry "max_attempts" .null)
    ++ initialInterval ++ maxInterval
    ++ checked isNumber "backoff_coefficient" (Fields.get retry "backoff_coefficient" .null)
    ++ checked isBool "jitter" (Fields.get retry "jitter" .null)
    ++ checked isList "non_retryable_errors" (Fields.get retry "non_retryable_errors" .null)
    ++ checked isText "on_exhaustion" (Fields.get retry "on_exhaustion" .null)

def retryEntry (value : Json) : Except Exn Fields :=
  match value with
  | .object retry => do
    let projected ← encodeRetry runtime retry
    return [("retry", .object projected)]
      ++ checked isInt "max_attempts" (Fields.get retry "max_attempts" .null)
  | _ => .ok []

def encodedConflictActions : List (String × String) := [
  ("ignore", "UNIQUE_CONFLICT_ACTION_IGNORE"), ("reject", "UNIQUE_CONFLICT_ACTION_REJECT"),
  ("replace", "UNIQUE_CONFLICT_ACTION_REPLACE"),
  ("replace_except_schedule", "UNIQUE_CONFLICT_ACTION_REPLACE_EXCEPT_SCHEDULE")]

def conflictEntry (value : Json) : Except Exn Fields :=
  match value with
  | .str conflict =>
    match encodedConflictActions.lookup conflict with
    | some action => .ok [("on_conflict", .str action)]
    | none => .error (.validation
        ("unsupported unique on_conflict value: " ++ Text.repr conflict))
  | _ => .ok []

/-- `str(state)`. -/
def stateText : Json → String
  | .str state => state
  | other => runtime.text other

def statesEntry (value : Json) : Fields :=
  match value with
  | .array states =>
    [("states", .array (states.map fun state =>
      .str ("JOB_STATE_" ++ Text.upper (stateText runtime state))))]
  | _ => []

def encodeUnique (unique : Fields) : Except Exn Fields := do
  let period ← isoEntry runtime "period" (Fields.get unique "period" .null)
  let conflict ← conflictEntry (Fields.get unique "on_conflict" .null)
  return checked isList "key" (Fields.get unique "key" .null) ++ period ++ conflict
    ++ statesEntry runtime (Fields.get unique "states" .null)
    ++ checked isList "args_keys" (Fields.get unique "args_keys" .null)
    ++ checked isList "meta_keys" (Fields.get unique "meta_keys" .null)

def uniqueEntry (value : Json) : Except Exn Fields :=
  match value with
  | .object unique => do
    let projected ← encodeUnique runtime unique
    return [("unique", .object projected)]
  | _ => .ok []

def metaEntry (value : Json) : Fields :=
  match value with
  | .object «meta» =>
    [("meta", .object «meta»)] ++ checked isText "trace_id" (Fields.get «meta» "trace_id" .null)
  | _ => []

/-- A text that is not empty. -/
def isName : Json → Bool
  | .str text => text ≠ ""
  | _ => false

/-- `_project_options`. -/
def encodeOptions (now : ℤ) (body source : Fields) : Except Exn Fields := do
  let timeout ← millisecondsEntry "timeout" (Fields.get source "timeout_ms" .null)
  let ttl ← expiryEntry runtime now (Fields.get source "expires_at" .null)
  let retry ← retryEntry runtime (Fields.get source "retry" .null)
  let unique ← uniqueEntry runtime (Fields.get source "unique" .null)
  let visibilityTimeout ← millisecondsEntry "visibility_timeout"
    (Fields.get source "visibility_timeout_ms" .null)
  return checked isName "queue" (Fields.get source "queue" (Fields.get body "queue" .null))
    ++ checked isInt "priority" (Fields.get source "priority" (Fields.get body "priority" .null))
    ++ checked isText "delay_until" (Fields.get source "delay_until" .null)
    ++ timeout ++ ttl ++ retry ++ unique
    ++ checked isList "tags" (Fields.get source "tags" (Fields.get body "tags" .null))
    ++ metaEntry (Fields.get body "meta" .null) ++ visibilityTimeout

/-- `project_enqueue` at an instant. -/
def encodeEnqueue (now : ℤ) (body : Fields) : Except Exn Fields :=
  projectEnqueue (encodeOptions runtime now) body

end OpenJobSpec.Grpc
