import OpenJobSpec.Grpc.JobMessage
import OpenJobSpec.Grpc.ProtobufValue
import OpenJobSpec.Wire.Job

/-! # Projection of protobuf jobs into the public envelope

A decoded response has its integers restored and its arguments converted before
the projection sees it; a message that is projected directly is printed with its
zero values instead. The two conversions of duration texts are only called here,
so they are parameters.
-/
namespace OpenJobSpec.Grpc

/-- What the projection uses of the conversions of protobuf times. -/
structure DurationText where
  toMilliseconds : String → Except Exn ℤ
  toIso : String → Except Exn String

/-! ## `_normalize_integer_fields` -/

/-- `int(value)` of a printed integer: 64-bit ones are printed as texts. -/
def toInteger : Json → Json
  | .str text =>
    match text.toInt? with
    | some n => .int n
    | none => .str text
  | value => value

/-- Apply what a descriptor asks for to the fields that hold a value. -/
def normalizeFields (descriptor : List (String × (Json → Json))) (data : Fields) : Fields :=
  data.map fun entry =>
    match descriptor.lookup entry.1, entry.2 with
    | _, .null => entry
    | none, _ => entry
    | some normalize, value => (entry.1, normalize value)

def normalizeMessage (descriptor : List (String × (Json → Json))) : Json → Json
  | .object fields => .object (normalizeFields descriptor fields)
  | value => value

def normalizeMessages (descriptor : List (String × (Json → Json))) : Json → Json
  | .array items => .array (items.map (normalizeMessage descriptor))
  | value => value

/-- The only field of a `Struct` is a map whose values are no integers. -/
def structIntegers : List (String × (Json → Json)) := []

/-- A value printed as an object holds a struct, so its list is the empty message, which pairs
nothing with whatever is found under `list_value`. -/
def valueIntegers : List (String × (Json → Json)) := [
  ("struct_value", normalizeMessage structIntegers), ("list_value", normalizeMessage [])]

def retryPolicyIntegers : List (String × (Json → Json)) := [("max_attempts", toInteger)]

def jobErrorIntegers : List (String × (Json → Json)) := [
  ("attempt", toInteger), ("details", normalizeMessage structIntegers)]

def jobIntegers : List (String × (Json → Json)) := [
  ("args", normalizeMessages valueIntegers), ("meta", normalizeMessage structIntegers),
  ("priority", toInteger), ("attempt", toInteger), ("max_attempts", toInteger),
  ("retry_policy", normalizeMessage retryPolicyIntegers), ("unique_policy", normalizeMessage []),
  ("result", normalizeMessage structIntegers), ("errors", normalizeMessages jobErrorIntegers)]

variable {V S T D : Type}

def responseDict (w : WellKnownJson V S T D) (m : JobMessage V S T D) : Except Exn Fields := do
  let printed ← m.print w
  return normalizeFields jobIntegers (printed.toDict false)

/-! ## `project_job` -/

/-- `dict(value)`, where nothing but a dictionary is printed for a `Struct`. -/
def dictOf : Json → Except Exn Fields
  | .object fields => .ok fields
  | other => .error (.builtin .typeError ("'" ++ other.typeName ++ "' object is not iterable"))

def jobStateNumbers : List (ℤ × String) := [
  (1, "scheduled"), (2, "available"), (3, "pending"), (4, "active"), (5, "completed"),
  (6, "retryable"), (7, "cancelled"), (8, "discarded")]

def jobState : Json → String
  | .str state =>
    let normalized := Text.removeprefix "job_state_" (Text.lower state)
    if normalized = "unspecified" then "available" else normalized
  | .int number => (jobStateNumbers.lookup number).getD "available"
  | .bool true => "scheduled"
  | _ => "available"

def conflictActions : List (String × String) := [
  ("UNIQUE_CONFLICT_ACTION_IGNORE", "ignore"), ("UNIQUE_CONFLICT_ACTION_REJECT", "reject"),
  ("UNIQUE_CONFLICT_ACTION_REPLACE", "replace"),
  ("UNIQUE_CONFLICT_ACTION_REPLACE_EXCEPT_SCHEDULE", "replace_except_schedule"),
  ("UNIQUE_CONFLICT_ACTION_UNSPECIFIED", "reject")]

/-- No text of anything but a string names an action. -/
def conflictAction : Json → String
  | .str action => (conflictActions.lookup action).getD "reject"
  | _ => "reject"

/-- The entry of a key that is there. -/
def copied (source : Fields) (key : String) : Fields :=
  match source.lookup key with
  | some value => [(key, value)]
  | none => []

/-- The entry of a duration that is there, in the other notation. -/
def isoDuration (times : DurationText) (source : Fields) (key : String) : Except Exn Fields :=
  match source.lookup key with
  | some (.str text) => do
    let iso ← times.toIso text
    return [(key, .str iso)]
  | _ => .ok []

/-- The entry of a list that holds something. -/
def nonEmptyList (source : Fields) (key : String) : Fields :=
  match source.lookup key with
  | some (.array (item :: items)) => [(key, .array (item :: items))]
  | _ => []

def projectRetry (times : DurationText) (retry : Fields) : Except Exn Fields := do
  let initialInterval ← isoDuration times retry "initial_interval"
  let maxInterval ← isoDuration times retry "max_interval"
  return copied retry "max_attempts" ++ copied retry "backoff_coefficient" ++ copied retry "jitter"
    ++ initialInterval ++ maxInterval ++ nonEmptyList retry "non_retryable_errors"

def projectUnique (times : DurationText) (unique : Fields) : Except Exn Fields := do
  let key ← (Fields.get unique "key" (.array [])).iterate
  let states ← (Fields.get unique "states" (.array [])).iterate
  let period ← isoDuration times unique "period"
  return [("key", .array key), ("states", .array (states.map fun state => .str (jobState state))),
    ("on_conflict", .str (conflictAction (Fields.get unique "on_conflict" (.str ""))))]
    ++ period ++ nonEmptyList unique "args_keys" ++ nonEmptyList unique "meta_keys"

/-- The entry of a policy whose message is set. -/
def projectPolicy (project : Fields → Except Exn Fields) (source : Fields) (key name : String) :
    Except Exn Fields :=
  match source.lookup key with
  | some (.object policy) => do
    let projected ← project policy
    return [(name, .object projected)]
  | _ => .ok []

def projectTimeout (times : DurationText) (source : Fields) : Except Exn Fields :=
  match source.lookup "timeout" with
  | some (.str text) => do
    let milliseconds ← times.toMilliseconds text
    return [("timeout_ms", .int milliseconds)]
  | _ => .ok []

def projectJob (times : DurationText) (source : Fields) : Except Exn Fields := do
  let args ← (Fields.get source "args" (.array [])).iterate
  let «meta» ← dictOf (Fields.get source "meta" (.object []))
  let tags ← (Fields.get source "tags" (.array [])).iterate
  let errors ← (Fields.get source "errors" (.array [])).iterate
  let timeout ← projectTimeout times source
  let retry ← projectPolicy (projectRetry times) source "retry_policy" "retry"
  let unique ← projectPolicy (projectUnique times) source "unique_policy" "unique"
  return [
    ("id", Fields.get source "id" (.str "")), ("type", Fields.get source "type" (.str "")),
    ("queue", (Fields.get source "queue" .null).orElse (.str "default")), ("args", .array args),
    ("meta", .object «meta»),
    ("state", .str (jobState (Fields.get source "state" (.str "available")))),
    ("priority", Fields.get source "priority" (.int 0)),
    ("attempt", Fields.get source "attempt" (.int 0)), ("tags", .array tags),
    ("errors", .array errors), ("result", Fields.get source "result" .null)]
    ++ copied source "max_attempts" ++ timeout ++ retry ++ unique
    ++ ["created_at", "enqueued_at", "started_at", "completed_at", "scheduled_at",
      "expires_at"].map (fun key => (key, Fields.get source key .null))

/-! ## The two ways to a job -/

/-- `_from_proto_job`. -/
def fromProtoJob (times : DurationText) (job : Fields) : Except Exn Fields := do
  let args ← (Fields.get job "args" (.array [])).iterate
  let decoded ← args.mapM fromProtoValue
  projectJob times (Fields.set job "args" (.array decoded))

/-- How every RPC obtains a job. -/
def rpcJob (reader : TextReader) (times : DurationText) (w : WellKnownJson V S T D)
    (m : JobMessage V S T D) : Except Exn Job := do
  let response ← responseDict w m
  let projected ← fromProtoJob times response
  Job.fromDict reader (.object projected)

/-- The projection of a message, which prints its zero values. -/
def directJob (reader : TextReader) (times : DurationText) (w : WellKnownJson V S T D)
    (m : JobMessage V S T D) : Except Exn Job := do
  let printed ← m.print w
  let projected ← projectJob times (printed.toDict true)
  Job.fromDict reader (.object projected)

end OpenJobSpec.Grpc
