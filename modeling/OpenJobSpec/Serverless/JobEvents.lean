import OpenJobSpec.Wire.JobAcceptance

/-! # Job events at the serverless boundary

An event is decoded to an object, the job is taken out of its envelope, and the
fields that a handler relies on are checked before the rest of the job is
decoded. The JSON reader and `repr` belong to the interpreter: the first may
refuse a text with an exception that is no decode error, the second may fail on
a value too deep or too large to print.
-/
namespace OpenJobSpec.Serverless
open ExceptRules OpenJobSpec.Field

inductive LoadsFailure
  | decodeError
  | builtin (cls : BuiltinClass) (message : String)

structure JsonText where
  /-- `json.loads(text)` -/
  loads : String → Except LoadsFailure Json
  /-- `repr(value)` -/
  repr : Json → Except (BuiltinClass × String) String

/-- What an entrypoint is handed: raw bytes, or a value that is text, an object or anything else. -/
inductive EventValue
  | bytes (body : ByteArray)
  | json (value : Json)

def serverlessEventError (message : String) : Exn := .other "ServerlessEventError" message

/-- `isinstance(error, ServerlessEventError)`. -/
def isServerlessEventError : Exn → Bool
  | .other name _ => name = "ServerlessEventError"
  | _ => false

section Decoding
variable (text : JsonText)

def eventBody : EventValue → Except Exn Json
  | .bytes body =>
    match String.fromUTF8? body with
    | some s => .ok (.str s)
    | none => .error (serverlessEventError "event body is not valid UTF-8")
  | .json value => .ok value

def loadBody : Json → Except Exn Json
  | .str s =>
    match text.loads s with
    | .ok value => .ok value
    | .error .decodeError => .error (serverlessEventError "event body is not valid JSON")
    | .error (.builtin cls message) => .error (.builtin cls message)
  | value => .ok value

def eventObject : Json → Except Exn Fields
  | .object fields => .ok fields
  | _ => .error (serverlessEventError "event body must be a JSON object")

def decodeEvent (v : EventValue) : Except Exn Fields := do
  let body ← eventBody v
  let value ← loadBody text body
  eventObject value

/-- `isinstance(value, str) and value`. -/
def nonEmptyString (message : String) : Json → Except Exn String
  | .str s => if s = "" then .error (serverlessEventError message) else .ok s
  | _ => .error (serverlessEventError message)

def eventArgs : Json → Except Exn (List Json)
  | .array xs => .ok xs
  | _ => .error (serverlessEventError "job args must be an array")

def eventMeta : Json → Except Exn Fields
  | .object fields => .ok fields
  | _ => .error (serverlessEventError "job meta must be an object")

/-- `JobState(value)` for a value of any type. -/
def stateOf : Json → Option JobState
  | .str s => JobState.ofValue s
  | _ => none

def normalizedState (value : Json) : Except Exn JobState :=
  match stateOf value with
  | some state => .ok state
  | none =>
    match text.repr value with
    | .ok shown => .error (serverlessEventError ("invalid job state: " ++ shown))
    | .error (cls, message) => .error (.builtin cls message)

def atLeast (name : String) (minimum : Option ℤ) (n : ℤ) : Except Exn ℤ :=
  match minimum with
  | some low =>
    if n < low then
      .error (serverlessEventError ("job " ++ name ++ " must be at least " ++ toString low))
    else .ok n
  | none => .ok n

def integerField (data : Fields) (name : String) (default : ℤ) (minimum : Option ℤ) :
    Except Exn ℤ :=
  match Fields.get data name (.int default) with
  | .int n => atLeast name minimum n
  | _ => .error (serverlessEventError ("job " ++ name ++ " must be an integer"))

def attemptField (data : Fields) : Except Exn ℤ := integerField data "attempt" 1 (some 0)

def maxAttemptsField (data : Fields) : Except Exn ℤ := integerField data "max_attempts" 3 (some 1)

def priorityField (data : Fields) : Except Exn ℤ := integerField data "priority" 0 none

/-- The fields of an event after the checks, the ones that were checked in their normal form. -/
def normalizeEvent (data : Fields) : Except Exn Fields := do
  let id ← nonEmptyString "job id must be a non-empty string" (Fields.get data "id" .null)
  let type ← nonEmptyString "job type must be a non-empty string" (Fields.get data "type" .null)
  let args ← eventArgs (Fields.get data "args" (.array []))
  let «meta» ← eventMeta (Fields.get data "meta" (.object []))
  let state ← normalizedState text (Fields.get data "state" (.str JobState.active.value))
  let attempt ← attemptField data
  let maxAttempts ← maxAttemptsField data
  let priority ← priorityField data
  .ok (Fields.update data [
    ("id", .str id), ("type", .str type), ("state", .str state.value), ("args", .array args),
    ("meta", .object «meta»), ("attempt", .int attempt), ("max_attempts", .int maxAttempts),
    ("priority", .int priority)])

def parseJobEvent (reader : TextReader) (data : Fields) : Except Exn Job := do
  let normalized ← normalizeEvent text data
  Job.fromDict reader (.object normalized)

def jobValue : Json → Except Exn Fields
  | .object fields => .ok fields
  | _ => .error (serverlessEventError "job envelope field must be an object")

def extractJobEvent (reader : TextReader) (envelope : Fields) : Except Exn Job := do
  let fields ← jobValue (Fields.get envelope "job" (.object envelope))
  parseJobEvent text reader fields

/-- `extract_job_event(decode_event(value))`. -/
def readEvent (reader : TextReader) (v : EventValue) : Except Exn Job := do
  let envelope ← decodeEvent text v
  extractJobEvent text reader envelope

end Decoding

end OpenJobSpec.Serverless
