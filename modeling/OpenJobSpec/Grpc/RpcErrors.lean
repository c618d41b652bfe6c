import OpenJobSpec.Errors.ResponseMapper
import OpenJobSpec.Wire.Job

/-! # Canonical gRPC statuses as OJS exceptions

A server may send a `google.rpc.Status` message in the trailer of a failed call.
What the protobuf runtime makes of the trailer's bytes is a parameter.
-/
namespace OpenJobSpec.Grpc
open Errors ExceptRules

inductive StatusCode
  | ok
  | cancelled
  | unknown
  | invalidArgument
  | deadlineExceeded
  | notFound
  | alreadyExists
  | permissionDenied
  | resourceExhausted
  | failedPrecondition
  | aborted
  | outOfRange
  | unimplemented
  | internal
  | unavailable
  | dataLoss
  | unauthenticated
deriving DecidableEq

def grpcCodeToOjsCode : StatusCode → String
  | .invalidArgument => "invalid_request"
  | .notFound => "not_found"
  | .alreadyExists => "duplicate"
  | .failedPrecondition => "invalid_state_transition"
  | .resourceExhausted => "rate_limited"
  | .unavailable => "connection_error"
  | .deadlineExceeded => "timeout"
  | .permissionDenied => "permission_denied"
  | .unauthenticated => "unauthenticated"
  | .unimplemented => "unimplemented"
  | .internal => "internal"
  | _ => "unknown"

def grpcCodeToHttpStatus : StatusCode → ℕ
  | .ok => 200
  | .invalidArgument => 400
  | .notFound => 404
  | .alreadyExists => 409
  | .failedPrecondition => 422
  | .resourceExhausted => 429
  | .permissionDenied => 403
  | .unauthenticated => 401
  | .unavailable => 503
  | .deadlineExceeded => 504
  | .unimplemented => 501
  | .internal => 500
  | _ => 500

structure ErrorInfo where
  reason : String
  domain : String
  metadata : List (String × String)
deriving DecidableEq

structure FieldViolation where
  field : String
  description : String

/-- A detail of a status, by the type that its `Any` names. -/
inductive StatusDetail
  | errorInfo (info : ErrorInfo)
  | retryInfo (seconds nanos : ℤ)
  | badRequest (violations : List FieldViolation)
  /-- one of these types, with bytes that are no message of it -/
  | malformed (message : String)
  | other

structure RpcStatus where
  message : String
  details : List StatusDetail

inductive MetadataValue
  | text (value : String)
  | bytes (value : List UInt8)

/-- A `grpc.aio.AioRpcError`. -/
structure RpcError where
  code : StatusCode
  details : Option String
  text : String
  trailingMetadata : Option (List (String × MetadataValue))

structure StatusRuntime where
  /-- `Status.ParseFromString`, where the message types are installed -/
  parseStatus : Option (List UInt8 → Option RpcStatus)
  /-- `str(seconds + nanos / 1_000_000_000)` -/
  secondsText : ℤ → ℤ → String

/-- `error.details() or str(error)`. -/
def RpcError.message (error : RpcError) : String := orElseString error.details error.text

/-- The first binary trailer of the name is the only one that is looked at. -/
def serializedStatus (metadata : List (String × MetadataValue)) : Option (List UInt8) :=
  metadata.findSome? fun
    | (key, .bytes value) => if key = "grpc-status-details-bin" then some value else none
    | _ => none

def trailingStatus (runtime : StatusRuntime) (error : RpcError) : Option RpcStatus := do
  let parse ← runtime.parseStatus
  let metadata ← error.trailingMetadata
  let serialized ← serializedStatus metadata
  parse serialized

structure DecodedDetails where
  errorInfo : Option ErrorInfo := none
  retryInfo : Option (ℤ × ℤ) := none
  fieldViolations : List FieldViolation := []

/-- A later detail replaces an earlier one; an `ErrorInfo` of another domain is passed over. -/
def decodeDetails : List StatusDetail → DecodedDetails → Except Exn DecodedDetails
  | [], found => .ok found
  | .errorInfo info :: rest, found =>
    decodeDetails rest
      (if info.domain = "openjobspec.org" then { found with errorInfo := some info } else found)
  | .retryInfo seconds nanos :: rest, found =>
    decodeDetails rest { found with retryInfo := some (seconds, nanos) }
  | .badRequest violations :: rest, found =>
    decodeDetails rest { found with fieldViolations := found.fieldViolations ++ violations }
  | .malformed message :: _, _ => .error (.other "DecodeError" message)
  | .other :: rest, found => decodeDetails rest found

def FieldViolation.toJson (v : FieldViolation) : Json :=
  .object [("field", .str v.field), ("description", .str v.description)]

/-- The members of an `ErrorInfo` that are the error's details. -/
def metadataDetails (metadata : List (String × String)) : Fields :=
  (metadata.filter fun entry => entry.1 ∉ ["request_id", "retryable"]).map fun entry =>
    (entry.1, .str entry.2)

/-- The error object that an `ErrorInfo` stands for. -/
def structuredData (message : String) (info : ErrorInfo) (violations : List FieldViolation) :
    Fields :=
  let details := metadataDetails info.metadata
  [("code", .str (Text.removeprefix "OJS_" info.reason)),
    ("message", .str message),
    ("retryable", .bool
      (Text.casefold ((info.metadata.lookup "retryable").getD "false") = "true")),
    ("request_id", ((info.metadata.lookup "request_id").map Json.str).getD .null),
    ("details", .object (if violations = [] then details
      else Fields.set details "field_violations" (.array (violations.map FieldViolation.toJson))))]

def retryHeaders (runtime : StatusRuntime) : Option (ℤ × ℤ) → Headers
  | none => []
  | some (seconds, nanos) => [("retry-after", runtime.secondsText seconds nanos)]

def structuredError (runtime : StatusRuntime) (reader : TextReader) (error : RpcError)
    (statusCode : ℕ) : Except Exn (Option OJSAPIError) :=
  match trailingStatus runtime error with
  | none => .ok none
  | some status => do
    let found ← decodeDetails status.details {}
    match found.errorInfo with
    | none => .ok none
    | some info =>
      let message := orElseString (some status.message) error.message
      let data := structuredData message info found.fieldViolations
      some <$> mapErrorResponse reader statusCode (.object [("error", .object data)])
        (retryHeaders runtime found.retryInfo)

/-- The exception for a status without an OJS error in its trailer. -/
def unstructuredError (error : RpcError) : Exn :=
  let statusCode := grpcCodeToHttpStatus error.code
  let detail : OJSErrorDetail :=
    { code := grpcCodeToOjsCode error.code
      message := error.message
      retryable := error.code ∈
        [StatusCode.unavailable, .deadlineExceeded, .resourceExhausted, .internal]
      details := []
      requestId := none }
  match error.code with
  | .invalidArgument => .api ⟨.apiError, statusCode, detail⟩
  | .notFound => .api ⟨.jobNotFound, statusCode, detail⟩
  | .alreadyExists => .api ⟨.duplicateJob, statusCode, detail⟩
  | .resourceExhausted => .api ⟨.rateLimited none none, statusCode, detail⟩
  | .unavailable => .connection ("gRPC server unavailable: " ++ error.message)
  | .deadlineExceeded => .timeout ("gRPC deadline exceeded: " ++ error.message)
  | _ => .api ⟨.apiError, statusCode, detail⟩

/-- The exception that is returned, or the one that escapes. -/
def mapGrpcError (runtime : StatusRuntime) (reader : TextReader) (error : RpcError) :
    Except Exn Exn := do
  match ← structuredError runtime reader error (grpcCodeToHttpStatus error.code) with
  | some structured => return .api structured
  | none => return unstructuredError error

end OpenJobSpec.Grpc
