import OpenJobSpec.Errors.Catalog
import OpenJobSpec.Errors.RateLimitHeaders
import OpenJobSpec.Foundation.ExceptRules
import OpenJobSpec.Python.Access

/-! # Catalog-driven mapping from error responses to exceptions

The mapper reads a mapping. It is handed whatever JSON the peer sent, and a
value without a `get` method fails before any OJS exception exists.
-/
namespace OpenJobSpec.Errors
open ExceptRules

def legacyAliases : List (String × String) := [
  ("duplicate", "DUPLICATE_JOB"),
  ("not_found", "NOT_FOUND"),
  ("queue_paused", "QUEUE_PAUSED"),
  ("rate_limited", "RATE_LIMITED")]

/-- The wire code that a code of a response stands for. -/
def canonicalCode (code : String) : String :=
  (legacyAliases.lookup (Text.casefold code)).getD (Text.upper code)

def catalogEntry (code : String) : Option ErrorCodeEntry :=
  (lookupByCanonicalCode (canonicalCode code)).or (lookupByCode (Text.upper code))

def string (value : Json) (default : String) : String :=
  match value with
  | .str s => if s = "" then default else s
  | _ => default

def details (value : Json) : Fields :=
  match value with
  | .object fields => fields
  | .null => []
  | other => [("raw_details", other)]

/-- The error object of a body, and what is kept of one that is not an object. -/
def errorPayload (body : Json) : Except Exn (Fields × Fields) := do
  match ← body.getMethod "error" .null with
  | .object raw => return (raw, [])
  | .null => return ([], [])
  | other => return ([], [("raw_error", other)])

def errorDetail (errorData malformed : Fields) : OJSErrorDetail :=
  let code := string (Fields.get errorData "code" .null) "unknown"
  let entry := catalogEntry code
  { code := code
    message := string (Fields.get errorData "message" .null)
      ((entry.map (·.message)).getD "Unknown error")
    retryable := match Fields.get errorData "retryable" .null with
      | .bool b => b
      | _ => (entry.map (·.retryable)).getD false
    details := Fields.update (details (Fields.get errorData "details" .null)) malformed
    requestId := match Fields.get errorData "request_id" .null with
      | .str s => some s
      | _ => none }

def errorClass (reader : TextReader) (statusCode : ℕ) (code : String) (headers : Headers) :
    ApiErrorClass :=
  let canonical := match catalogEntry code with
    | none => canonicalCode code
    | some entry => entry.canonicalCode
  if canonical = "DUPLICATE_JOB" then .duplicateJob
  else if canonical = "NOT_FOUND" then .jobNotFound
  else if canonical = "QUEUE_PAUSED" then .queuePaused
  else if canonical = "RATE_LIMITED" ∨ statusCode = 429 then
    let rateLimit := parseRateLimitHeaders reader headers
    .rateLimited (rateLimit.bind (·.retryAfter)) rateLimit
  else .apiError

def mapErrorResponse (reader : TextReader) (statusCode : ℕ) (body : Json) (headers : Headers) :
    Except Exn OJSAPIError := do
  let (errorData, malformed) ← errorPayload body
  let detail := errorDetail errorData malformed
  return ⟨errorClass reader statusCode detail.code headers, statusCode, detail⟩

def raiseForError (reader : TextReader) (statusCode : ℕ) (body : Json) (headers : Headers) : Exn :=
  match mapErrorResponse reader statusCode body headers with
  | .ok e => .api e
  | .error e => e

theorem errorPayload_object (fields : Fields) : ∃ p, errorPayload (.object fields) = .ok p := by
  simp only [errorPayload, Json.getMethod_object, ok_bind]
  cases Fields.get fields "error" .null <;> exact ⟨_, rfl⟩

theorem raiseForError_object (reader : TextReader) (statusCode : ℕ) {body : Json}
    (headers : Headers) (h : body.isMapping = true) :
    ∃ e, raiseForError reader statusCode body headers = .api e ∧ e.statusCode = statusCode := by
  obtain ⟨fields, rfl⟩ := Json.isMapping_iff.mp h
  obtain ⟨p, hp⟩ := errorPayload_object fields
  refine ⟨⟨errorClass reader statusCode (errorDetail p.1 p.2).code headers, statusCode,
    errorDetail p.1 p.2⟩, ?_, rfl⟩
  simp only [raiseForError, mapErrorResponse, hp, ok_bind]
  rfl

/-- A body that is not an object raises the interpreter's own exception. -/
theorem raiseForError_not_object (reader : TextReader) (statusCode : ℕ) {body : Json}
    (headers : Headers) (h : body.isMapping = false) :
    ∃ message, raiseForError reader statusCode body headers =
      .builtin .attributeError message := by
  obtain ⟨message, hm⟩ := Json.getMethod_not_mapping "error" .null h
  exact ⟨message, by simp only [raiseForError, mapErrorResponse, errorPayload, hm, error_bind]⟩

end OpenJobSpec.Errors
