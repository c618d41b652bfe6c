import Mathlib.Data.Nat.Notation

/-! # The OJS error catalog

Every entry pairs the numeric identifier of an error with its wire code, its
HTTP status, its default text and its default retryability. Client-side errors
have an empty wire code, so they are only found by their numeric identifier.
-/
namespace OpenJobSpec.Errors

structure ErrorCodeEntry where
  code : String
  name : String
  canonicalCode : String
  httpStatus : ℕ
  message : String
  retryable : Bool
deriving DecidableEq

/-! ## OJS-1xxx -/

def invalidPayload : ErrorCodeEntry :=
  ⟨"OJS-1000", "InvalidPayload", "INVALID_PAYLOAD", 400,
    "Job envelope fails structural validation", false⟩
def invalidJobType : ErrorCodeEntry :=
  ⟨"OJS-1001", "InvalidJobType", "INVALID_JOB_TYPE", 400,
    "Job type is not registered or does not match the allowlist", false⟩
def invalidQueue : ErrorCodeEntry :=
  ⟨"OJS-1002", "InvalidQueue", "INVALID_QUEUE", 400,
    "Queue name is invalid or does not match naming rules", false⟩
def invalidArgs : ErrorCodeEntry :=
  ⟨"OJS-1003", "InvalidArgs", "INVALID_ARGS", 400,
    "Job args fail type checking or schema validation", false⟩
def invalidMetadata : ErrorCodeEntry :=
  ⟨"OJS-1004", "InvalidMetadata", "INVALID_METADATA", 400,
    "Metadata field is malformed or exceeds the 64 KB size limit", false⟩
def invalidStateTransition : ErrorCodeEntry :=
  ⟨"OJS-1005", "InvalidStateTransition", "INVALID_STATE_TRANSITION", 409,
    "Attempted an invalid lifecycle state change", false⟩
def invalidRetryPolicy : ErrorCodeEntry :=
  ⟨"OJS-1006", "InvalidRetryPolicy", "INVALID_RETRY_POLICY", 400,
    "Retry policy configuration is invalid", false⟩
def invalidCronExpression : ErrorCodeEntry :=
  ⟨"OJS-1007", "InvalidCronExpression", "INVALID_CRON_EXPRESSION", 400,
    "Cron expression syntax cannot be parsed", false⟩
def schemaValidationFailed : ErrorCodeEntry :=
  ⟨"OJS-1008", "SchemaValidationFailed", "SCHEMA_VALIDATION_FAILED", 422,
    "Job args do not conform to the registered schema", false⟩
def payloadTooLarge : ErrorCodeEntry :=
  ⟨"OJS-1009", "PayloadTooLarge", "PAYLOAD_TOO_LARGE", 413,
    "Job envelope exceeds the server's maximum payload size", false⟩
def metadataTooLarge : ErrorCodeEntry :=
  ⟨"OJS-1010", "MetadataTooLarge", "METADATA_TOO_LARGE", 413,
    "Metadata field exceeds the 64 KB limit", false⟩
def connectionError : ErrorCodeEntry :=
  ⟨"OJS-1011", "ConnectionError", "", 0, "Could not establish a connection to the OJS server", true⟩
def requestTimeout : ErrorCodeEntry :=
  ⟨"OJS-1012", "RequestTimeout", "", 0, "HTTP request to the OJS server timed out", true⟩
def serializationError : ErrorCodeEntry :=
  ⟨"OJS-1013", "SerializationError", "", 0,
    "Failed to serialize the request or deserialize the response", false⟩
def queueNameTooLong : ErrorCodeEntry :=
  ⟨"OJS-1014", "QueueNameTooLong", "QUEUE_NAME_TOO_LONG", 400,
    "Queue name exceeds the 255-byte maximum length", false⟩
def jobTypeTooLong : ErrorCodeEntry :=
  ⟨"OJS-1015", "JobTypeTooLong", "JOB_TYPE_TOO_LONG", 400,
    "Job type exceeds the 255-byte maximum length", false⟩
def checksumMismatch : ErrorCodeEntry :=
  ⟨"OJS-1016", "ChecksumMismatch", "CHECKSUM_MISMATCH", 400,
    "External payload reference checksum verification failed", false⟩
def unsupportedCompression : ErrorCodeEntry :=
  ⟨"OJS-1017", "UnsupportedCompression", "UNSUPPORTED_COMPRESSION", 400,
    "The specified compression codec is not supported", false⟩

/-! ## OJS-2xxx -/

def backendError : ErrorCodeEntry :=
  ⟨"OJS-2000", "BackendError", "BACKEND_ERROR", 500,
    "Internal backend storage or transport failure", true⟩
def backendUnavailable : ErrorCodeEntry :=
  ⟨"OJS-2001", "BackendUnavailable", "BACKEND_UNAVAILABLE", 503,
    "Backend storage system is unreachable", true⟩
def backendTimeout : ErrorCodeEntry :=
  ⟨"OJS-2002", "BackendTimeout", "BACKEND_TIMEOUT", 504, "Backend operation timed out", true⟩
def replicationLag : ErrorCodeEntry :=
  ⟨"OJS-2003", "ReplicationLag", "REPLICATION_LAG", 500,
    "Operation failed due to replication consistency issue", true⟩
def internalServerError : ErrorCodeEntry :=
  ⟨"OJS-2004", "InternalServerError", "", 500, "Unclassified internal server error", true⟩

/-! ## OJS-3xxx -/

def jobNotFound : ErrorCodeEntry :=
  ⟨"OJS-3000", "JobNotFound", "NOT_FOUND", 404,
    "The requested job, queue, or resource does not exist", false⟩
def duplicateJob : ErrorCodeEntry :=
  ⟨"OJS-3001", "DuplicateJob", "DUPLICATE_JOB", 409, "Unique job constraint was violated", false⟩
def jobAlreadyCompleted : ErrorCodeEntry :=
  ⟨"OJS-3002", "JobAlreadyCompleted", "JOB_ALREADY_COMPLETED", 409,
    "Operation attempted on a job that has already completed", false⟩
def jobAlreadyCancelled : ErrorCodeEntry :=
  ⟨"OJS-3003", "JobAlreadyCancelled", "JOB_ALREADY_CANCELLED", 409,
    "Operation attempted on a job that has already been cancelled", false⟩
def queuePaused : ErrorCodeEntry :=
  ⟨"OJS-3004", "QueuePaused", "QUEUE_PAUSED", 422,
    "The target queue is paused and not accepting new jobs", true⟩
def handlerError : ErrorCodeEntry :=
  ⟨"OJS-3005", "HandlerError", "HANDLER_ERROR", 0,
    "Job handler threw an exception during execution", true⟩
def handlerTimeout : ErrorCodeEntry :=
  ⟨"OJS-3006", "HandlerTimeout", "HANDLER_TIMEOUT", 0,
    "Job handler exceeded the configured execution timeout", true⟩
def handlerPanic : ErrorCodeEntry :=
  ⟨"OJS-3007", "HandlerPanic", "HANDLER_PANIC", 0,
    "Job handler caused an unrecoverable error", true⟩
def nonRetryableError : ErrorCodeEntry :=
  ⟨"OJS-3008", "NonRetryableError", "NON_RETRYABLE_ERROR", 0,
    "Error type matched non_retryable_errors in the retry policy", false⟩
def jobCancelled : ErrorCodeEntry :=
  ⟨"OJS-3009", "JobCancelled", "JOB_CANCELLED", 0,
    "Job was cancelled while it was executing", false⟩
def noHandlerRegistered : ErrorCodeEntry :=
  ⟨"OJS-3010", "NoHandlerRegistered", "", 0,
    "No handler is registered for the received job type", false⟩

/-! ## OJS-4xxx -/

def workflowNotFound : ErrorCodeEntry :=
  ⟨"OJS-4000", "WorkflowNotFound", "", 404, "The specified workflow does not exist", false⟩
def chainStepFailed : ErrorCodeEntry :=
  ⟨"OJS-4001", "ChainStepFailed", "", 422,
    "A step in a chain workflow failed, halting subsequent steps", false⟩
def groupTimeout : ErrorCodeEntry :=
  ⟨"OJS-4002", "GroupTimeout", "", 504,
    "A group workflow did not complete within the allowed timeout", true⟩
def dependencyFailed : ErrorCodeEntry :=
  ⟨"OJS-4003", "DependencyFailed", "", 422,
    "A required dependency job failed, preventing execution", false⟩
def cyclicDependency : ErrorCodeEntry :=
  ⟨"OJS-4004", "CyclicDependency", "", 400,
    "The workflow definition contains circular dependencies", false⟩
def batchCallbackFailed : ErrorCodeEntry :=
  ⟨"OJS-4005", "BatchCallbackFailed", "", 422, "The batch completion callback job failed", true⟩
def workflowCancelled : ErrorCodeEntry :=
  ⟨"OJS-4006", "WorkflowCancelled", "", 409, "The entire workflow was cancelled", false⟩

/-! ## OJS-5xxx -/

def unauthenticated : ErrorCodeEntry :=
  ⟨"OJS-5000", "Unauthenticated", "UNAUTHENTICATED", 401,
    "No authentication credentials provided or credentials are invalid", false⟩
def permissionDenied : ErrorCodeEntry :=
  ⟨"OJS-5001", "PermissionDenied", "PERMISSION_DENIED", 403,
    "Authenticated but lacks the required permission", false⟩
def tokenExpired : ErrorCodeEntry :=
  ⟨"OJS-5002", "TokenExpired", "TOKEN_EXPIRED", 401, "The authentication token has expired", false⟩
def tenantAccessDenied : ErrorCodeEntry :=
  ⟨"OJS-5003", "TenantAccessDenied", "TENANT_ACCESS_DENIED", 403,
    "Operation on a tenant the caller does not have access to", false⟩

/-! ## OJS-6xxx -/

def rateLimited : ErrorCodeEntry :=
  ⟨"OJS-6000", "RateLimited", "RATE_LIMITED", 429, "Rate limit exceeded", true⟩
def queueFull : ErrorCodeEntry :=
  ⟨"OJS-6001", "QueueFull", "QUEUE_FULL", 429,
    "The queue has reached its configured maximum depth", true⟩
def concurrencyLimited : ErrorCodeEntry :=
  ⟨"OJS-6002", "ConcurrencyLimited", "", 429, "The concurrency limit has been reached", true⟩
def backpressureApplied : ErrorCodeEntry :=
  ⟨"OJS-6003", "BackpressureApplied", "", 429, "The server is applying backpressure", true⟩

/-! ## OJS-7xxx -/

def unsupportedFeature : ErrorCodeEntry :=
  ⟨"OJS-7000", "UnsupportedFeature", "UNSUPPORTED_FEATURE", 422,
    "Feature requires a conformance level the backend does not support", false⟩
def cronScheduleConflict : ErrorCodeEntry :=
  ⟨"OJS-7001", "CronScheduleConflict", "", 409,
    "The cron schedule conflicts with an existing schedule", false⟩
def uniqueKeyInvalid : ErrorCodeEntry :=
  ⟨"OJS-7002", "UniqueKeyInvalid", "", 400,
    "The unique key specification is invalid or malformed", false⟩
def middlewareError : ErrorCodeEntry :=
  ⟨"OJS-7003", "MiddlewareError", "", 500, "An error occurred in the middleware chain", true⟩
def middlewareTimeout : ErrorCodeEntry :=
  ⟨"OJS-7004", "MiddlewareTimeout", "", 504,
    "A middleware handler exceeded its allowed execution time", true⟩

/-! ## Catalog utilities -/

def allErrorCodes : List ErrorCodeEntry := [
  invalidPayload, invalidJobType, invalidQueue, invalidArgs, invalidMetadata,
  invalidStateTransition, invalidRetryPolicy, invalidCronExpression, schemaValidationFailed,
  payloadTooLarge, metadataTooLarge, connectionError, requestTimeout, serializationError,
  queueNameTooLong, jobTypeTooLong, checksumMismatch, unsupportedCompression, backendError,
  backendUnavailable, backendTimeout, replicationLag, internalServerError, jobNotFound,
  duplicateJob, jobAlreadyCompleted, jobAlreadyCancelled, queuePaused, handlerError,
  handlerTimeout, handlerPanic, nonRetryableError, jobCancelled, noHandlerRegistered,
  workflowNotFound, chainStepFailed, groupTimeout, dependencyFailed, cyclicDependency,
  batchCallbackFailed, workflowCancelled, unauthenticated, permissionDenied, tokenExpired,
  tenantAccessDenied, rateLimited, queueFull, concurrencyLimited, backpressureApplied,
  unsupportedFeature, cronScheduleConflict, uniqueKeyInvalid, middlewareError, middlewareTimeout]

/-- A wire code finds its last entry, as a dictionary built in order does. -/
def lookupByCanonicalCode (canonicalCode : String) : Option ErrorCodeEntry :=
  (allErrorCodes.filter (fun e => e.canonicalCode ≠ "" ∧ e.canonicalCode = canonicalCode)).getLast?

def lookupByCode (code : String) : Option ErrorCodeEntry :=
  (allErrorCodes.filter (fun e => e.code = code)).getLast?

end OpenJobSpec.Errors
