import OpenJobSpec.Python.Json

/-! # The SDK's exception hierarchy

An exception is kept with the class that handlers branch on. Exceptions of the
HTTP client library keep their own class names, because the transport chooses
what to catch by class. Cancellation is not an `Exception` and is kept apart.
-/
namespace OpenJobSpec

structure OJSErrorDetail where
  code : String
  message : String
  retryable : Bool
  details : Fields
  requestId : Option String
deriving DecidableEq

structure RateLimitInfo where
  limit : Option ℤ
  remaining : Option ℤ
  reset : Option ℤ
  retryAfter : Option ℚ
deriving DecidableEq

inductive ApiErrorClass
  | apiError
  | duplicateJob
  | jobNotFound
  | queuePaused
  | rateLimited (retryAfter : Option ℚ) (rateLimit : Option RateLimitInfo)
deriving DecidableEq

structure OJSAPIError where
  cls : ApiErrorClass
  statusCode : ℕ
  error : OJSErrorDetail
deriving DecidableEq

/-- The classes of httpx's `RequestError` family, the abstract ones included. -/
inductive RequestErrorClass
  | requestError
  | transportError
  | timeoutException
  | connectTimeout
  | readTimeout
  | writeTimeout
  | poolTimeout
  | networkError
  | connectError
  | readError
  | writeError
  | closeError
  | protocolError
  | localProtocolError
  | remoteProtocolError
  | proxyError
  | unsupportedProtocol
  | decodingError
  | tooManyRedirects
deriving DecidableEq

namespace RequestErrorClass

/-- The immediate base class within the family. -/
def base : RequestErrorClass → Option RequestErrorClass
  | requestError => none
  | transportError => some requestError
  | timeoutException => some transportError
  | connectTimeout => some timeoutException
  | readTimeout => some timeoutException
  | writeTimeout => some timeoutException
  | poolTimeout => some timeoutException
  | networkError => some transportError
  | connectError => some networkError
  | readError => some networkError
  | writeError => some networkError
  | closeError => some networkError
  | protocolError => some transportError
  | localProtocolError => some protocolError
  | remoteProtocolError => some protocolError
  | proxyError => some transportError
  | unsupportedProtocol => some transportError
  | decodingError => some requestError
  | tooManyRedirects => some requestError

/-- `isinstance(error, target)`: no class is more than three bases below the root. -/
def isInstance (cls target : RequestErrorClass) : Bool :=
  cls = target || cls.base = some target || (cls.base.bind base) = some target
    || ((cls.base.bind base).bind base) = some target

end RequestErrorClass

/-- Exception classes of the language that the modelled code can raise. -/
inductive BuiltinClass
  | attributeError
  | indexError
  | keyError
  | overflowError
  | recursionError
  | runtimeError
  | typeError
  | valueError
deriving DecidableEq

/-- An instance of `Exception`. -/
inductive Exn
  | ojsError (message : String)
  | api (error : OJSAPIError)
  | connection (message : String)
  | timeout (message : String)
  | executionTimeout (message : String)
  | validation (message : String)
  | capability (message : String)
  | durableReplay (message : String)
  | request (cls : RequestErrorClass) (message : String)
  | builtin (cls : BuiltinClass) (message : String)
  | other (name message : String)
deriving DecidableEq

namespace Exn

/-- `isinstance(error, OJSError)`. -/
def isOJSError : Exn → Bool
  | ojsError _ | api _ | connection _ | timeout _ | executionTimeout _ | validation _
  | capability _ | durableReplay _ => true
  | request .. | builtin .. | other .. => false

end Exn

/-- `type(error).__name__`. -/
def ApiErrorClass.className : ApiErrorClass → String
  | apiError => "OJSAPIError"
  | duplicateJob => "DuplicateJobError"
  | jobNotFound => "JobNotFoundError"
  | queuePaused => "QueuePausedError"
  | rateLimited .. => "RateLimitedError"

def RequestErrorClass.className : RequestErrorClass → String
  | requestError => "RequestError"
  | transportError => "TransportError"
  | timeoutException => "TimeoutException"
  | connectTimeout => "ConnectTimeout"
  | readTimeout => "ReadTimeout"
  | writeTimeout => "WriteTimeout"
  | poolTimeout => "PoolTimeout"
  | networkError => "NetworkError"
  | connectError => "ConnectError"
  | readError => "ReadError"
  | writeError => "WriteError"
  | closeError => "CloseError"
  | protocolError => "ProtocolError"
  | localProtocolError => "LocalProtocolError"
  | remoteProtocolError => "RemoteProtocolError"
  | proxyError => "ProxyError"
  | unsupportedProtocol => "UnsupportedProtocol"
  | decodingError => "DecodingError"
  | tooManyRedirects => "TooManyRedirects"

def BuiltinClass.className : BuiltinClass → String
  | attributeError => "AttributeError"
  | indexError => "IndexError"
  | keyError => "KeyError"
  | overflowError => "OverflowError"
  | recursionError => "RecursionError"
  | runtimeError => "RuntimeError"
  | typeError => "TypeError"
  | valueError => "ValueError"

namespace Exn

def className : Exn → String
  | ojsError _ => "OJSError"
  | api e => e.cls.className
  | connection _ => "OJSConnectionError"
  | timeout _ => "OJSTimeoutError"
  | executionTimeout _ => "JobExecutionTimeout"
  | validation _ => "OJSValidationError"
  | capability _ => "OJSCapabilityError"
  | durableReplay _ => "DurableReplayError"
  | request cls _ => cls.className
  | builtin cls _ => cls.className
  | other name _ => name

/-- `str(error)`. -/
def message : Exn → String
  | ojsError m | connection m | timeout m | executionTimeout m | validation m
  | capability m | durableReplay m => m
  | api e =>
    "OJS API error " ++ toString e.statusCode ++ ": [" ++ e.error.code ++ "] " ++ e.error.message
  | request _ m | builtin _ m | other _ m => m

end Exn

inductive Raised
  | exception (error : Exn)
  | cancelled
deriving DecidableEq

end OpenJobSpec
