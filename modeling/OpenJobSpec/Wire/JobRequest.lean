import OpenJobSpec.Python.Access
import OpenJobSpec.Wire.Job

/-! # The enqueue request before the server assigns an id and a state -/
namespace OpenJobSpec

structure JobRequest where
  type : String
  args : List Json := []
  queue : String := "default"
  «meta» : Option Fields := none
  priority : ℤ := 0
  timeoutMs : Option ℤ := none
  delayUntil : Option String := none
  expiresAt : Option String := none
  retry : Option RetryPolicy := none
  unique : Option UniquePolicy := none
  tags : Option (List String) := none
  schema : Option String := none
deriving DecidableEq

/-- The entry of a key that is set only with a value. -/
def optionalEntry (key : String) (value : Option Json) : Fields :=
  (value.map fun found => (key, found)).toList

theorem lookup_optionalEntry (key : String) (value : Option Json) (name : String) :
    (optionalEntry key value).lookup name = if name = key then value else none := by
  unfold optionalEntry
  by_cases h : name = key
  · subst h
    cases value with
    | none => simp
    | some found => simp
  · cases value with
    | none => simp
    | some found => simp [h]

def Json.strings (texts : List String) : Json := .array (texts.map .str)

def RetryPolicy.toDict (policy : RetryPolicy) : Fields :=
  [("max_attempts", policy.maxAttempts), ("initial_interval", policy.initialInterval),
    ("backoff_coefficient", policy.backoffCoefficient), ("max_interval", policy.maxInterval),
    ("jitter", policy.jitter)]
    ++ optionalEntry "non_retryable_errors"
      (if policy.nonRetryableErrors.truthy then some policy.nonRetryableErrors else none)

def UniquePolicy.toDict (policy : UniquePolicy) : Fields :=
  [("on_conflict", .str policy.onConflict)]
    ++ optionalEntry "key" (if policy.keys = [] then none else some (.strings policy.keys))
    ++ optionalEntry "period" ((policy.period.filter (· ≠ "")).map .str)
    ++ optionalEntry "states" (if policy.states = [] then none else some (.strings policy.states))
    ++ optionalEntry "args_keys" (policy.argsKeys.map .strings)
    ++ optionalEntry "meta_keys" (policy.metaKeys.map .strings)

/-- The body of an enqueue request, whose last three members may be absent. -/
structure JobEnvelope where
  type : String
  args : List Json
  «meta» : Option Fields
  schema : Option String
  options : Option Fields
deriving DecidableEq

def JobEnvelope.toDict (body : JobEnvelope) : Fields :=
  [("type", .str body.type), ("args", .array body.args)]
    ++ optionalEntry "meta" (body.meta.map .object)
    ++ optionalEntry "schema" (body.schema.map .str)
    ++ optionalEntry "options" (body.options.map .object)

namespace JobRequest
variable (request : JobRequest)

def options : Fields :=
  optionalEntry "queue" (if request.queue = "default" then none else some (.str request.queue))
    ++ optionalEntry "priority"
      (if request.priority = 0 then none else some (.int request.priority))
    ++ optionalEntry "timeout_ms" (request.timeoutMs.map .int)
    ++ optionalEntry "delay_until" ((request.delayUntil.filter (· ≠ "")).map .str)
    ++ optionalEntry "expires_at" ((request.expiresAt.filter (· ≠ "")).map .str)
    ++ optionalEntry "retry" (request.retry.map fun policy => .object policy.toDict)
    ++ optionalEntry "unique" (request.unique.map fun policy => .object policy.toDict)
    ++ optionalEntry "tags" ((request.tags.filter (· ≠ [])).map .strings)

def envelope : JobEnvelope where
  type := request.type
  args := request.args
  «meta» := request.meta.filter (· ≠ [])
  schema := request.schema.filter (· ≠ "")
  options := if request.options = [] then none else some request.options

def toDict : Fields := request.envelope.toDict

end JobRequest

end OpenJobSpec
