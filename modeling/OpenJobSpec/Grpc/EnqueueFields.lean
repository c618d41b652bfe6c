import OpenJobSpec.Grpc.EnqueueProjection
import OpenJobSpec.Python.DecimalText
import OpenJobSpec.Python.Equality
import OpenJobSpec.Wire.DecoderClosure

/-! # What the enqueue message holds for each field of a request

An optional field of the request is an optional entry of the message, so a
lookup in the message is read off the request.
-/
namespace OpenJobSpec.Grpc
open ExceptRules

/-! ## Values under names of their own -/

/-- The text of a number of milliseconds. -/
def timeoutText (milliseconds : ℤ) : Json :=
  .str (decimalDuration (Decimal.rounded ⟨milliseconds.toNat, -3⟩))

def durationText (duration : IsoDuration) : Json := .str (decimalDuration duration.total)

/-- The duration that a text holds. -/
def durationOf (digit : Char → Option ℕ) : Json → Option IsoDuration
  | .str text => parseIsoDuration digit text
  | _ => none

/-- A text that is set. -/
def nonEmpty (text : Option String) : Option String := text.filter (· ≠ "")

/-- The instant at which a request expires. -/
def expiryOf (clock : Clock) (request : JobRequest) : Option ℤ :=
  (nonEmpty request.expiresAt).bind fun text =>
    clock.instant (WireDecoder.normalizeTimestamp text)

/-- `max(0, expires_at - now)` in microseconds. -/
def remainingLifetime (clock : Clock) (now : ℤ) (request : JobRequest) : Option ℕ :=
  (expiryOf clock request).map fun expiry => (expiry - now).toNat

/-! ## Each piece is an optional entry -/

theorem checked_eq (accepts : Json → Bool) (key : String) (value : Json) :
    checked accepts key value = optionalEntry key (if accepts value then some value else none) := by
  unfold checked optionalEntry
  split <;> rfl

/-- A member that passes its check whenever it is there. -/
theorem checked_get {accepts : Json → Bool} (hnull : accepts .null = false) {fields : Fields}
    {key : String} {value : Option Json} (hlookup : fields.lookup key = value)
    (h : ∀ found ∈ value, accepts found = true) :
    checked accepts key (Fields.get fields key .null) = optionalEntry key value := by
  rw [checked_eq, Fields.get, hlookup]
  cases value with
  | none => simp [hnull]
  | some found => simp [h found rfl]

theorem millisecondsEntry_ok {key : String} {value : Json} {fields : Fields}
    (h : millisecondsEntry key value = .ok fields) :
    fields = optionalEntry key ((asInteger value).map timeoutText) ∧
      ∀ milliseconds ∈ asInteger value, 0 ≤ milliseconds := by
  unfold millisecondsEntry at h
  cases hvalue : asInteger value with
  | none =>
    rw [hvalue] at h
    cases h
    exact ⟨rfl, by simp⟩
  | some milliseconds =>
    rw [hvalue] at h
    obtain ⟨duration, hduration, h⟩ := bind_eq_ok.mp h
    cases h
    unfold millisecondsToDuration at hduration
    split at hduration
    next => cases hduration
    next hnonneg =>
      cases hduration
      exact ⟨rfl, by simpa using hnonneg⟩

variable {runtime : ProjectionRuntime}

theorem isoEntry_ok {key : String} {value : Json} {fields : Fields}
    (h : isoEntry runtime key value = .ok fields) :
    fields = optionalEntry key ((durationOf runtime.digit value).map durationText) := by
  unfold isoEntry at h
  cases value with
  | str text =>
    obtain ⟨duration, hduration, h⟩ := bind_eq_ok.mp h
    cases h
    unfold isoDurationToProtobuf at hduration
    unfold durationOf
    dsimp only
    cases hparse : parseIsoDuration runtime.digit text with
    | none =>
      rw [hparse] at hduration
      cases hduration
    | some parsed =>
      rw [hparse] at hduration
      cases hduration
      rfl
  | null | bool _ | int _ | float _ | array _ | object _ =>
    cases h
    rfl

/-- What a time to live is printed as. -/
def lifetimeText (clock : Clock) (microseconds : ℕ) : Json :=
  .str (decimalDuration (secondsDecimal clock microseconds))

theorem expiryEntry_ok {now : ℤ} {text : Option String} {fields : Fields}
    (h : expiryEntry runtime now ((text.map Json.str).getD .null) = .ok fields) :
    fields = optionalEntry "ttl" ((text.bind fun expires =>
      runtime.clock.instant (WireDecoder.normalizeTimestamp expires)).map fun expiry =>
        lifetimeText runtime.clock (expiry - now).toNat) := by
  cases text with
  | none =>
    cases h
    rfl
  | some expires =>
    obtain ⟨ttl, httl, h⟩ := bind_eq_ok.mp h
    cases h
    unfold expiryToTtl at httl
    dsimp only at httl
    rw [Option.bind_some]
    cases hinstant : runtime.clock.instant (WireDecoder.normalizeTimestamp expires) with
    | none =>
      rw [hinstant] at httl
      cases httl
    | some expiry =>
      rw [hinstant] at httl
      cases httl
      rfl

/-! ## Retry policies -/

/-- What the message holds of a retry policy. -/
structure RetryFields (digit : Char → Option ℕ) (policy : RetryPolicy) (projected : Fields) :
    Prop where
  maxAttempts : projected.lookup "max_attempts" = some policy.maxAttempts
  initialInterval :
    projected.lookup "initial_interval" = (durationOf digit policy.initialInterval).map durationText
  maxInterval :
    projected.lookup "max_interval" = (durationOf digit policy.maxInterval).map durationText
  backoffCoefficient : projected.lookup "backoff_coefficient" = some policy.backoffCoefficient
  jitter : projected.lookup "jitter" = some policy.jitter
  nonRetryableErrors : projected.lookup "non_retryable_errors" =
    if policy.nonRetryableErrors.truthy then some policy.nonRetryableErrors else none

open OpenJobSpec.Field in
theorem isInt_of_isInteger {value : Json} (h : isInteger (some value)) : isInt value = true := by
  cases value <;> first | rfl | cases h

open OpenJobSpec.Field in
theorem isNumber_of_isFloat {value : Json} (h : isFloat (some value)) : isNumber value = true := by
  cases value <;> first | rfl | cases h

open OpenJobSpec.Field in
theorem isBool_of_isBoolean {value : Json} (h : isBoolean (some value)) : isBool value = true := by
  cases value <;> first | rfl | cases h

open OpenJobSpec.Field in
theorem isList_of_isStringArray {value : Json} (h : isStringArray (some value)) :
    isList value = true := by
  cases value <;> first | rfl | cases h

theorem encodeRetry_ok {policy : RetryPolicy} (htyped : policy.Typed) {projected : Fields}
    (h : encodeRetry runtime policy.toDict = .ok projected) :
    RetryFields runtime.digit policy projected := by
  have hattempts := isInt_of_isInteger htyped.maxAttempts
  have hcoefficient := isNumber_of_isFloat htyped.backoffCoefficient
  have hjitter := isBool_of_isBoolean htyped.jitter
  have herrors := isList_of_isStringArray htyped.nonRetryableErrors
  obtain ⟨initial, hinitial, h⟩ := bind_eq_ok.mp h
  obtain ⟨longest, hlongest, h⟩ := bind_eq_ok.mp h
  cases h
  rw [isoEntry_ok hinitial, isoEntry_ok hlongest]
  have herrorsEntry : checked isList "non_retryable_errors"
      (Fields.get policy.toDict "non_retryable_errors" .null) = optionalEntry "non_retryable_errors"
        (if policy.nonRetryableErrors.truthy then some policy.nonRetryableErrors else none) :=
    checked_get rfl (by simp [RetryPolicy.toDict, lookup_optionalEntry, List.lookup_cons])
      (by simpa using fun _ => herrors)
  rw [herrorsEntry]
  constructor
  all_goals
    simp [checked_eq, RetryPolicy.toDict, Fields.get, List.lookup_append, lookup_optionalEntry,
      List.lookup_cons, hattempts, hcoefficient, hjitter]

/-! ## Uniqueness policies -/

/-- What the message holds of a uniqueness policy. -/
structure UniqueFields (runtime : ProjectionRuntime) (policy : UniquePolicy)
    (projected : Fields) : Prop where
  key : projected.lookup "key" = if policy.keys = [] then none else some (.strings policy.keys)
  argsKeys : projected.lookup "args_keys" = policy.argsKeys.map .strings
  metaKeys : projected.lookup "meta_keys" = policy.metaKeys.map .strings
  period : projected.lookup "period" =
    ((nonEmpty policy.period).bind (parseIsoDuration runtime.digit)).map durationText
  states : projected.lookup "states" = if policy.states = [] then none
    else some (.strings (policy.states.map fun state => "JOB_STATE_" ++ Text.upper state))
  onConflict : projected.lookup "on_conflict" =
    (encodedConflictActions.lookup policy.onConflict).map .str
  onConflict_known : (encodedConflictActions.lookup policy.onConflict).isSome

theorem conflictEntry_ok {conflict : String} {fields : Fields}
    (h : conflictEntry (.str conflict) = .ok fields) :
    (encodedConflictActions.lookup conflict).isSome ∧
      fields = optionalEntry "on_conflict" ((encodedConflictActions.lookup conflict).map .str) := by
  unfold conflictEntry at h
  dsimp only at h
  cases haction : encodedConflictActions.lookup conflict with
  | none =>
    rw [haction] at h
    cases h
  | some action =>
    rw [haction] at h
    cases h
    exact ⟨rfl, rfl⟩

theorem statesEntry_set (states : List String) :
    statesEntry runtime ((if states = [] then none else some (.strings states)).getD .null) =
      optionalEntry "states" (if states = [] then none
        else some (.strings (states.map fun state => "JOB_STATE_" ++ Text.upper state))) := by
  by_cases hempty : states = []
  · simp [hempty, statesEntry, optionalEntry]
  · simp only [hempty, if_false, Option.getD_some]
    unfold statesEntry Json.strings optionalEntry
    dsimp only
    rw [List.map_map, List.map_map]
    rfl

theorem durationOf_text (digit : Char → Option ℕ) (text : Option String) :
    durationOf digit ((text.map Json.str).getD .null) = text.bind (parseIsoDuration digit) := by
  cases text <;> rfl

theorem encodeUnique_ok {policy : UniquePolicy} {projected : Fields}
    (h : encodeUnique runtime policy.toDict = .ok projected) :
    UniqueFields runtime policy projected := by
  obtain ⟨period, hperiod, h⟩ := bind_eq_ok.mp h
  obtain ⟨conflict, hconflict, h⟩ := bind_eq_ok.mp h
  cases h
  have hlist : ∀ texts, isList (.strings texts) = true := fun _ => rfl
  have hkeys : checked isList "key" (Fields.get policy.toDict "key" .null) = optionalEntry "key"
      (if policy.keys = [] then none else some (.strings policy.keys)) :=
    checked_get rfl (by simp [UniquePolicy.toDict, List.lookup_append, List.lookup_cons,
      lookup_optionalEntry])
      (by simpa using fun _ => hlist _)
  have hargsKeys : checked isList "args_keys" (Fields.get policy.toDict "args_keys" .null) =
      optionalEntry "args_keys" (policy.argsKeys.map .strings) :=
    checked_get rfl (by simp [UniquePolicy.toDict, List.lookup_append, List.lookup_cons,
      lookup_optionalEntry])
      (by simpa using fun _ _ => hlist _)
  have hmetaKeys : checked isList "meta_keys" (Fields.get policy.toDict "meta_keys" .null) =
      optionalEntry "meta_keys" (policy.metaKeys.map .strings) :=
    checked_get rfl (by simp [UniquePolicy.toDict, List.lookup_append, List.lookup_cons,
      lookup_optionalEntry])
      (by simpa using fun _ _ => hlist _)
  have hgetPeriod : Fields.get policy.toDict "period" .null =
      ((nonEmpty policy.period).map Json.str).getD .null := by
    simp [Fields.get, UniquePolicy.toDict, List.lookup_append, List.lookup_cons,
      lookup_optionalEntry, nonEmpty]
  have hgetStates : Fields.get policy.toDict "states" .null =
      (if policy.states = [] then none else some (.strings policy.states)).getD .null := by
    simp [Fields.get, UniquePolicy.toDict, List.lookup_append, List.lookup_cons,
      lookup_optionalEntry]
  rw [hgetPeriod] at hperiod
  obtain ⟨hknown, rfl⟩ := conflictEntry_ok hconflict
  rw [hkeys, hargsKeys, hmetaKeys, hgetStates, isoEntry_ok hperiod, durationOf_text,
    statesEntry_set]
  constructor
  case onConflict_known => exact hknown
  all_goals simp [List.lookup_append, lookup_optionalEntry]

/-! ## Options -/

/-- What the options of the message hold of a request. -/
structure RequestFields (runtime : ProjectionRuntime) (now : ℤ) (request : JobRequest)
    (options : Fields) : Prop where
  queue : options.lookup "queue" =
    if request.queue = "default" then none else some (.str request.queue)
  priority : options.lookup "priority" =
    if request.priority = 0 then none else some (.int request.priority)
  delayUntil : options.lookup "delay_until" = (nonEmpty request.delayUntil).map .str
  timeout : options.lookup "timeout" = request.timeoutMs.map timeoutText
  timeout_nonneg : ∀ milliseconds ∈ request.timeoutMs, 0 ≤ milliseconds
  ttl : options.lookup "ttl" =
    (remainingLifetime runtime.clock now request).map (lifetimeText runtime.clock)
  retry : Option.Rel (fun policy value => ∃ projected, value = .object projected ∧
      RetryFields runtime.digit policy projected) request.retry (options.lookup "retry")
  unique : Option.Rel (fun policy value => ∃ projected, value = .object projected ∧
      UniqueFields runtime policy projected) request.unique (options.lookup "unique")
  tags : options.lookup "tags" = (request.tags.filter (· ≠ [])).map .strings
  «meta» : options.lookup "meta" = (request.meta.filter (· ≠ [])).map .object

theorem retryEntry_ok {policy : Option RetryPolicy} (htyped : ∀ p ∈ policy, p.Typed)
    {fields : Fields}
    (h : retryEntry runtime ((policy.map fun p => Json.object p.toDict).getD .null) = .ok fields) :
    ∃ value attempts,
      fields = optionalEntry "retry" value ++ optionalEntry "max_attempts" attempts ∧
      Option.Rel (fun p value => ∃ projected, value = .object projected ∧
        RetryFields runtime.digit p projected) policy value := by
  cases policy with
  | none =>
    cases h
    exact ⟨none, none, rfl, .none⟩
  | some p =>
    obtain ⟨projected, hprojected, h⟩ := bind_eq_ok.mp h
    cases h
    rw [checked_eq]
    exact ⟨some (.object projected), _, rfl,
      .some ⟨projected, rfl, encodeRetry_ok (htyped p rfl) hprojected⟩⟩

theorem uniqueEntry_ok {policy : Option UniquePolicy} {fields : Fields}
    (h : uniqueEntry runtime ((policy.map fun p => Json.object p.toDict).getD .null) = .ok fields) :
    ∃ value, fields = optionalEntry "unique" value ∧
      Option.Rel (fun p value => ∃ projected, value = .object projected ∧
        UniqueFields runtime p projected) policy value := by
  cases policy with
  | none =>
    cases h
    exact ⟨none, rfl, .none⟩
  | some p =>
    obtain ⟨projected, hprojected, h⟩ := bind_eq_ok.mp h
    cases h
    exact ⟨some (.object projected), rfl, .some ⟨projected, rfl, encodeUnique_ok hprojected⟩⟩

theorem metaEntry_eq («meta» : Option Fields) :
    ∃ trace, metaEntry ((«meta».map Json.object).getD .null) =
      optionalEntry "meta" («meta».map .object) ++ optionalEntry "trace_id" trace := by
  cases «meta» with
  | none => exact ⟨none, rfl⟩
  | some fields =>
    refine ⟨_, congrArg ([("meta", Json.object fields)] ++ ·) (checked_eq ..)⟩

theorem encodeOptions_ok {now : ℤ} {request : JobRequest} (hqueue : request.queue ≠ "")
    (htyped : ∀ policy ∈ request.retry, policy.Typed) {options : Fields}
    (h : encodeOptions runtime now request.toDict request.options = .ok options) :
    RequestFields runtime now request options := by
  obtain ⟨timeout, htimeout, h⟩ := bind_eq_ok.mp h
  obtain ⟨ttl, httl, h⟩ := bind_eq_ok.mp h
  obtain ⟨retry, hretry, h⟩ := bind_eq_ok.mp h
  obtain ⟨unique, hunique, h⟩ := bind_eq_ok.mp h
  obtain ⟨visibility, hvisibility, h⟩ := bind_eq_ok.mp h
  have hoptions := Except.ok.inj h
  have hgetTimeout : Fields.get request.options "timeout_ms" .null =
      (request.timeoutMs.map Json.int).getD .null := by
    simp [Fields.get, JobRequest.options, List.lookup_append, lookup_optionalEntry]
  have hgetExpiry : Fields.get request.options "expires_at" .null =
      ((nonEmpty request.expiresAt).map Json.str).getD .null := by
    simp [Fields.get, JobRequest.options, List.lookup_append, lookup_optionalEntry, nonEmpty]
  have hgetRetry : Fields.get request.options "retry" .null =
      (request.retry.map fun p => Json.object p.toDict).getD .null := by
    simp [Fields.get, JobRequest.options, List.lookup_append, lookup_optionalEntry]
  have hgetUnique : Fields.get request.options "unique" .null =
      (request.unique.map fun p => Json.object p.toDict).getD .null := by
    simp [Fields.get, JobRequest.options, List.lookup_append, lookup_optionalEntry]
  have hgetVisibility : Fields.get request.options "visibility_timeout_ms" .null = .null := by
    simp [Fields.get, JobRequest.options, List.lookup_append, lookup_optionalEntry]
  have hgetMeta : Fields.get request.toDict "meta" .null =
      ((request.meta.filter (· ≠ [])).map Json.object).getD .null := by
    simp [Fields.get, JobRequest.toDict, JobRequest.envelope, JobEnvelope.toDict,
      List.lookup_append, List.lookup_cons, lookup_optionalEntry]
  have hbody : ∀ key ∈ ["queue", "priority", "tags"],
      Fields.get request.toDict key .null = .null := by
    simp [Fields.get, JobRequest.toDict, JobRequest.envelope, JobEnvelope.toDict,
      List.lookup_append, List.lookup_cons, lookup_optionalEntry]
  have hqueueEntry : checked isName "queue" (Fields.get request.options "queue" .null) =
      optionalEntry "queue"
        (if request.queue = "default" then none else some (.str request.queue)) :=
    checked_get rfl (by simp [JobRequest.options, List.lookup_append, lookup_optionalEntry])
      (by simpa [isName] using fun _ => hqueue)
  have hpriorityEntry : checked isInt "priority" (Fields.get request.options "priority" .null) =
      optionalEntry "priority"
        (if request.priority = 0 then none else some (.int request.priority)) :=
    checked_get rfl (by simp [JobRequest.options, List.lookup_append, lookup_optionalEntry])
      (by simp [isInt, asInteger])
  have hdelayEntry : checked isText "delay_until" (Fields.get request.options "delay_until" .null) =
      optionalEntry "delay_until" ((nonEmpty request.delayUntil).map .str) :=
    checked_get rfl
      (by simp [JobRequest.options, List.lookup_append, lookup_optionalEntry, nonEmpty])
      (by simp [isText])
  have htagsEntry : checked isList "tags" (Fields.get request.options "tags" .null) =
      optionalEntry "tags" ((request.tags.filter (· ≠ [])).map .strings) :=
    checked_get rfl (by simp [JobRequest.options, List.lookup_append, lookup_optionalEntry])
      (by
        rintro _ hfound
        obtain ⟨texts, -, rfl⟩ := Option.mem_map.mp hfound
        rfl)
  rw [hgetTimeout] at htimeout
  rw [hgetExpiry] at httl
  rw [hgetRetry] at hretry
  rw [hgetUnique] at hunique
  rw [hgetVisibility] at hvisibility
  obtain ⟨htimeoutEntry, hnonneg⟩ := millisecondsEntry_ok htimeout
  obtain ⟨retryValue, attempts, hretryEntry, hretryFields⟩ := retryEntry_ok htyped hretry
  obtain ⟨uniqueValue, huniqueEntry, huniqueFields⟩ := uniqueEntry_ok hunique
  obtain ⟨trace, hmetaEntry⟩ := metaEntry_eq (request.meta.filter (· ≠ []))
  obtain ⟨hvisibilityEntry, -⟩ := millisecondsEntry_ok hvisibility
  have hmilliseconds : asInteger ((request.timeoutMs.map Json.int).getD .null) =
      request.timeoutMs := by
    cases request.timeoutMs <;> rfl
  rw [hmilliseconds] at htimeoutEntry hnonneg
  rw [← hoptions, hbody "queue" (by simp), hbody "priority" (by simp), hbody "tags" (by simp),
    hgetMeta, hqueueEntry, hpriorityEntry, hdelayEntry, htagsEntry, htimeoutEntry,
    expiryEntry_ok httl, hretryEntry, huniqueEntry, hmetaEntry, hvisibilityEntry]
  constructor
  case timeout_nonneg => exact hnonneg
  case retry => simpa [List.lookup_append, lookup_optionalEntry] using hretryFields
  case unique => simpa [List.lookup_append, lookup_optionalEntry] using huniqueFields
  case ttl =>
    simp [List.lookup_append, lookup_optionalEntry, remainingLifetime, expiryOf, Function.comp_def]
  all_goals simp [List.lookup_append, lookup_optionalEntry]

/-! ## Requests -/

theorem sourceOptions_toDict (request : JobRequest) :
    sourceOptions request.toDict = .ok request.options := by
  have hget : Fields.get request.toDict "options" .null =
      (if request.options = [] then none else some (.object request.options)).getD .null := by
    simp [Fields.get, JobRequest.toDict, JobRequest.envelope, JobEnvelope.toDict,
      List.lookup_append, List.lookup_cons, lookup_optionalEntry, apply_ite]
  unfold sourceOptions
  rw [hget]
  by_cases hempty : request.options = []
  · simp [hempty]
  · simp [hempty]

theorem encodeEnqueue_ok {now : ℤ} {request : JobRequest} (hqueue : request.queue ≠ "")
    (htyped : ∀ policy ∈ request.retry, policy.Typed) {message : Fields}
    (h : encodeEnqueue runtime now request.toDict = .ok message) :
    ∃ options, RequestFields runtime now request options ∧
      message = [("type", .str request.type), ("args", .array request.args)]
        ++ if options = [] then [] else [("options", .object options)] := by
  obtain ⟨jobType, hjobType, h⟩ := bind_eq_ok.mp h
  obtain ⟨args, hargs, h⟩ := bind_eq_ok.mp h
  obtain ⟨_, _, h⟩ := bind_eq_ok.mp h
  obtain ⟨source, hsource, h⟩ := bind_eq_ok.mp h
  obtain ⟨options, hoptions, h⟩ := bind_eq_ok.mp h
  have hmessage := Except.ok.inj h
  have htype : jobType = request.type := by
    unfold enqueueType at hjobType
    rw [show Fields.get request.toDict "type" .null = .str request.type from rfl] at hjobType
    dsimp only at hjobType
    split at hjobType <;> cases hjobType
    rfl
  have hargsEq : args = request.args := by
    unfold enqueueArgs at hargs
    rw [show Fields.get request.toDict "args" (.array []) = .array request.args from rfl] at hargs
    cases hargs
    rfl
  rw [sourceOptions_toDict] at hsource
  cases hsource
  exact ⟨options, encodeOptions_ok hqueue htyped hoptions, by rw [← hmessage, htype, hargsEq]⟩

/-- The message has no place for a schema, so a request with one is refused. -/
theorem encodeEnqueue_schema (now : ℤ) {request : JobRequest} {schema : String}
    (htype : request.type ≠ "") (hschema : request.schema = some schema) (hne : schema ≠ "") :
    encodeEnqueue runtime now request.toDict = .error (.capability
      ("The canonical OJS v1 gRPC EnqueueRequest has no schema field. " ++
        "Use HTTP transport for schema-validated enqueue operations.")) := by
  have hgetSchema : Fields.get request.toDict "schema" .null = .str schema := by
    simp [Fields.get, JobRequest.toDict, JobRequest.envelope, JobEnvelope.toDict,
      List.lookup_append, List.lookup_cons, lookup_optionalEntry, hschema, hne, Option.filter]
  have hjobType : enqueueType request.toDict = .ok request.type := by
    unfold enqueueType
    rw [show Fields.get request.toDict "type" .null = .str request.type from rfl]
    exact if_neg htype
  have hargs : enqueueArgs request.toDict = .ok request.args := rfl
  have hrefuse : refuseSchema request.toDict = .error (.capability
      ("The canonical OJS v1 gRPC EnqueueRequest has no schema field. " ++
        "Use HTTP transport for schema-validated enqueue operations.")) := by
    unfold refuseSchema
    rw [hgetSchema]
    exact if_neg (by simp)
  unfold encodeEnqueue projectEnqueue
  rw [hjobType, hargs, hrefuse]
  rfl

end OpenJobSpec.Grpc
