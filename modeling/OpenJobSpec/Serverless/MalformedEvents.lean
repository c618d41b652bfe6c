import OpenJobSpec.Serverless.AzureFunctions

/-! # Which events cannot be retried for ever

An event that is malformed should end in the event error, which no entrypoint
retries. The checks of the event parser raise nothing else, but the job decoder
behind them raises a validation error for the fields they leave to it, and the
JSON reader and `repr` have failures of their own.
-/
namespace OpenJobSpec.Serverless
open ExceptRules OpenJobSpec.Field

variable {V : Type}

/-! ## What an event may hold -/

def isNonEmptyString : Option Json → Bool
  | some (.str s) => s ≠ ""
  | _ => false

def isStateName : Option Json → Bool
  | none => true
  | some value => (stateOf value).isSome

def isIntegerFrom (minimum : Option ℤ) : Option Json → Bool
  | none => true
  | some (.int n) => minimum.all fun low => low ≤ n
  | _ => false

/-- The fields checked before the state. -/
structure Identified (data : Fields) : Prop where
  id : isNonEmptyString (data.lookup "id")
  type : isNonEmptyString (data.lookup "type")
  args : isArray (data.lookup "args")
  «meta» : isObject (data.lookup "meta")

/-- The fields checked after the state. -/
structure Counted (data : Fields) : Prop where
  attempt : isIntegerFrom (some 0) (data.lookup "attempt")
  maxAttempts : isIntegerFrom (some 1) (data.lookup "max_attempts")
  priority : isIntegerFrom none (data.lookup "priority")

/-- A value that `repr` prints. -/
def Shown (text : JsonText) (value : Json) : Prop := ∃ shown, text.repr value = .ok shown

section Admissible
variable (text : JsonText) (reader : TextReader)

/-- A job that passes the checks of the parser also passes those of the decoder, and a state
that is refused can be printed. -/
structure JobAdmissible (data : Fields) : Prop where
  state : Identified data → isStateName (data.lookup "state") = false →
    Shown text (Fields.get data "state" .null)
  details : Identified data → isStateName (data.lookup "state") = true → Counted data →
    DetailsReadable reader data

def EnvelopeAdmissible : Json → Prop
  | .object envelope =>
    match Fields.get envelope "job" (.object envelope) with
    | .object data => JobAdmissible text reader data
    | _ => True
  | _ => True

def TextAdmissible (s : String) : Prop :=
  match text.loads s with
  | .ok value => EnvelopeAdmissible text reader value
  | .error .decodeError => True
  | .error (.builtin ..) => False

def ValueAdmissible : Json → Prop
  | .str s => TextAdmissible text reader s
  | value => EnvelopeAdmissible text reader value

def EventAdmissible : EventValue → Prop
  | .bytes body =>
    match String.fromUTF8? body with
    | some s => TextAdmissible text reader s
    | none => True
  | .json value => ValueAdmissible text reader value

end Admissible

/-! ## The checks of the parser -/

def IsEventError (e : Exn) : Prop := isServerlessEventError e = true

/-- Nothing but an event error comes out. -/
abbrev Closed {α : Type} (x : Except Exn α) : Prop := OnlyRaises IsEventError x

theorem eventError_isEventError (message : String) :
    IsEventError (serverlessEventError message) := by
  simp [IsEventError, isServerlessEventError, serverlessEventError]

section Closed
variable {α β : Type} {P Q : Prop} {x : Except Exn α} {f : α → Except Exn β}

theorem closed_bind (hx : Decides IsEventError P x) (hf : ∀ a, x = .ok a → (Closed (f a) ↔ Q)) :
    Closed (x >>= f) ↔ (P → Q) := by
  cases x with
  | error e =>
    refine ⟨fun _ hP => ?_, fun _ e' he' => ?_⟩
    · obtain ⟨a, ha⟩ := hx.ok_iff.mpr hP
      cases ha
    · cases he'
      exact hx.error e rfl
  | ok a =>
    have hP : P := hx.ok_iff.mp ⟨a, rfl⟩
    exact (hf a rfl).trans ⟨fun hQ _ => hQ, fun h => h hP⟩

/-- A validation error is no event error, so a decoder is closed only where it succeeds. -/
theorem closed_of_decides (hx : Decides IsValidation P x) : Closed x ↔ P := by
  rw [← hx.ok_iff]
  cases x with
  | error e =>
    obtain ⟨message, rfl⟩ := hx.error e rfl
    simp [OnlyRaises, IsEventError, isServerlessEventError]
  | ok a => simp [OnlyRaises]

end Closed

section Checks
variable (data : Fields)

theorem nonEmptyString_decides (message field : String) :
    Decides IsEventError (isNonEmptyString (data.lookup field))
      (nonEmptyString message (Fields.get data field .null)) := by
  unfold Fields.get
  rcases data.lookup field with _ | (_ | _ | _ | _ | s | _ | _)
  case some.str =>
    by_cases hs : s = ""
    · subst hs
      exact (Decides.raise (eventError_isEventError _)).congr (by simp [isNonEmptyString])
    · simp only [Option.getD_some, nonEmptyString, hs, if_false]
      exact (Decides.ok _).congr (by simp [isNonEmptyString, hs])
  all_goals
    exact (Decides.raise (eventError_isEventError _)).congr (by simp [isNonEmptyString])

theorem eventArgs_decides :
    Decides IsEventError (isArray (data.lookup "args"))
      (eventArgs (Fields.get data "args" (.array []))) := by
  unfold Fields.get
  rcases data.lookup "args" with _ | (_ | _ | _ | _ | _ | _ | _)
  case none | some.array => exact (Decides.ok _).congr (by simp [isArray])
  all_goals exact (Decides.raise (eventError_isEventError _)).congr (by simp [isArray])

theorem eventMeta_decides :
    Decides IsEventError (isObject (data.lookup "meta"))
      (eventMeta (Fields.get data "meta" (.object []))) := by
  unfold Fields.get
  rcases data.lookup "meta" with _ | (_ | _ | _ | _ | _ | _ | _)
  case none | some.object => exact (Decides.ok _).congr (by simp [isObject])
  all_goals exact (Decides.raise (eventError_isEventError _)).congr (by simp [isObject])

theorem atLeast_decides (name : String) (minimum : Option ℤ) (n : ℤ) :
    Decides IsEventError (minimum.all fun low => low ≤ n) (atLeast name minimum n) := by
  unfold atLeast
  cases minimum with
  | none => exact (Decides.ok n).congr (by simp)
  | some low =>
    by_cases hn : n < low
    · simp only [if_pos hn]
      exact (Decides.raise (eventError_isEventError _)).congr (by simpa using hn)
    · simp only [if_neg hn]
      exact (Decides.ok n).congr (by simpa using hn)

theorem integerField_decides (name : String) (default : ℤ) (minimum : Option ℤ)
    (hdefault : minimum.all fun low => low ≤ default) :
    Decides IsEventError (isIntegerFrom minimum (data.lookup name))
      (integerField data name default minimum) := by
  unfold integerField Fields.get
  rcases data.lookup name with _ | (_ | _ | n | _ | _ | _ | _)
  case none => exact (atLeast_decides name minimum default).congr (iff_of_true hdefault rfl)
  case some.int => exact atLeast_decides name minimum n
  all_goals exact (Decides.raise (eventError_isEventError _)).congr (by simp [isIntegerFrom])

end Checks

/-! ## The job behind the checks -/

section Job
variable {text : JsonText} {reader : TextReader} {data : Fields}

/-- The entries that the checks put back into an event. -/
def normalizedEntries (id type : String) (state : JobState) (args : List Json) («meta» : Fields)
    (attempt maxAttempts priority : ℤ) : Fields := [
  ("id", .str id), ("type", .str type), ("state", .str state.value), ("args", .array args),
  ("meta", .object «meta»), ("attempt", .int attempt), ("max_attempts", .int maxAttempts),
  ("priority", .int priority)]

section Normalized
variable {id type : String} {state : JobState} {args : List Json} {«meta» : Fields}
  {attempt maxAttempts priority : ℤ}

theorem lookup_normalized (key : String) :
    (Fields.update data (normalizedEntries id type state args «meta» attempt maxAttempts
      priority)).lookup key =
      ((normalizedEntries id type state args «meta» attempt maxAttempts priority).lookup key).or
        (data.lookup key) := by
  exact Fields.lookup_update data (by simp [normalizedEntries]) key

theorem envelopeReadable_normalized :
    EnvelopeReadable (Fields.update data (normalizedEntries id type state args «meta» attempt
      maxAttempts priority)) := by
  constructor <;> rw [lookup_normalized] <;>
    simp [normalizedEntries, List.lookup_cons, isString, isState, isArray, isObject,
      isOptionalInteger]

theorem closed_fromDict_normalized :
    Closed (Job.fromDict reader (.object (Fields.update data (normalizedEntries id type state args
      «meta» attempt maxAttempts priority)))) ↔ DetailsReadable reader data := by
  rw [closed_of_decides (Job.fromDict_decides reader _), and_iff_right envelopeReadable_normalized]
  have hlookup : ∀ key ∈ detailKeys, data.lookup key = (Fields.update data (normalizedEntries id
      type state args «meta» attempt maxAttempts priority)).lookup key := by
    intro key hkey
    rw [lookup_normalized]
    simp only [detailKeys, List.mem_cons, List.not_mem_nil, or_false] at hkey
    rcases hkey with rfl | rfl | rfl | rfl | rfl | rfl | rfl | rfl | rfl | rfl | rfl | rfl <;> rfl
  exact ⟨fun h => h.of_lookup fun key hkey => (hlookup key hkey).symm,
    fun h => h.of_lookup hlookup⟩

end Normalized

theorem isStateName_iff :
    isStateName (data.lookup "state") =
      (stateOf (Fields.get data "state" (.str JobState.active.value))).isSome := by
  unfold Fields.get
  cases data.lookup "state" <;> rfl

/-- A refused state is reported by the event error when it can be printed. -/
theorem closed_state_bind {α : Type} {f : JobState → Except Exn α} {Q : Prop}
    (hf : ∀ state, Closed (f state) ↔ Q) :
    Closed (normalizedState text (Fields.get data "state" (.str JobState.active.value)) >>= f) ↔
      (isStateName (data.lookup "state") = false → Shown text (Fields.get data "state" .null)) ∧
        (isStateName (data.lookup "state") = true → Q) := by
  rw [isStateName_iff]
  cases hstate : stateOf (Fields.get data "state" (.str JobState.active.value)) with
  | some state =>
    rw [normalizedState, hstate]
    simpa using hf state
  | none =>
    have hvalue : Fields.get data "state" (.str JobState.active.value) =
        Fields.get data "state" .null := by
      unfold Fields.get at hstate ⊢
      cases hfound : data.lookup "state" with
      | none =>
        rw [hfound] at hstate
        cases hstate
      | some value => rfl
    rw [normalizedState, hstate, ← hvalue]
    simp only [Option.isSome_none, true_implies, Bool.false_eq_true, false_implies, and_true, Shown]
    cases hrepr : text.repr (Fields.get data "state" (.str JobState.active.value)) with
    | ok shown => simp [OnlyRaises, eventError_isEventError]
    | error failure => simp [OnlyRaises, IsEventError, isServerlessEventError]

theorem parseJobEvent_closed_iff :
    Closed (parseJobEvent text reader data) ↔ JobAdmissible text reader data := by
  unfold parseJobEvent normalizeEvent
  simp only [bind_assoc, ok_bind]
  have hattempt := integerField_decides data "attempt" 1 (some 0) rfl
  have hmax := integerField_decides data "max_attempts" 3 (some 1) rfl
  have hpriority := integerField_decides data "priority" 0 none rfl
  refine (closed_bind (nonEmptyString_decides data _ "id") fun _ _ =>
    closed_bind (nonEmptyString_decides data _ "type") fun _ _ =>
    closed_bind (eventArgs_decides data) fun _ _ =>
    closed_bind (eventMeta_decides data) fun _ _ =>
    closed_state_bind fun _ =>
    closed_bind hattempt fun _ _ =>
    closed_bind hmax fun _ _ =>
    closed_bind hpriority fun _ _ =>
    closed_fromDict_normalized).trans ?_
  constructor
  · intro h
    exact ⟨fun hi => (h hi.id hi.type hi.args hi.meta).1, fun hi hs hc =>
      (h hi.id hi.type hi.args hi.meta).2 hs hc.attempt hc.maxAttempts hc.priority⟩
  · intro h hid htype hargs hmeta
    exact ⟨h.state ⟨hid, htype, hargs, hmeta⟩, fun hs hattempt hmax hpriority =>
      h.details ⟨hid, htype, hargs, hmeta⟩ hs ⟨hattempt, hmax, hpriority⟩⟩

end Job

/-! ## The event around the job -/

section Event
variable (text : JsonText) (reader : TextReader)

theorem extractJobEvent_closed_iff (envelope : Fields) :
    Closed (extractJobEvent text reader envelope) ↔
      EnvelopeAdmissible text reader (.object envelope) := by
  unfold extractJobEvent
  dsimp only [EnvelopeAdmissible]
  cases Fields.get envelope "job" (.object envelope) with
  | object data => exact parseJobEvent_closed_iff
  | null | bool _ | int _ | float _ | str _ | array _ =>
    simp [jobValue, OnlyRaises, eventError_isEventError]

theorem closed_object (value : Json) :
    Closed (eventObject value >>= extractJobEvent text reader) ↔
      EnvelopeAdmissible text reader value := by
  cases value with
  | object envelope => exact extractJobEvent_closed_iff text reader envelope
  | null | bool _ | int _ | float _ | str _ | array _ =>
    simp [eventObject, EnvelopeAdmissible, OnlyRaises, eventError_isEventError]

theorem closed_text (s : String) :
    Closed (loadBody text (.str s) >>= fun value =>
      eventObject value >>= extractJobEvent text reader) ↔ TextAdmissible text reader s := by
  unfold loadBody TextAdmissible
  dsimp only
  rcases text.loads s with (_ | ⟨cls, message⟩) | value
  · simp [OnlyRaises, eventError_isEventError]
  · simp [OnlyRaises, IsEventError, isServerlessEventError]
  · exact closed_object text reader value

/-- Reading an event ends in a job or in the event error exactly on the admissible ones. -/
theorem readEvent_closed_iff (v : EventValue) :
    Closed (readEvent text reader v) ↔ EventAdmissible text reader v := by
  unfold readEvent decodeEvent
  simp only [bind_assoc]
  cases v with
  | bytes body =>
    unfold eventBody EventAdmissible
    dsimp only
    cases String.fromUTF8? body with
    | none => simp [OnlyRaises, eventError_isEventError]
    | some s => exact closed_text text reader s
  | json value =>
    cases value with
    | str s => exact closed_text text reader s
    | null => exact closed_object text reader .null
    | bool b => exact closed_object text reader (.bool b)
    | int n => exact closed_object text reader (.int n)
    | float x => exact closed_object text reader (.float x)
    | array xs => exact closed_object text reader (.array xs)
    | object fields => exact closed_object text reader (.object fields)

end Event

/-! ## What else reading an event raises -/

/-- The event error, the decoder's validation error, or an exception of the interpreter. -/
def IsReadFailure (e : Exn) : Prop :=
  IsEventError e ∨ IsValidation e ∨ ∃ cls message, e = .builtin cls message

section Failures
variable {text : JsonText} {reader : TextReader}

theorem onlyRaises_eventError {α : Type} (message : String) :
    OnlyRaises IsReadFailure (.error (serverlessEventError message) : Except Exn α) := by
  intro e he
  cases he
  exact .inl (eventError_isEventError message)

theorem onlyRaises_builtin {α : Type} (cls : BuiltinClass) (message : String) :
    OnlyRaises IsReadFailure (.error (.builtin cls message) : Except Exn α) := by
  intro e he
  cases he
  exact .inr (.inr ⟨cls, message, rfl⟩)

theorem onlyRaises_ok {α : Type} (a : α) : OnlyRaises IsReadFailure (.ok a : Except Exn α) := by
  intro e he
  cases he

theorem onlyRaises_of_decides {α : Type} {P : Prop} {x : Except Exn α}
    (h : Decides IsEventError P x) : OnlyRaises IsReadFailure x :=
  h.error.mono fun _ => .inl

theorem normalizedState_onlyRaises (value : Json) :
    OnlyRaises IsReadFailure (normalizedState text value) := by
  unfold normalizedState
  split
  · exact onlyRaises_ok _
  · split
    · exact onlyRaises_eventError _
    · exact onlyRaises_builtin _ _

theorem parseJobEvent_onlyRaises (data : Fields) :
    OnlyRaises IsReadFailure (parseJobEvent text reader data) := by
  have hattempt := integerField_decides data "attempt" 1 (some 0) rfl
  have hmax := integerField_decides data "max_attempts" 3 (some 1) rfl
  have hpriority := integerField_decides data "priority" 0 none rfl
  refine OnlyRaises.bind ?_ fun normalized =>
    (Job.fromDict_decides reader normalized).error.mono fun _ h => .inr (.inl h)
  exact (onlyRaises_of_decides (nonEmptyString_decides data _ "id")).bind fun _ =>
    (onlyRaises_of_decides (nonEmptyString_decides data _ "type")).bind fun _ =>
    (onlyRaises_of_decides (eventArgs_decides data)).bind fun _ =>
    (onlyRaises_of_decides (eventMeta_decides data)).bind fun _ =>
    (normalizedState_onlyRaises _).bind fun _ =>
    (onlyRaises_of_decides hattempt).bind fun _ =>
    (onlyRaises_of_decides hmax).bind fun _ =>
    (onlyRaises_of_decides hpriority).bind fun _ => onlyRaises_ok _

theorem readEvent_onlyRaises (v : EventValue) :
    OnlyRaises IsReadFailure (readEvent text reader v) := by
  have hbody : OnlyRaises IsReadFailure (eventBody v) := by
    unfold eventBody
    repeat' split
    all_goals first | exact onlyRaises_ok _ | exact onlyRaises_eventError _
  have hload : ∀ value, OnlyRaises IsReadFailure (loadBody text value) := by
    intro value
    unfold loadBody
    repeat' split
    all_goals
      first
      | exact onlyRaises_ok _
      | exact onlyRaises_eventError _
      | exact onlyRaises_builtin _ _
  have hobject : ∀ value, OnlyRaises IsReadFailure (eventObject value) := by
    intro value
    unfold eventObject
    split
    · exact onlyRaises_ok _
    · exact onlyRaises_eventError _
  have hjob : ∀ value, OnlyRaises IsReadFailure (jobValue value) := by
    intro value
    unfold jobValue
    split
    · exact onlyRaises_ok _
    · exact onlyRaises_eventError _
  exact (hbody.bind fun body => (hload body).bind hobject).bind fun envelope =>
    (hjob _).bind parseJobEvent_onlyRaises

end Failures

/-! ## What the entrypoints make of it -/

/-- No job can be read, so no handler is invoked. -/
def Malformed (job : Except Exn Job) : Prop := ∀ found, job ≠ .ok found

/-- The queue trigger returns, so the message is completed. -/
def Completes (run : EntryRun V (Except (QueueFailure V) (Option V))) : Prop :=
  ∃ result, run.answer = .ok result

/-- The answer is status 400 with the code of an invalid request, which is not retryable. -/
def AnswersInvalidRequest (run : EntryRun V (Except Raised (HttpResponse V))) : Prop :=
  ∃ response outcome error, run.answer = .ok response ∧ response.statusCode = 400 ∧
    response.body = .outcome outcome ∧ outcome.error = some error ∧
    Fields.get error "code" .null = .str "invalid_request" ∧
    Fields.get error "retryable" .null = .bool false

section Entrypoints
variable {job : Except Exn Job}

/-- A read failure is either the event error, which is not retried, or a handler error. -/
theorem IsReadFailure.failureCode_cases {e : Exn} (h : IsReadFailure e) :
    (IsEventError e ∧ failureCode e = ("invalid_request", false)) ∨
      (¬ IsEventError e ∧ failureCode e = ("handler_error", true)) := by
  rcases h with h | ⟨message, rfl⟩ | ⟨cls, message, rfl⟩
  · left
    refine ⟨h, ?_⟩
    cases e <;> simp [IsEventError, isServerlessEventError] at h
    simp [failureCode, h]
  · exact .inr ⟨by simp [IsEventError, isServerlessEventError], rfl⟩
  · exact .inr ⟨by simp [IsEventError, isServerlessEventError], rfl⟩

/-- A rule for any entrypoint that answers a malformed event as `good` where the failure is the
event error and not otherwise. -/
theorem malformed_iff {good : Prop} (hraises : OnlyRaises IsReadFailure job)
    (hgood : ∀ e, job = .error e → (good ↔ failureCode e = ("invalid_request", false))) :
    (Malformed job → good) ↔ Closed job := by
  cases job with
  | ok found =>
    refine iff_of_true (fun h => absurd rfl (h found)) ?_
    intro e he
    cases he
  | error e =>
    have hmalformed : Malformed (.error e : Except Exn Job) := fun _ h => by cases h
    have hclosed : Closed (.error e : Except Exn Job) ↔ IsEventError e := by
      simp [OnlyRaises]
    rw [hclosed]
    rcases (hraises e rfl).failureCode_cases with ⟨he, hcode⟩ | ⟨he, hcode⟩
    · exact iff_of_true (fun _ => (hgood e rfl).mpr hcode) he
    · refine iff_of_false (fun h => ?_) he
      have hbad := (hgood e rfl).mp (h hmalformed)
      simp [hcode] at hbad

theorem completes_iff {adapter : Adapter V} {v : EventValue} {world : InvocationWorld V} {e : Exn}
    (h : readEvent adapter.text adapter.reader v = .error e) (he : IsReadFailure e) :
    Completes (handleQueueMessage adapter v world) ↔
      failureCode e = ("invalid_request", false) := by
  simp only [Completes, handleQueueMessage, h, resolveQueueTriggerOutcome,
    InvocationOutcome.retryable, failedOutcome, errorFields]
  rcases he.failureCode_cases with ⟨_, hcode⟩ | ⟨_, hcode⟩ <;>
    simp [hcode, Fields.get, List.lookup_cons]

theorem answersInvalidRequest_iff {e : Exn} (he : IsReadFailure e) (handled : List HandlerCall)
    (calls : List (Worker.CompletionCall (Option V))) :
    AnswersInvalidRequest (⟨handled, calls, (.ok (httpResponse (failedOutcome "" e)))⟩ :
        EntryRun V (Except Raised (HttpResponse V))) ↔
      failureCode e = ("invalid_request", false) := by
  rcases he.failureCode_cases with ⟨_, hcode⟩ | ⟨_, hcode⟩
  · refine iff_of_true ?_ hcode
    refine ⟨_, _, _, rfl, ?_, rfl, rfl, ?_, ?_⟩ <;>
      simp [httpResponse, isInvalidRequest, failedOutcome, errorFields, hcode, Fields.get,
        List.lookup_cons]
  · refine iff_of_false ?_ (by simp [hcode])
    rintro ⟨response, outcome, error, hresponse, hstatus, _⟩
    cases hresponse
    simp [httpResponse, isInvalidRequest, failedOutcome, errorFields, hcode, Fields.get] at hstatus

theorem handleHttp_malformed {adapter : Adapter V} {event : Fields} {world : InvocationWorld V}
    {e : Exn} (hmethod : Text.upper (httpMethod event) = "POST")
    (h : readEvent adapter.text adapter.reader (httpBody event) = .error e) :
    handleHttp adapter event world = ⟨[], [], .ok (httpResponse (failedOutcome "" e))⟩ := by
  simp only [handleHttp, hmethod, ne_eq, not_true_eq_false, if_false, h, invokeEvent]
  rfl

theorem handleHttpRequest_malformed {adapter : Adapter V} {req : HttpRequest}
    {world : InvocationWorld V} {e : Exn} (hmethod : methodRefused req.method = false)
    (h : readRequest adapter req = .error e) :
    handleHttpRequest adapter req world = ⟨[], [], .ok (httpResponse (failedOutcome "" e))⟩ := by
  simp only [handleHttpRequest, hmethod, Bool.false_eq_true, if_false, h, invokeEvent]
  rfl

/-- The body of a request is what its own parser returns; its `ValueError` is an event error. -/
def RequestAdmissible (text : JsonText) (reader : TextReader) (req : HttpRequest) : Prop :=
  match req.getJson with
  | .ok value => ValueAdmissible text reader value
  | .error (cls, _) => cls = .valueError

theorem readRequest_onlyRaises (adapter : Adapter V) (req : HttpRequest) :
    OnlyRaises IsReadFailure (readRequest adapter req) := by
  refine OnlyRaises.bind ?_ fun value => readEvent_onlyRaises _
  unfold parseHttpRequestJson
  split
  · exact onlyRaises_ok _
  · split
    · exact onlyRaises_eventError _
    · exact onlyRaises_builtin _ _

theorem readRequest_closed_iff (adapter : Adapter V) (req : HttpRequest) :
    Closed (readRequest adapter req) ↔ RequestAdmissible adapter.text adapter.reader req := by
  unfold readRequest parseHttpRequestJson RequestAdmissible
  rcases req.getJson with ⟨cls, message⟩ | value
  · by_cases hcls : cls = .valueError
    · simp [hcls, OnlyRaises, eventError_isEventError]
    · simp [hcls, OnlyRaises, IsEventError, isServerlessEventError]
  · exact readEvent_closed_iff adapter.text adapter.reader (.json value)

end Entrypoints

/-- An event that cannot be read ends in the event error, completes its queue message and is
answered as an invalid request, exactly where nothing that the parser leaves to the decoder is
ill typed and the interpreter can load the text and print a refused state. -/
theorem malformed_events_iff (adapter : Adapter V) (world : InvocationWorld V) :
    (∀ v, Closed (readEvent adapter.text adapter.reader v) ↔
      EventAdmissible adapter.text adapter.reader v) ∧
    (∀ v, (Malformed (readEvent adapter.text adapter.reader v) →
        Completes (handleQueueMessage adapter v world)) ↔
      EventAdmissible adapter.text adapter.reader v) ∧
    (∀ event, Text.upper (httpMethod event) = "POST" →
      ((Malformed (readEvent adapter.text adapter.reader (httpBody event)) →
          AnswersInvalidRequest (handleHttp adapter event world)) ↔
        EventAdmissible adapter.text adapter.reader (httpBody event))) ∧
    (∀ req, methodRefused req.method = false →
      ((Malformed (readRequest adapter req) →
          AnswersInvalidRequest (handleHttpRequest adapter req world)) ↔
        RequestAdmissible adapter.text adapter.reader req)) := by
  refine ⟨readEvent_closed_iff _ _, fun v => ?_, fun event hmethod => ?_, fun req hmethod => ?_⟩
  · rw [← readEvent_closed_iff]
    refine malformed_iff (readEvent_onlyRaises v) fun e he => ?_
    exact completes_iff he (readEvent_onlyRaises v e he)
  · rw [← readEvent_closed_iff]
    refine malformed_iff (readEvent_onlyRaises _) fun e he => ?_
    rw [handleHttp_malformed hmethod he]
    exact answersInvalidRequest_iff (readEvent_onlyRaises _ e he) [] []
  · rw [← readRequest_closed_iff]
    refine malformed_iff (readRequest_onlyRaises adapter req) fun e he => ?_
    rw [handleHttpRequest_malformed hmethod he]
    exact answersInvalidRequest_iff (readRequest_onlyRaises adapter req e he) [] []

/-! ## A tag list that is no list -/

def untaggedFields : Fields := [("id", .str "job-1"), ("type", .str "task.run"), ("tags", .str "x")]

def untaggedText : String :=
  "\x7b\"id\": \"job-1\", \"type\": \"task.run\", \"tags\": \"x\"\x7d"

/-- Readers that know the one text above, and no timestamp. -/
def plainAdapter : Adapter Unit where
  text := {
    loads := fun s =>
      if s = untaggedText then .ok (.object untaggedFields) else .error .decodeError
    repr := fun value => .ok value.typeName }
  reader := ⟨fun _ => none, fun _ => none, fun _ => none, fun _ => none, 0⟩
  bridge := ⟨fun _ => false, false, fun _ => .ok "null"⟩

def idleWorld : InvocationWorld Unit where
  handled := .ok none
  script := ⟨List.replicate 3 ⟨.ok (), .ok ()⟩, by simp⟩

def untaggedEvent : Fields := [("httpMethod", .str "POST"), ("body", .str untaggedText)]

def brokenEvent : Fields := [("httpMethod", .str "POST"), ("body", .str "\x7b")]

def untaggedRequest : HttpRequest := ⟨some "POST", .ok (.object untaggedFields)⟩

def brokenRequest : HttpRequest := ⟨some "POST", .error (.valueError, "Expecting value")⟩

/-- Text that is not JSON is admissible, and is answered as an invalid request. -/
theorem brokenEvent_answers :
    Text.upper (httpMethod brokenEvent) = "POST" ∧ methodRefused brokenRequest.method = false ∧
      EventAdmissible plainAdapter.text plainAdapter.reader (httpBody brokenEvent) ∧
      Completes (handleQueueMessage plainAdapter (httpBody brokenEvent) idleWorld) ∧
      AnswersInvalidRequest (handleHttp plainAdapter brokenEvent idleWorld) ∧
      AnswersInvalidRequest (handleHttpRequest plainAdapter brokenRequest idleWorld) := by
  obtain ⟨hclosed, hqueue, hhttp, hrequest⟩ := malformed_events_iff plainAdapter idleWorld
  have hmethod : Text.upper (httpMethod brokenEvent) = "POST" := by decide +kernel
  have hallowed : methodRefused brokenRequest.method = false := by decide +kernel
  have hread : ∀ found, readEvent plainAdapter.text plainAdapter.reader (httpBody brokenEvent) ≠
      .ok found := by
    intro found h
    cases h
  have hrequested : ∀ found, readRequest plainAdapter brokenRequest ≠ .ok found := by
    intro found h
    cases h
  have hadmissible : EventAdmissible plainAdapter.text plainAdapter.reader
      (httpBody brokenEvent) := trivial
  exact ⟨hmethod, hallowed, hadmissible, (hqueue _).mpr hadmissible hread,
    (hhttp _ hmethod).mpr hadmissible hread, (hrequest _ hallowed).mpr rfl hrequested⟩

/-- A job whose tags are a string passes the checks of the parser and is refused by the decoder:
the message is delivered again for ever, and the request is answered as a failed handler. -/
theorem untaggedEvent_retried :
    ¬ Closed (readEvent plainAdapter.text plainAdapter.reader (httpBody untaggedEvent)) ∧
      Malformed (readEvent plainAdapter.text plainAdapter.reader (httpBody untaggedEvent)) ∧
      ¬ Completes (handleQueueMessage plainAdapter (httpBody untaggedEvent) idleWorld) ∧
      ¬ AnswersInvalidRequest (handleHttp plainAdapter untaggedEvent idleWorld) ∧
      ¬ AnswersInvalidRequest (handleHttpRequest plainAdapter untaggedRequest idleWorld) := by
  have hread : readEvent plainAdapter.text plainAdapter.reader (httpBody untaggedEvent) =
      .error (WireDecoder.invalid "job.tags" "array" (.str "x")) := rfl
  have hrequest : readRequest plainAdapter untaggedRequest =
      .error (WireDecoder.invalid "job.tags" "array" (.str "x")) := rfl
  have hfailure : IsReadFailure (WireDecoder.invalid "job.tags" "array" (.str "x")) :=
    .inr (.inl ⟨_, rfl⟩)
  have hcode : failureCode (WireDecoder.invalid "job.tags" "array" (.str "x")) ≠
      ("invalid_request", false) := by
    simp [failureCode, WireDecoder.invalid]
  refine ⟨fun h => ?_, fun found h => ?_, ?_, ?_, ?_⟩
  · cases h _ hread
  · cases hread.symm.trans h
  · rwa [completes_iff hread hfailure]
  · rwa [handleHttp_malformed (by decide +kernel) hread, answersInvalidRequest_iff hfailure]
  · rwa [handleHttpRequest_malformed (by decide +kernel) hrequest,
      answersInvalidRequest_iff hfailure]

end OpenJobSpec.Serverless
