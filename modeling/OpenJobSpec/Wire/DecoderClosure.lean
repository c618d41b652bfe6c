import OpenJobSpec.Wire.JobAcceptance
import OpenJobSpec.Wire.Queue
import OpenJobSpec.Wire.Workflow

/-! # What the wire decoders let through

The combinators of the decoder raise a validation error or return a value of the
type that they are named after. Two places leave them. A retry policy is copied
member by member without a check, and `float` has no value for an integer that
is out of its range.
-/
namespace OpenJobSpec
open ExceptRules OpenJobSpec.Field

namespace Field

def isInteger : Option Json → Bool
  | some (.int _) => true
  | _ => false

def isFloat : Option Json → Bool
  | some (.int _) | some (.float _) => true
  | _ => false

def isBoolean : Option Json → Bool
  | some (.bool _) => true
  | _ => false

/-- A key that is absent takes a default, which is of the right type. -/
def absentOr (check : Option Json → Bool) (field : Option Json) : Bool :=
  field.isNone || check field

/-- An integer out of the range of floats. -/
def isOverflow : Option Json → Bool
  | some (.int n) => floatOverflow ≤ n.natAbs
  | _ => false


end Field

/-! ## The declared types of a retry policy -/

/-- Each member holds a value of the type that its field declares. An integer is a float, as it
is for a type checker, and a boolean is no number, as it is for the decoder. -/
structure RetryPolicy.Typed (policy : RetryPolicy) : Prop where
  maxAttempts : isInteger (some policy.maxAttempts)
  initialInterval : isString (some policy.initialInterval)
  backoffCoefficient : isFloat (some policy.backoffCoefficient)
  maxInterval : isString (some policy.maxInterval)
  jitter : isBoolean (some policy.jitter)
  nonRetryableErrors : isStringArray (some policy.nonRetryableErrors)

/-- The members of a retry policy that `fields` holds. -/
structure RetryMembersTyped (fields : Fields) : Prop where
  maxAttempts : absentOr isInteger (fields.lookup "max_attempts")
  initialInterval : absentOr isString (fields.lookup "initial_interval")
  backoffCoefficient : absentOr isFloat (fields.lookup "backoff_coefficient")
  maxInterval : absentOr isString (fields.lookup "max_interval")
  jitter : absentOr isBoolean (fields.lookup "jitter")
  nonRetryableErrors : absentOr isStringArray (fields.lookup "non_retryable_errors")

theorem check_get_iff {check : Option Json → Bool} {default : Json}
    (hdefault : check (some default) = true) (fields : Fields) (key : String) :
    check (some (Fields.get fields key default)) = true ↔
      absentOr check (fields.lookup key) = true := by
  unfold Fields.get absentOr
  cases fields.lookup key with
  | none => simpa using hdefault
  | some value => simp

/-- A policy that was copied from the wire is typed when the members it was copied from are. -/
theorem RetryPolicy.fromDict_typed_iff (fields : Fields) :
    (RetryPolicy.fromDict fields).Typed ↔ RetryMembersTyped fields := by
  constructor
  · intro h
    exact ⟨(check_get_iff rfl ..).mp h.maxAttempts, (check_get_iff rfl ..).mp h.initialInterval,
      (check_get_iff rfl ..).mp h.backoffCoefficient, (check_get_iff rfl ..).mp h.maxInterval,
      (check_get_iff rfl ..).mp h.jitter, (check_get_iff rfl ..).mp h.nonRetryableErrors⟩
  · intro h
    exact ⟨(check_get_iff rfl ..).mpr h.maxAttempts, (check_get_iff rfl ..).mpr h.initialInterval,
      (check_get_iff rfl ..).mpr h.backoffCoefficient, (check_get_iff rfl ..).mpr h.maxInterval,
      (check_get_iff rfl ..).mpr h.jitter, (check_get_iff rfl ..).mpr h.nonRetryableErrors⟩

/-! ## Jobs -/

/-- Every field of a job has its declared type. The types of all but the policy are those of the
model. -/
def Job.Typed (job : Job) : Prop := ∀ policy ∈ job.retry, policy.Typed

namespace Job

/-- The object under a key, when there is one that is not empty. -/
def policyFields (field : Option Json) : Option Fields :=
  match field with
  | some (.object fields) => policyData (some fields)
  | _ => none

theorem policyData_of_optionalMapping {d : WireDecoder} {field : String} {data : Option Fields}
    (h : d.optionalMapping field = .ok data) :
    policyData data = policyFields (d.data.lookup field) := by
  unfold WireDecoder.optionalMapping WireDecoder.value Fields.get at h
  rcases hfield : d.data.lookup field with _ | (_ | _ | _ | _ | _ | _ | fields)
  all_goals
    rw [hfield] at h
    cases h
  all_goals rfl

/-- The policy of a decoded job is copied from the object under `retry`. -/
theorem fromDict_retry (reader : TextReader) (data : Fields) :
    Ends (fun _ => True)
      (fun job => job.retry = (policyFields (data.lookup "retry")).map RetryPolicy.fromDict)
      (fromDict reader (.object data)) := by
  have hraises {α : Type} (x : Except Exn α) : OnlyRaises (fun _ => True) x := fun _ _ => trivial
  rw [fromDict_eq]
  refine .bind (hraises _) fun retryData hdata => ?_
  iterate 19 refine .bind (hraises _) fun _ _ => ?_
  exact congrArg (Option.map RetryPolicy.fromDict) (policyData_of_optionalMapping hdata)

/-- The retry object of an envelope, which is read when everything else is as the decoder wants
it. -/
def RetryTyped (reader : TextReader) (data : Fields) : Prop :=
  EnvelopeReadable data ∧ DetailsReadable reader data →
    ∀ fields ∈ policyFields (data.lookup "retry"), RetryMembersTyped fields

theorem fromDict_ends_iff (reader : TextReader) (data : Fields) :
    Ends IsValidation Typed (fromDict reader (.object data)) ↔ RetryTyped reader data := by
  have hdecides := fromDict_decides reader data
  have hretry := fromDict_retry reader data
  unfold RetryTyped
  rw [← hdecides.ok_iff]
  cases hjob : fromDict reader (.object data) with
  | error e =>
    exact iff_of_true (hdecides.error e hjob) (by rintro ⟨job, hok⟩; cases hok)
  | ok job =>
    rw [hjob] at hretry
    have hpolicy : job.retry = (policyFields (data.lookup "retry")).map RetryPolicy.fromDict :=
      hretry
    change job.Typed ↔ _
    unfold Typed
    rw [hpolicy]
    simp [RetryPolicy.fromDict_typed_iff]

end Job

/-! ## Workflows and queues -/

theorem WorkflowStep.fromDecoder_raises (reader : TextReader) (d : WireDecoder) :
    OnlyRaises IsValidation (WorkflowStep.fromDecoder reader d) :=
  (d.requiredString_decides "id").error.bind fun _ =>
  (d.requiredString_decides "type").error.bind fun _ =>
  (d.array_decides "args" _).error.bind fun _ =>
  (d.stringArray_decides "depends_on" _).error.bind fun _ =>
  (d.optionalMapping_decides "options").error.bind fun _ =>
  (d.optionalMapping_decides "meta").error.bind fun _ =>
  (d.string_decides "schema" _).error.bind fun _ =>
  (d.string_decides "job_id" _).error.bind fun _ =>
  (d.string_decides "state" _).error.bind fun _ =>
  (d.datetime_decides "started_at" reader).error.bind fun _ =>
  (d.datetime_decides "completed_at" reader).error.bind fun _ =>
  ((d.optionalMapping_decides "error").map _).error

namespace Workflow

theorem stepEntries_raises (reader : TextReader) (index : ℕ) (entries : List Json) :
    OnlyRaises IsValidation (stepEntries reader index entries) := by
  induction entries generalizing index with
  | nil => exact .ok _
  | cons entry rest ih =>
    exact (WireDecoder.object_decides entry _).error.bind fun decoder =>
      (WorkflowStep.fromDecoder_raises reader decoder).bind fun _ =>
      (ih (index + 1)).bind fun _ => .ok _

theorem callbackEntries_raises (callbacks : Fields) :
    OnlyRaises IsValidation (callbackEntries callbacks) := by
  induction callbacks with
  | nil => exact .ok _
  | cons entry rest ih =>
    exact (WireDecoder.object_decides entry.2 _).error.bind fun _ => ih.bind fun _ => .ok _

theorem callbackObjects_raises (callbacks : Option Fields) :
    OnlyRaises IsValidation (callbackObjects callbacks) := by
  cases callbacks with
  | none => exact .ok _
  | some fields => exact (callbackEntries_raises fields).bind fun _ => .ok _

theorem fromDict_raises (reader : TextReader) (data : Json) :
    OnlyRaises IsValidation (fromDict reader data) :=
  (WireDecoder.object_decides data "workflow").error.bind fun d =>
  (d.array_decides "steps" _).error.bind fun entries =>
  (stepEntries_raises reader 0 entries).bind fun _ =>
  (d.optionalMapping_decides "callbacks").error.bind fun callbacks =>
  (callbackObjects_raises callbacks).bind fun _ =>
  (d.requiredString_decides "id").error.bind fun _ =>
  (d.requiredString_decides "name").error.bind fun _ =>
  (d.requiredString_decides "state").error.bind fun _ =>
  (d.datetime_decides "created_at" reader).error.bind fun _ =>
  (d.string_decides "type" _).error.bind fun _ =>
  (d.datetime_decides "completed_at" reader).error.bind fun _ =>
  (d.datetime_decides "cancelled_at" reader).error.bind fun _ =>
  (d.integer_decides "steps_total" _).error.bind fun _ =>
  (d.integer_decides "steps_completed" _).error.bind fun _ =>
  (d.integer_decides "jobs_total" _).error.bind fun _ =>
  (d.integer_decides "jobs_completed" _).error.bind fun _ =>
  (d.integer_decides "steps_cancelled" _).error.bind fun _ =>
  (d.integer_decides "steps_already_completed" _).error.bind fun _ =>
  ((d.optionalMapping_decides "error").map _).error

end Workflow

theorem Queue.fromDict_raises (reader : TextReader) (data : Json) :
    OnlyRaises IsValidation (Queue.fromDict reader data) :=
  (WireDecoder.object_decides data "queue").error.bind fun d =>
  (d.requiredString_decides "name").error.bind fun _ =>
  (d.string_decides "status" _).error.bind fun _ =>
  ((d.datetime_decides "created_at" reader).map _).error

/-! ## Statistics of a queue -/

namespace QueueStats
variable {β : Type} {Q : Prop}

/-- What follows a number is reached when the number is one, and a number out of range raises
what no caller expects. -/
theorem number_bind_raises_iff (d : WireDecoder) (field : String) (default : PyFloat)
    {f : PyFloat → Except Exn β} (hf : ∀ x, OnlyRaises IsValidation (f x) ↔ Q) :
    OnlyRaises IsValidation (d.number field default >>= f) ↔
      isOverflow (d.data.lookup field) = false ∧
        (absentOr isFloat (d.data.lookup field) = true → Q) := by
  unfold WireDecoder.number
  rcases d.data.lookup field with _ | (_ | _ | n | x | _ | _ | _)
  case none => simpa [isOverflow, absentOr] using hf default
  case some.float => simpa [isOverflow, absentOr, isFloat] using hf x
  case some.int =>
    by_cases hn : floatOverflow ≤ n.natAbs
    · have hraise : ¬ OnlyRaises IsValidation (PyFloat.ofInt n >>= f) := by
        intro h
        rw [PyFloat.ofInt, if_pos hn] at h
        obtain ⟨message, hmessage⟩ := h _ rfl
        cases hmessage
      simpa [isOverflow, hn] using hraise
    · have hok : ∃ x, PyFloat.ofInt n = .ok x := ⟨_, if_neg hn⟩
      obtain ⟨x, hx⟩ := hok
      dsimp only
      rw [hx]
      simpa [isOverflow, absentOr, isFloat, hn] using hf x
  all_goals
    refine ((Decides.raise (WireDecoder.invalid_isValidation ..)).onlyRaises_bind_iff hf).trans ?_
    simp [isOverflow, absentOr, isFloat]

/-- The averages in the order in which they are read. -/
def averages : List String := ["avg_duration_ms", "avg_wait_ms", "throughput_per_second"]

def counters : List String :=
  ["available", "active", "scheduled", "retryable", "discarded", "completed_last_hour",
    "failed_last_hour"]

/-- No integer out of range is among the numbers, up to the first one that is no number at all. -/
def Convertible (stats : Fields) : List String → Prop
  | [] => True
  | field :: rest => isOverflow (stats.lookup field) = false ∧
      (absentOr isFloat (stats.lookup field) = true → Convertible stats rest)

/-- The object that holds the numbers; when the key is absent it is empty. -/
def statsObject : Option Json → Option Fields
  | none => some []
  | some (.object stats) => some stats
  | _ => none

/-- What is read before the averages. -/
structure CountersReadable (data stats : Fields) : Prop where
  queue : isString (data.lookup "queue")
  status : isOptionalString (data.lookup "status")
  counters : ∀ counter ∈ counters, isOptionalInteger (stats.lookup counter)

/-- An object whose averages all become floats when they are read. -/
def AveragesConvertible (data : Fields) : Prop :=
  ∀ stats ∈ statsObject (data.lookup "stats"),
    CountersReadable data stats → Convertible stats averages

theorem object_statsObject (field : Option Json) (path : String) :
    (∃ stats, statsObject field = some stats ∧
      WireDecoder.object (field.getD (.object [])) path = .ok ⟨stats, path⟩) ∨
    (statsObject field = none ∧ ∃ e, IsValidation e ∧
      WireDecoder.object (field.getD (.object [])) path = .error e) := by
  rcases field with _ | (_ | _ | _ | _ | _ | _ | stats)
  case none => exact .inl ⟨[], rfl, rfl⟩
  case some.object => exact .inl ⟨stats, rfl, rfl⟩
  all_goals exact .inr ⟨rfl, _, WireDecoder.invalid_isValidation .., rfl⟩

theorem fromDict_stats (reader : TextReader) (data stats : Fields)
    (h : statsObject (data.lookup "stats") = some stats) :
    fromDict reader (.object data) = (do
      let d : WireDecoder := ⟨data, "queue_stats"⟩
      let s : WireDecoder := ⟨stats, "queue_stats.stats"⟩
      let queue ← d.requiredString "queue"
      let status ← d.string "status" (some "active")
      let available ← s.integer "available" (some 0)
      let active ← s.integer "active" (some 0)
      let scheduled ← s.integer "scheduled" (some 0)
      let retryable ← s.integer "retryable" (some 0)
      let discarded ← s.integer "discarded" (some 0)
      let completedLastHour ← s.integer "completed_last_hour" (some 0)
      let failedLastHour ← s.integer "failed_last_hour" (some 0)
      let avgDurationMs ← s.number "avg_duration_ms" (.finite 0)
      let avgWaitMs ← s.number "avg_wait_ms" (.finite 0)
      let throughputPerSecond ← s.number "throughput_per_second" (.finite 0)
      let computedAt ← d.datetime reader "computed_at"
      .ok {
        queue, avgDurationMs, avgWaitMs, throughputPerSecond, computedAt
        status := orElseString status "active"
        available := available.getD 0
        active := active.getD 0
        scheduled := scheduled.getD 0
        retryable := retryable.getD 0
        discarded := discarded.getD 0
        completedLastHour := completedLastHour.getD 0
        failedLastHour := failedLastHour.getD 0 }) := by
  obtain ⟨found, hfound, hobject⟩ | ⟨hnone, _⟩ :=
    object_statsObject (data.lookup "stats") "queue_stats.stats"
  case inr =>
    rw [hnone] at h
    cases h
  cases hfound.symm.trans h
  unfold fromDict WireDecoder.value Fields.get
  rw [WireDecoder.object, ok_bind]
  dsimp only
  rw [hobject, ok_bind]
  rfl

theorem fromDict_object_raises_iff (reader : TextReader) (data stats : Fields)
    (h : statsObject (data.lookup "stats") = some stats) :
    OnlyRaises IsValidation (fromDict reader (.object data)) ↔
      (CountersReadable data stats → Convertible stats averages) := by
  let d : WireDecoder := ⟨data, "queue_stats"⟩
  let s : WireDecoder := ⟨stats, "queue_stats.stats"⟩
  rw [fromDict_stats reader data stats h]
  refine ((d.requiredString_decides "queue").onlyRaises_bind_iff fun _ =>
    (d.string_decides "status" _).onlyRaises_bind_iff fun _ =>
    (s.integer_decides "available" _).onlyRaises_bind_iff fun _ =>
    (s.integer_decides "active" _).onlyRaises_bind_iff fun _ =>
    (s.integer_decides "scheduled" _).onlyRaises_bind_iff fun _ =>
    (s.integer_decides "retryable" _).onlyRaises_bind_iff fun _ =>
    (s.integer_decides "discarded" _).onlyRaises_bind_iff fun _ =>
    (s.integer_decides "completed_last_hour" _).onlyRaises_bind_iff fun _ =>
    (s.integer_decides "failed_last_hour" _).onlyRaises_bind_iff fun _ =>
    number_bind_raises_iff s "avg_duration_ms" _ fun _ =>
    number_bind_raises_iff s "avg_wait_ms" _ fun _ =>
    number_bind_raises_iff s "throughput_per_second" _ fun _ =>
    iff_true_intro ((d.datetime_decides "computed_at" reader).map _).error).trans ?_
  constructor
  · intro hall hread
    exact hall hread.queue hread.status (hread.counters _ (by decide))
      (hread.counters _ (by decide)) (hread.counters _ (by decide))
      (hread.counters _ (by decide)) (hread.counters _ (by decide))
      (hread.counters _ (by decide)) (hread.counters _ (by decide))
  · intro hall hqueue hstatus h1 h2 h3 h4 h5 h6 h7
    refine hall ⟨hqueue, hstatus, fun counter hcounter => ?_⟩
    simp only [counters, List.mem_cons, List.not_mem_nil, or_false] at hcounter
    rcases hcounter with rfl | rfl | rfl | rfl | rfl | rfl | rfl
    all_goals assumption

theorem fromDict_raises_iff (reader : TextReader) (data : Fields) :
    OnlyRaises IsValidation (fromDict reader (.object data)) ↔ AveragesConvertible data := by
  unfold AveragesConvertible
  obtain ⟨stats, hstats, _⟩ | ⟨hnone, e, he, hobject⟩ :=
    object_statsObject (data.lookup "stats") "queue_stats.stats"
  · rw [hstats]
    simpa using fromDict_object_raises_iff reader data stats hstats
  · have herror : fromDict reader (.object data) = .error e := by
      unfold fromDict WireDecoder.value Fields.get
      rw [WireDecoder.object, ok_bind]
      dsimp only
      rw [hobject]
      rfl
    rw [herror, hnone]
    exact iff_of_true (Decides.raise he).error nofun

end QueueStats

/-! ## The four decoders -/

/-- Each decoder returns an object with fields of their declared types, or raises a validation
error. Where the model's own types are the declared ones, only the exceptions are left to say. -/
structure DecodersClosed (reader : TextReader) (value : Json) : Prop where
  job : Ends IsValidation Job.Typed (Job.fromDict reader value)
  workflow : OnlyRaises IsValidation (Workflow.fromDict reader value)
  queue : OnlyRaises IsValidation (Queue.fromDict reader value)
  queueStats : OnlyRaises IsValidation (QueueStats.fromDict reader value)

/-- The two places that a value of the wire can get past. -/
structure PassesUncheckedPlaces (reader : TextReader) (data : Fields) : Prop where
  retry : Job.RetryTyped reader data
  averages : QueueStats.AveragesConvertible data

/-- The decoders are closed and typed on a value exactly when it is no object, or its retry policy
holds what a policy declares and its averages are in the range of floats. -/
theorem wire_decoders_closed_iff (reader : TextReader) (value : Json) :
    DecodersClosed reader value ↔
      ∀ data, value = .object data → PassesUncheckedPlaces reader data := by
  cases value with
  | object data =>
    constructor
    · intro h other hother
      cases hother
      exact ⟨(Job.fromDict_ends_iff reader _).mp h.job,
        (QueueStats.fromDict_raises_iff reader _).mp h.queueStats⟩
    · intro h
      obtain ⟨hretry, haverages⟩ := h data rfl
      exact ⟨(Job.fromDict_ends_iff reader data).mpr hretry,
        Workflow.fromDict_raises reader _, Queue.fromDict_raises reader _,
        (QueueStats.fromDict_raises_iff reader data).mpr haverages⟩
  | null | bool _ | int _ | float _ | str _ | array _ =>
    refine iff_of_true ⟨?_, Workflow.fromDict_raises reader _, Queue.fromDict_raises reader _, ?_⟩
      nofun
    · exact WireDecoder.invalid_isValidation ..
    · exact (Decides.raise (WireDecoder.invalid_isValidation ..)).error

def nullAttemptsJob : Json := .object [("id", .str "j"), ("type", .str "t"),
  ("retry", .object [("max_attempts", .null)])]

def hugeAverageStats : Json := .object [("queue", .str "q"),
  ("stats", .object [("avg_wait_ms", .int (2 ^ 1024))])]

theorem unchecked_places_passed :
    ¬ DecodersClosed refusingReader nullAttemptsJob ∧
      ¬ DecodersClosed refusingReader hugeAverageStats := by
  constructor
  · intro h
    have htyped := (Job.fromDict_ends_iff refusingReader _).mp h.job
      ⟨⟨by decide, by decide, by decide, by decide, by decide, by decide, by decide, by decide⟩,
        ⟨by decide, trivial, by decide, by decide, by decide, by decide, by decide, by decide,
          by decide, by decide, by decide, by decide⟩⟩
    exact absurd (htyped _ rfl).maxAttempts (by decide)
  · intro h
    have hconverts := (QueueStats.fromDict_raises_iff refusingReader _).mp h.queueStats _ rfl
      ⟨by decide, by decide, by decide⟩
    have hsmall : isOverflow (some (.int (2 ^ 1024))) = false := (hconverts.2 rfl).1
    exact absurd hsmall (by decide +kernel)

end OpenJobSpec
