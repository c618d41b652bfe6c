import OpenJobSpec.Foundation.ExceptRules
import OpenJobSpec.Wire.Job

/-! # The objects that decode to a job

Each method of the decoder accepts the field it reads or refuses it with a
validation error, whatever it read before. So an object decodes to a job exactly
when every field, taken alone, is one its method accepts.
-/
namespace OpenJobSpec
open ExceptRules

def IsValidation (e : Exn) : Prop := ∃ message, e = .validation message

namespace Field

def isString : Option Json → Bool
  | some (.str _) => true
  | _ => false

def isOptionalString : Option Json → Bool
  | none | some .null | some (.str _) => true
  | _ => false

def isOptionalInteger : Option Json → Bool
  | none | some .null | some (.int _) => true
  | _ => false

def isArray : Option Json → Bool
  | none | some (.array _) => true
  | _ => false

def isObject : Option Json → Bool
  | none | some (.object _) => true
  | _ => false

def isOptionalObject : Option Json → Bool
  | none | some .null | some (.object _) => true
  | _ => false

def isStringArray : Option Json → Bool
  | none => true
  | some (.array xs) => xs.all fun x => isString (some x)
  | _ => false

def isOptionalStringArray : Option Json → Bool
  | some .null => true
  | field => isStringArray field

def isObjectArray : Option Json → Bool
  | none => true
  | some (.array xs) => xs.all Json.isMapping
  | _ => false

def isTimestamp (reader : TextReader) : Option Json → Bool
  | none | some .null => true
  | some (.str s) => (reader.fromIsoformat (WireDecoder.normalizeTimestamp s)).isSome
  | _ => false

/-- A name of a state; the empty name and null stand for the default one. -/
def isState : Option Json → Bool
  | none | some .null => true
  | some (.str s) => s = "" || (JobState.ofValue s).isSome
  | _ => false

/-- The members of a unique policy that `fields` holds. -/
structure UniqueReadable (fields : Fields) : Prop where
  key : isStringArray (fields.lookup "key")
  argsKeys : isOptionalStringArray (fields.lookup "args_keys")
  metaKeys : isOptionalStringArray (fields.lookup "meta_keys")
  period : isOptionalString (fields.lookup "period")
  states : isStringArray (fields.lookup "states")
  onConflict : isOptionalString (fields.lookup "on_conflict")

/-- An empty object stands for no policy, so nothing in it is read. -/
def isUnique : Option Json → Prop
  | none | some .null => True
  | some (.object fields) => fields = [] ∨ UniqueReadable fields
  | _ => False

end Field
open OpenJobSpec.Field

/-- The fields of an envelope that say which job it is and how often it ran. -/
structure EnvelopeReadable (data : Fields) : Prop where
  id : isString (data.lookup "id")
  type : isString (data.lookup "type")
  state : isState (data.lookup "state")
  args : isArray (data.lookup "args")
  «meta» : isObject (data.lookup "meta")
  priority : isOptionalInteger (data.lookup "priority")
  attempt : isOptionalInteger (data.lookup "attempt")
  maxAttempts : isOptionalInteger (data.lookup "max_attempts")

/-- The policies, the routing, the timestamps and the errors of a job. -/
structure DetailsReadable (reader : TextReader) (data : Fields) : Prop where
  retry : isOptionalObject (data.lookup "retry")
  unique : isUnique (data.lookup "unique")
  errors : isObjectArray (data.lookup "errors")
  queue : isOptionalString (data.lookup "queue")
  timeoutMs : isOptionalInteger (data.lookup "timeout_ms")
  tags : isStringArray (data.lookup "tags")
  createdAt : isTimestamp reader (data.lookup "created_at")
  enqueuedAt : isTimestamp reader (data.lookup "enqueued_at")
  startedAt : isTimestamp reader (data.lookup "started_at")
  completedAt : isTimestamp reader (data.lookup "completed_at")
  scheduledAt : isTimestamp reader (data.lookup "scheduled_at")
  expiresAt : isTimestamp reader (data.lookup "expires_at")

/-- The fields that only the decoder reads. -/
def detailKeys : List String :=
  ["retry", "unique", "errors", "queue", "timeout_ms", "tags", "created_at", "enqueued_at",
    "started_at", "completed_at", "scheduled_at", "expires_at"]

theorem DetailsReadable.of_lookup {reader : TextReader} {data other : Fields}
    (hd : DetailsReadable reader data)
    (h : ∀ key ∈ detailKeys, data.lookup key = other.lookup key) :
    DetailsReadable reader other where
  retry := h "retry" (by decide) ▸ hd.retry
  unique := h "unique" (by decide) ▸ hd.unique
  errors := h "errors" (by decide) ▸ hd.errors
  queue := h "queue" (by decide) ▸ hd.queue
  timeoutMs := h "timeout_ms" (by decide) ▸ hd.timeoutMs
  tags := h "tags" (by decide) ▸ hd.tags
  createdAt := h "created_at" (by decide) ▸ hd.createdAt
  enqueuedAt := h "enqueued_at" (by decide) ▸ hd.enqueuedAt
  startedAt := h "started_at" (by decide) ▸ hd.startedAt
  completedAt := h "completed_at" (by decide) ▸ hd.completedAt
  scheduledAt := h "scheduled_at" (by decide) ▸ hd.scheduledAt
  expiresAt := h "expires_at" (by decide) ▸ hd.expiresAt

/-! ## One field at a time -/

namespace WireDecoder
variable {path : String} {value : Json} (d : WireDecoder) (field : String)

theorem invalid_isValidation (path expected : String) (value : Json) :
    IsValidation (invalid path expected value) := ⟨_, rfl⟩

theorem object_decides (value : Json) (path : String) :
    Decides IsValidation (value.isMapping = true) (object value path) := by
  cases value with
  | object fields => exact (Decides.ok _).congr (by simp [Json.isMapping])
  | null | bool _ | int _ | float _ | str _ | array _ =>
    exact (Decides.raise (invalid_isValidation ..)).congr (by simp [Json.isMapping])

theorem requiredString_decides :
    Decides IsValidation (isString (d.data.lookup field)) (d.requiredString field) := by
  unfold requiredString
  rcases d.data.lookup field with _ | (_ | _ | _ | _ | _ | _ | _)
  case some.str => exact (Decides.ok _).congr (by simp [isString])
  all_goals exact (Decides.raise ⟨_, rfl⟩).congr (by simp [isString])

theorem string_decides (default : Option String) :
    Decides IsValidation (isOptionalString (d.data.lookup field)) (d.string field default) := by
  unfold WireDecoder.string
  rcases d.data.lookup field with _ | (_ | _ | _ | _ | _ | _ | _)
  case none | some.null | some.str => exact (Decides.ok _).congr (by simp [isOptionalString])
  all_goals
    exact (Decides.raise (invalid_isValidation ..)).congr (by simp [isOptionalString])

theorem integer_decides (default : Option ℤ) :
    Decides IsValidation (isOptionalInteger (d.data.lookup field)) (d.integer field default) := by
  unfold integer
  rcases d.data.lookup field with _ | (_ | _ | _ | _ | _ | _ | _)
  case none | some.null | some.int => exact (Decides.ok _).congr (by simp [isOptionalInteger])
  all_goals
    exact (Decides.raise (invalid_isValidation ..)).congr (by simp [isOptionalInteger])

theorem array_decides (default : List Json) :
    Decides IsValidation (isArray (d.data.lookup field)) (d.array field default) := by
  unfold array
  rcases d.data.lookup field with _ | (_ | _ | _ | _ | _ | _ | _)
  case none | some.array => exact (Decides.ok _).congr (by simp [isArray])
  all_goals exact (Decides.raise (invalid_isValidation ..)).congr (by simp [isArray])

theorem strings_decides (path : String) (index : ℕ) (values : List Json) :
    Decides IsValidation (values.all fun x => isString (some x)) (strings path index values) := by
  induction values generalizing index with
  | nil => exact (Decides.ok _).congr (by simp)
  | cons value rest ih =>
    cases value with
    | str s =>
      exact ((ih (index + 1)).map fun tail => s :: tail).congr (by simp [isString])
    | null | bool _ | int _ | float _ | array _ | object _ =>
      exact (Decides.raise (invalid_isValidation ..)).congr (by simp [isString])

theorem strings_texts_decides (path : String) (texts : List String) :
    Decides IsValidation True (strings path 0 (texts.map .str)) :=
  (strings_decides path 0 _).congr (by simp [isString])

theorem stringArray_decides (default : List String) :
    Decides IsValidation (isStringArray (d.data.lookup field)) (d.stringArray field default) := by
  unfold stringArray array
  rcases d.data.lookup field with _ | (_ | _ | _ | _ | _ | xs | _)
  case none => exact (strings_texts_decides _ default).congr (by simp [isStringArray])
  case some.array => exact strings_decides _ 0 xs
  all_goals
    exact (Decides.raise (invalid_isValidation ..)).congr (by simp [isStringArray])

theorem mapping_decides (default : Fields) :
    Decides IsValidation (isObject (d.data.lookup field)) (d.mapping field default) := by
  unfold mapping WireDecoder.value Fields.get
  rcases d.data.lookup field with _ | (_ | _ | _ | _ | _ | _ | _)
  case none | some.object => exact (Decides.ok _).congr (by simp [isObject])
  all_goals exact (Decides.raise (invalid_isValidation ..)).congr (by simp [isObject])

theorem optionalMapping_decides :
    Decides IsValidation (isOptionalObject (d.data.lookup field)) (d.optionalMapping field) := by
  unfold optionalMapping WireDecoder.value Fields.get
  rcases d.data.lookup field with _ | (_ | _ | _ | _ | _ | _ | _)
  case none | some.null | some.object => exact (Decides.ok _).congr (by simp [isOptionalObject])
  all_goals
    exact (Decides.raise (invalid_isValidation ..)).congr (by simp [isOptionalObject])

theorem datetime_decides (reader : TextReader) :
    Decides IsValidation (isTimestamp reader (d.data.lookup field)) (d.datetime reader field) := by
  unfold datetime
  rcases d.data.lookup field with _ | (_ | _ | _ | _ | s | _ | _)
  case none | some.null => exact (Decides.ok _).congr (by simp [isTimestamp])
  case some.str =>
    dsimp only [parseDatetime, isTimestamp]
    cases reader.fromIsoformat (normalizeTimestamp s) with
    | none => exact (Decides.raise ⟨_, rfl⟩).congr (by simp)
    | some t => exact (Decides.ok _).congr (by simp)
  all_goals
    exact (Decides.raise (invalid_isValidation ..)).congr (by simp [isTimestamp])

end WireDecoder

/-! ## Policies, states and errors -/

def optionalStringArray (d : WireDecoder) (field : String) : Except Exn (Option (List String)) :=
  match d.value field .null with
  | .null => pure none
  | _ => some <$> d.stringArray field []

theorem optionalStringArray_decides (d : WireDecoder) (field : String) :
    Decides IsValidation (isOptionalStringArray (d.data.lookup field))
      (optionalStringArray d field) := by
  have hread : Decides IsValidation (isStringArray (d.data.lookup field))
      (some <$> d.stringArray field []) :=
    (d.stringArray_decides field []).map some
  unfold optionalStringArray WireDecoder.value Fields.get
  revert hread
  rcases d.data.lookup field with _ | (_ | _ | _ | _ | _ | _ | _)
  case none | some.null =>
    exact fun _ => (Decides.ok _).congr (by simp [isOptionalStringArray, isStringArray])
  all_goals exact fun hread => hread

theorem UniquePolicy.fromDecoder_eq (d : WireDecoder) :
    UniquePolicy.fromDecoder d = (do
      let keys ← d.stringArray "key" ["type", "queue", "args"]
      let argsKeys ← optionalStringArray d "args_keys"
      let metaKeys ← optionalStringArray d "meta_keys"
      let period ← d.string "period" none
      let states ← d.stringArray "states" ["available", "active", "scheduled"]
      let onConflict ← d.string "on_conflict" (some "reject")
      .ok ⟨keys, argsKeys, metaKeys, period, states, orElseString onConflict "reject"⟩) := by
  unfold UniquePolicy.fromDecoder optionalStringArray
  refine congrArg _ (funext fun keys => ?_)
  cases d.value "args_keys" .null <;> cases d.value "meta_keys" .null <;> rfl

theorem UniquePolicy.fromDecoder_decides (fields : Fields) (path : String) :
    Decides IsValidation (UniqueReadable fields) (UniquePolicy.fromDecoder ⟨fields, path⟩) := by
  let d : WireDecoder := ⟨fields, path⟩
  rw [fromDecoder_eq]
  refine Decides.congr ((d.stringArray_decides "key" _).bind fun _ =>
    (optionalStringArray_decides d "args_keys").bind fun _ =>
    (optionalStringArray_decides d "meta_keys").bind fun _ =>
    (d.string_decides "period" _).bind fun _ =>
    (d.stringArray_decides "states" _).bind fun _ =>
    (d.string_decides "on_conflict" _).map _) ?_
  constructor
  · rintro ⟨hkey, hargs, hmeta, hperiod, hstates, hconflict⟩
    exact ⟨hkey, hargs, hmeta, hperiod, hstates, hconflict⟩
  · intro h
    exact ⟨h.key, h.argsKeys, h.metaKeys, h.period, h.states, h.onConflict⟩

namespace Job

def uniqueField (d : WireDecoder) : Except Exn (Option UniquePolicy) := do
  let data ← d.optionalMapping "unique"
  match policyData data with
  | none => .ok none
  | some fields => some <$> UniquePolicy.fromDecoder ⟨fields, "job.unique"⟩

def stateField (d : WireDecoder) : Except Exn JobState := do
  let value ← d.string "state" (some "available")
  match JobState.ofValue (orElseString value "available") with
  | some s => .ok s
  | none => .error (.validation ("invalid wire value at job.state: unknown job state "
      ++ Text.repr (orElseString value "available")))

def errorsField (d : WireDecoder) : Except Exn (List Fields) := do
  let values ← d.array "errors" []
  errorEntries 0 values

theorem fromDict_eq (reader : TextReader) (data : Fields) :
    fromDict reader (.object data) =
      (let d : WireDecoder := ⟨data, "job"⟩
      do
      let retryData ← d.optionalMapping "retry"
      let unique ← uniqueField d
      let state ← stateField d
      let errors ← errorsField d
      let id ← d.requiredString "id"
      let type ← d.requiredString "type"
      let args ← d.array "args" []
      let queue ← d.string "queue" (some "default")
      let «meta» ← d.mapping "meta" []
      let priority ← d.integer "priority" (some 0)
      let attempt ← d.integer "attempt" (some 0)
      let maxAttempts ← d.integer "max_attempts" (some 3)
      let timeoutMs ← d.integer "timeout_ms" none
      let tags ← d.stringArray "tags" []
      let createdAt ← d.datetime reader "created_at"
      let enqueuedAt ← d.datetime reader "enqueued_at"
      let startedAt ← d.datetime reader "started_at"
      let completedAt ← d.datetime reader "completed_at"
      let scheduledAt ← d.datetime reader "scheduled_at"
      let expiresAt ← d.datetime reader "expires_at"
      .ok {
        id, type, state, args, «meta», timeoutMs, tags, unique, createdAt, enqueuedAt
        startedAt, completedAt, scheduledAt, expiresAt, errors
        retry := (policyData retryData).map RetryPolicy.fromDict
        queue := orElseString queue "default"
        priority := priority.getD 0
        attempt := attempt.getD 0
        maxAttempts := maxAttempts.getD 0
        result := d.value "result" .null }) := by
  let d : WireDecoder := ⟨data, "job"⟩
  unfold fromDict uniqueField stateField errorsField WireDecoder.object
  simp only [ok_bind, bind_assoc]
  refine congrArg _ (funext fun retryData => congrArg _ (funext fun uniqueData => ?_))
  cases policyData uniqueData with
  | none =>
    change (d.string "state" (some "available") >>= _) =
      (d.string "state" (some "available") >>= _)
    refine congrArg _ (funext fun value => ?_)
    cases JobState.ofValue (orElseString value "available") <;> rfl
  | some fields =>
    dsimp only
    cases UniquePolicy.fromDecoder ⟨fields, "job.unique"⟩ with
    | error e => rfl
    | ok policy =>
      change (d.string "state" (some "available") >>= _) =
        (d.string "state" (some "available") >>= _)
      refine congrArg _ (funext fun value => ?_)
      cases JobState.ofValue (orElseString value "available") <;> rfl

theorem uniqueField_decides (d : WireDecoder) :
    Decides IsValidation (isUnique (d.data.lookup "unique")) (uniqueField d) := by
  unfold uniqueField WireDecoder.optionalMapping WireDecoder.value Fields.get
  rcases d.data.lookup "unique" with _ | (_ | _ | _ | _ | _ | _ | fields)
  case none | some.null => exact (Decides.ok _).congr (by simp [isUnique])
  case some.object =>
    cases fields with
    | nil => exact (Decides.ok _).congr (by simp [isUnique])
    | cons entry rest =>
      refine Decides.congr ((UniquePolicy.fromDecoder_decides (entry :: rest) _).map some) ?_
      simp [isUnique]
  all_goals
    exact (Decides.raise (WireDecoder.invalid_isValidation ..)).congr (by simp [isUnique])

theorem stateField_decides (d : WireDecoder) :
    Decides IsValidation (isState (d.data.lookup "state")) (stateField d) := by
  unfold stateField WireDecoder.string
  rcases d.data.lookup "state" with _ | (_ | _ | _ | _ | s | _ | _)
  case none | some.null => exact (Decides.ok _).congr (by simp [isState])
  case some.str =>
    dsimp only [ok_bind, orElseString, isState]
    by_cases hempty : s = ""
    · subst hempty
      exact (Decides.ok _).congr (by simp)
    · simp only [hempty, if_false, decide_false, Bool.false_or]
      cases JobState.ofValue s with
      | none => exact (Decides.raise ⟨_, rfl⟩).congr (by simp)
      | some state => exact (Decides.ok _).congr (by simp)
  all_goals
    exact (Decides.raise (WireDecoder.invalid_isValidation ..)).congr (by simp [isState])

theorem errorEntries_decides (index : ℕ) (values : List Json) :
    Decides IsValidation (values.all Json.isMapping) (errorEntries index values) := by
  induction values generalizing index with
  | nil => exact (Decides.ok _).congr (by simp)
  | cons value rest ih =>
    refine Decides.congr ((WireDecoder.object_decides value _).bind fun decoder =>
      (ih (index + 1)).map fun tail => decoder.data :: tail) ?_
    rw [List.all_cons, Bool.and_eq_true]

theorem errorsField_decides (d : WireDecoder) :
    Decides IsValidation (isObjectArray (d.data.lookup "errors")) (errorsField d) := by
  unfold errorsField WireDecoder.array
  rcases d.data.lookup "errors" with _ | (_ | _ | _ | _ | _ | xs | _)
  case none => exact (Decides.ok _).congr (by simp [isObjectArray])
  case some.array => exact errorEntries_decides 0 xs
  all_goals
    exact (Decides.raise (WireDecoder.invalid_isValidation ..)).congr (by simp [isObjectArray])

/-- An object decodes to a job exactly when each field is one that its decoder accepts, and
otherwise the error is a validation error. -/
theorem fromDict_decides (reader : TextReader) (data : Fields) :
    Decides IsValidation (EnvelopeReadable data ∧ DetailsReadable reader data)
      (fromDict reader (.object data)) := by
  let d : WireDecoder := ⟨data, "job"⟩
  rw [fromDict_eq]
  refine Decides.congr ((d.optionalMapping_decides "retry").bind fun _ =>
    (uniqueField_decides d).bind fun _ =>
    (stateField_decides d).bind fun _ =>
    (errorsField_decides d).bind fun _ =>
    (d.requiredString_decides "id").bind fun _ =>
    (d.requiredString_decides "type").bind fun _ =>
    (d.array_decides "args" _).bind fun _ =>
    (d.string_decides "queue" _).bind fun _ =>
    (d.mapping_decides "meta" _).bind fun _ =>
    (d.integer_decides "priority" _).bind fun _ =>
    (d.integer_decides "attempt" _).bind fun _ =>
    (d.integer_decides "max_attempts" _).bind fun _ =>
    (d.integer_decides "timeout_ms" _).bind fun _ =>
    (d.stringArray_decides "tags" _).bind fun _ =>
    (d.datetime_decides "created_at" reader).bind fun _ =>
    (d.datetime_decides "enqueued_at" reader).bind fun _ =>
    (d.datetime_decides "started_at" reader).bind fun _ =>
    (d.datetime_decides "completed_at" reader).bind fun _ =>
    (d.datetime_decides "scheduled_at" reader).bind fun _ =>
    (d.datetime_decides "expires_at" reader).map _) ?_
  constructor
  · rintro ⟨hretry, hunique, hstate, herrors, hid, htype, hargs, hqueue, hmeta, hpriority,
      hattempt, hmax, htimeout, htags, hcreated, henqueued, hstarted, hcompleted, hscheduled,
      hexpires⟩
    exact ⟨⟨hid, htype, hstate, hargs, hmeta, hpriority, hattempt, hmax⟩,
      ⟨hretry, hunique, herrors, hqueue, htimeout, htags, hcreated, henqueued, hstarted,
        hcompleted, hscheduled, hexpires⟩⟩
  · rintro ⟨he, hd⟩
    exact ⟨hd.retry, hd.unique, he.state, hd.errors, he.id, he.type, he.args, hd.queue, he.meta,
      he.priority, he.attempt, he.maxAttempts, hd.timeoutMs, hd.tags, hd.createdAt,
      hd.enqueuedAt, hd.startedAt, hd.completedAt, hd.scheduledAt, hd.expiresAt⟩

end Job

end OpenJobSpec
