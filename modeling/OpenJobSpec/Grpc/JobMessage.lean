import OpenJobSpec.Errors.Hierarchy
import OpenJobSpec.Foundation.ExceptRules
import Mathlib.Data.List.Nodup

/-! # The protobuf `Job` message and its JSON mapping

`MessageToDict` prints the fields that are set: a message field that has
presence, and any other field that does not hold its zero value. One option adds
the zero values of the fields without presence. How the well-known types are
printed is a parameter; a value out of range makes either printing fail alike.
-/
namespace OpenJobSpec.Grpc
open ExceptRules

/-! ## Messages -/

/-- A double; the negative zero is not the zero value of a field. -/
inductive ProtoDouble
  | negativeZero
  | value (x : PyFloat)
deriving DecidableEq

structure RetryPolicyMessage (D : Type) where
  maxAttempts : ℤ := 0
  initialInterval : Option D := none
  backoffCoefficient : ProtoDouble := .value (.finite 0)
  maxInterval : Option D := none
  jitter : Bool := false
  nonRetryableErrors : List String := []
  onExhaustion : String := ""

/-- Enumerations are open: a number without a name is kept. -/
structure UniquePolicyMessage (D : Type) where
  key : List String := []
  period : Option D := none
  onConflict : ℤ := 0
  states : List ℤ := []
  argsKeys : List String := []
  metaKeys : List String := []

structure JobErrorMessage (S T : Type) where
  code : String := ""
  message : String := ""
  retryable : Bool := false
  attempt : ℤ := 0
  occurredAt : Option T := none
  backtrace : String := ""
  details : Option S := none

/-- A job with `V`, `S`, `T` and `D` for values, structs, timestamps and durations. -/
structure JobMessage (V S T D : Type) where
  id : String := ""
  type : String := ""
  queue : String := ""
  args : List V := []
  «meta» : Option S := none
  state : ℤ := 0
  priority : ℤ := 0
  attempt : ℤ := 0
  maxAttempts : ℤ := 0
  retryPolicy : Option (RetryPolicyMessage D) := none
  uniquePolicy : Option (UniquePolicyMessage D) := none
  result : Option S := none
  errors : List (JobErrorMessage S T) := []
  createdAt : Option T := none
  enqueuedAt : Option T := none
  scheduledAt : Option T := none
  startedAt : Option T := none
  completedAt : Option T := none
  expiresAt : Option T := none
  timeout : Option D := none
  visibilityTimeout : Option D := none
  tags : List String := []
  traceId : String := ""
  workflowId : String := ""
  specversion : String := ""

/-! ## Printing the well-known types -/

structure WellKnownJson (V S T D : Type) where
  value : V → Except Exn Json
  struct : S → Except Exn Fields
  timestamp : T → Except Exn String
  duration : D → Except Exn String

def printOption {α β : Type} (print : α → Except Exn β) : Option α → Except Exn (Option β)
  | none => .ok none
  | some x => do
    let printed ← print x
    return some printed

/-- A job whose well-known values are their JSON. -/
abbrev PrintedJob := JobMessage Json Fields String String

variable {V S T D : Type}

def RetryPolicyMessage.print (w : WellKnownJson V S T D) (m : RetryPolicyMessage D) :
    Except Exn (RetryPolicyMessage String) := do
  let initialInterval ← printOption w.duration m.initialInterval
  let maxInterval ← printOption w.duration m.maxInterval
  return { m with initialInterval, maxInterval }

def UniquePolicyMessage.print (w : WellKnownJson V S T D) (m : UniquePolicyMessage D) :
    Except Exn (UniquePolicyMessage String) := do
  let period ← printOption w.duration m.period
  return { m with period }

def JobErrorMessage.print (w : WellKnownJson V S T D) (m : JobErrorMessage S T) :
    Except Exn (JobErrorMessage Fields String) := do
  let occurredAt ← printOption w.timestamp m.occurredAt
  let details ← printOption w.struct m.details
  return { m with occurredAt, details }

/-- The fields in the order of their numbers. -/
def JobMessage.print (w : WellKnownJson V S T D) (m : JobMessage V S T D) :
    Except Exn PrintedJob := do
  let args ← m.args.mapM w.value
  let «meta» ← printOption w.struct m.meta
  let retryPolicy ← printOption (RetryPolicyMessage.print w) m.retryPolicy
  let uniquePolicy ← printOption (UniquePolicyMessage.print w) m.uniquePolicy
  let result ← printOption w.struct m.result
  let errors ← m.errors.mapM (JobErrorMessage.print w)
  let createdAt ← printOption w.timestamp m.createdAt
  let enqueuedAt ← printOption w.timestamp m.enqueuedAt
  let scheduledAt ← printOption w.timestamp m.scheduledAt
  let startedAt ← printOption w.timestamp m.startedAt
  let completedAt ← printOption w.timestamp m.completedAt
  let expiresAt ← printOption w.timestamp m.expiresAt
  let timeout ← printOption w.duration m.timeout
  let visibilityTimeout ← printOption w.duration m.visibilityTimeout
  return { m with
    args, «meta», retryPolicy, uniquePolicy, result, errors, createdAt, enqueuedAt, scheduledAt
    startedAt, completedAt, expiresAt, timeout, visibilityTimeout }

/-! ## Which fields are printed -/

inductive PrintedField
  /-- a field that is set -/
  | present (name : String) (value : Json)
  /-- a field without presence that holds its zero value -/
  | zero (name : String) (value : Json)
  /-- a message field that is not set -/
  | absent (name : String)

namespace PrintedField

def name : PrintedField → String
  | present name _ | zero name _ | absent name => name

def text (name value : String) : PrintedField :=
  if value = "" then .zero name (.str value) else .present name (.str value)

def integer (name : String) (value : ℤ) : PrintedField :=
  if value = 0 then .zero name (.int value) else .present name (.int value)

def boolean (name : String) (value : Bool) : PrintedField :=
  if value = false then .zero name (.bool value) else .present name (.bool value)

def double (name : String) : ProtoDouble → PrintedField
  | .negativeZero => .present name (.float (.finite 0))
  | .value (.finite q) =>
    if q = 0 then .zero name (.float (.finite q)) else .present name (.float (.finite q))
  | .value (.infinite false) => .present name (.str "Infinity")
  | .value (.infinite true) => .present name (.str "-Infinity")
  | .value .nan => .present name (.str "NaN")

/-- The name of a number, or the number where it has none. -/
def enumJson (names : List (ℤ × String)) (number : ℤ) : Json :=
  match names.lookup number with
  | some name => .str name
  | none => .int number

def enumeration (names : List (ℤ × String)) (name : String) (number : ℤ) : PrintedField :=
  if number = 0 then .zero name (enumJson names number) else .present name (enumJson names number)

def repeated (name : String) (items : List Json) : PrintedField :=
  if items = [] then .zero name (.array items) else .present name (.array items)

def message (name : String) : Option Json → PrintedField
  | none => .absent name
  | some value => .present name value

def set? : PrintedField → Option (String × Json)
  | present name value => some (name, value)
  | zero _ _ | absent _ => none

def zero? : PrintedField → Option (String × Json)
  | zero name value => some (name, value)
  | present _ _ | absent _ => none

/-- The value under the field's name, if the field is printed. -/
def shown (always : Bool) : PrintedField → Option Json
  | present _ value => some value
  | zero _ value => if always then some value else none
  | absent _ => none

end PrintedField

/-- The set fields, then the zero values if these are asked for. -/
def printFields (always : Bool) (fields : List PrintedField) : Fields :=
  fields.filterMap PrintedField.set? ++
    if always then fields.filterMap PrintedField.zero? else []

variable {fields : List PrintedField} {field : PrintedField}

/-- Where names are distinct, a name is looked up in its own field. -/
theorem lookup_filterMap {f : PrintedField → Option (String × Json)}
    (hname : ∀ field entry, f field = some entry → entry.1 = field.name)
    (hd : (fields.map PrintedField.name).Nodup) (hmem : field ∈ fields) :
    (fields.filterMap f).lookup field.name = (f field).map Prod.snd := by
  induction fields with
  | nil => cases hmem
  | cons first rest ih =>
    rw [List.map_cons, List.nodup_cons] at hd
    obtain ⟨hfresh, hrest⟩ := hd
    rcases List.mem_cons.mp hmem with rfl | hin
    · cases hf : f field with
      | some entry =>
        rw [List.filterMap_cons_some hf, List.lookup_cons, ← hname _ _ hf]
        simp
      | none =>
        rw [List.filterMap_cons_none hf]
        refine List.lookup_eq_none_iff.mpr fun entry hentry => ?_
        obtain ⟨other, hother, hfo⟩ := List.mem_filterMap.mp hentry
        rw [hname _ _ hfo]
        refine bne_iff_ne.mpr fun heq => hfresh ?_
        exact heq ▸ List.mem_map_of_mem hother
    · have hne : field.name ≠ first.name := fun heq => hfresh (heq ▸ List.mem_map_of_mem hin)
      cases hf : f first with
      | some entry =>
        rw [List.filterMap_cons_some hf, List.lookup_cons, hname _ _ hf, beq_false_of_ne hne]
        exact ih hrest hin
      | none =>
        rw [List.filterMap_cons_none hf]
        exact ih hrest hin

theorem lookup_printFields (always : Bool) (hd : (fields.map PrintedField.name).Nodup)
    (hmem : field ∈ fields) :
    (printFields always fields).lookup field.name = field.shown always := by
  have hset := lookup_filterMap (f := PrintedField.set?)
    (fun field entry h => by cases field <;> cases h; rfl) hd hmem
  have hzero := lookup_filterMap (f := PrintedField.zero?)
    (fun field entry h => by cases field <;> cases h; rfl) hd hmem
  unfold printFields
  rw [List.lookup_append, hset]
  cases always with
  | false => cases field <;> simp [PrintedField.set?, PrintedField.shown]
  | true =>
    rw [if_pos rfl, hzero]
    cases field <;> simp [PrintedField.set?, PrintedField.zero?, PrintedField.shown]

/-! ## `MessageToDict` -/

def jobStateNames : List (ℤ × String) := [
  (0, "JOB_STATE_UNSPECIFIED"), (1, "JOB_STATE_SCHEDULED"), (2, "JOB_STATE_AVAILABLE"),
  (3, "JOB_STATE_PENDING"), (4, "JOB_STATE_ACTIVE"), (5, "JOB_STATE_COMPLETED"),
  (6, "JOB_STATE_RETRYABLE"), (7, "JOB_STATE_CANCELLED"), (8, "JOB_STATE_DISCARDED")]

def conflictActionNames : List (ℤ × String) := [
  (0, "UNIQUE_CONFLICT_ACTION_UNSPECIFIED"), (1, "UNIQUE_CONFLICT_ACTION_REJECT"),
  (2, "UNIQUE_CONFLICT_ACTION_REPLACE"), (3, "UNIQUE_CONFLICT_ACTION_IGNORE"),
  (4, "UNIQUE_CONFLICT_ACTION_REPLACE_EXCEPT_SCHEDULE")]

def RetryPolicyMessage.printedFields (m : RetryPolicyMessage String) : List PrintedField := [
  .integer "max_attempts" m.maxAttempts,
  .message "initial_interval" (m.initialInterval.map .str),
  .double "backoff_coefficient" m.backoffCoefficient,
  .message "max_interval" (m.maxInterval.map .str),
  .boolean "jitter" m.jitter,
  .repeated "non_retryable_errors" (m.nonRetryableErrors.map .str),
  .text "on_exhaustion" m.onExhaustion]

def RetryPolicyMessage.toDict (always : Bool) (m : RetryPolicyMessage String) : Fields :=
  printFields always m.printedFields

def UniquePolicyMessage.printedFields (m : UniquePolicyMessage String) : List PrintedField := [
  .repeated "key" (m.key.map .str),
  .message "period" (m.period.map .str),
  .enumeration conflictActionNames "on_conflict" m.onConflict,
  .repeated "states" (m.states.map (PrintedField.enumJson jobStateNames)),
  .repeated "args_keys" (m.argsKeys.map .str),
  .repeated "meta_keys" (m.metaKeys.map .str)]

def UniquePolicyMessage.toDict (always : Bool) (m : UniquePolicyMessage String) : Fields :=
  printFields always m.printedFields

def JobErrorMessage.printedFields (m : JobErrorMessage Fields String) : List PrintedField := [
  .text "code" m.code,
  .text "message" m.message,
  .boolean "retryable" m.retryable,
  .integer "attempt" m.attempt,
  .message "occurred_at" (m.occurredAt.map .str),
  .text "backtrace" m.backtrace,
  .message "details" (m.details.map .object)]

def JobErrorMessage.toDict (always : Bool) (m : JobErrorMessage Fields String) : Fields :=
  printFields always m.printedFields

def JobMessage.printedFields (always : Bool) (m : PrintedJob) : List PrintedField := [
  .text "id" m.id,
  .text "type" m.type,
  .text "queue" m.queue,
  .repeated "args" m.args,
  .message "meta" (m.meta.map .object),
  .enumeration jobStateNames "state" m.state,
  .integer "priority" m.priority,
  .integer "attempt" m.attempt,
  .integer "max_attempts" m.maxAttempts,
  .message "retry_policy" (m.retryPolicy.map fun r => .object (r.toDict always)),
  .message "unique_policy" (m.uniquePolicy.map fun u => .object (u.toDict always)),
  .message "result" (m.result.map .object),
  .repeated "errors" (m.errors.map fun e => .object (e.toDict always)),
  .message "created_at" (m.createdAt.map .str),
  .message "enqueued_at" (m.enqueuedAt.map .str),
  .message "scheduled_at" (m.scheduledAt.map .str),
  .message "started_at" (m.startedAt.map .str),
  .message "completed_at" (m.completedAt.map .str),
  .message "expires_at" (m.expiresAt.map .str),
  .message "timeout" (m.timeout.map .str),
  .message "visibility_timeout" (m.visibilityTimeout.map .str),
  .repeated "tags" (m.tags.map .str),
  .text "trace_id" m.traceId,
  .text "workflow_id" m.workflowId,
  .text "specversion" m.specversion]

def JobMessage.toDict (always : Bool) (m : PrintedJob) : Fields :=
  printFields always (m.printedFields always)

/-! ## What is looked up in a printed message -/

namespace PrintedField

@[simp] theorem name_text (name value : String) : (text name value).name = name := by
  unfold text
  split <;> rfl

@[simp] theorem name_integer (name : String) (value : ℤ) : (integer name value).name = name := by
  unfold integer
  split <;> rfl

@[simp] theorem name_boolean (name : String) (value : Bool) : (boolean name value).name = name := by
  unfold boolean
  split <;> rfl

@[simp] theorem name_double (name : String) (value : ProtoDouble) :
    (double name value).name = name := by
  unfold double
  split <;> try rfl
  split <;> rfl

@[simp] theorem name_enumeration (names : List (ℤ × String)) (name : String) (number : ℤ) :
    (enumeration names name number).name = name := by
  unfold enumeration
  split <;> rfl

@[simp] theorem name_repeated (name : String) (items : List Json) :
    (repeated name items).name = name := by
  unfold repeated
  split <;> rfl

@[simp] theorem name_message (name : String) (value : Option Json) :
    (message name value).name = name := by
  cases value <;> rfl

/-- Either the value is printed, or it is the zero value and is not. -/
theorem shown_text (always : Bool) (name value : String) :
    (text name value).shown always =
      if always = false ∧ value = "" then none else some (.str value) := by
  unfold text
  by_cases hvalue : value = "" <;> cases always <;> simp [hvalue, shown]

theorem shown_integer (always : Bool) (name : String) (value : ℤ) :
    (integer name value).shown always =
      if always = false ∧ value = 0 then none else some (.int value) := by
  unfold integer
  by_cases hvalue : value = 0 <;> cases always <;> simp [hvalue, shown]

theorem shown_boolean (always : Bool) (name : String) (value : Bool) :
    (boolean name value).shown always =
      if always = false ∧ value = false then none else some (.bool value) := by
  unfold boolean
  cases value <;> cases always <;> simp [shown]

theorem shown_enumeration (always : Bool) (names : List (ℤ × String)) (name : String)
    (number : ℤ) : (enumeration names name number).shown always =
      if always = false ∧ number = 0 then none else some (enumJson names number) := by
  unfold enumeration
  by_cases hnumber : number = 0 <;> cases always <;> simp [hnumber, shown]

theorem shown_repeated (always : Bool) (name : String) (items : List Json) :
    (repeated name items).shown always =
      if always = false ∧ items = [] then none else some (.array items) := by
  unfold repeated
  by_cases hitems : items = [] <;> cases always <;> simp [hitems, shown]

theorem shown_message (always : Bool) (name : String) (value : Option Json) :
    (message name value).shown always = value := by
  cases value <;> rfl

/-- The JSON of a double, and whether the double is the zero value. -/
def doubleJson : ProtoDouble → Json
  | .negativeZero => .float (.finite 0)
  | .value (.finite q) => .float (.finite q)
  | .value (.infinite false) => .str "Infinity"
  | .value (.infinite true) => .str "-Infinity"
  | .value .nan => .str "NaN"

theorem shown_double (always : Bool) (name : String) (value : ProtoDouble) :
    (double name value).shown always =
      if always = false ∧ value = .value (.finite 0) then none else some (doubleJson value) := by
  unfold double
  split
  · cases always <;> rfl
  · rename_i q
    by_cases hq : q = 0 <;> cases always <;> simp [hq, shown, doubleJson]
  · cases always <;> rfl
  · cases always <;> rfl
  · cases always <;> rfl

end PrintedField

variable (always : Bool)

theorem JobMessage.names_nodup (m : PrintedJob) :
    ((m.printedFields always).map PrintedField.name).Nodup := by
  simp only [printedFields, List.map_cons, List.map_nil, PrintedField.name_text,
    PrintedField.name_integer, PrintedField.name_enumeration, PrintedField.name_repeated,
    PrintedField.name_message]
  decide

theorem RetryPolicyMessage.names_nodup (m : RetryPolicyMessage String) :
    ((m.printedFields).map PrintedField.name).Nodup := by
  simp only [printedFields, List.map_cons, List.map_nil, PrintedField.name_text,
    PrintedField.name_integer, PrintedField.name_boolean, PrintedField.name_double,
    PrintedField.name_repeated, PrintedField.name_message]
  decide

theorem JobMessage.lookup_toDict (m : PrintedJob) (field : PrintedField)
    (hmem : field ∈ m.printedFields always) :
    (m.toDict always).lookup field.name = field.shown always :=
  lookup_printFields always (names_nodup always m) hmem

end OpenJobSpec.Grpc
