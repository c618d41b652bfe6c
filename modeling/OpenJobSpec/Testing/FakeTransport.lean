import OpenJobSpec.Foundation.Runs
import OpenJobSpec.Python.Access
import OpenJobSpec.Python.Text
import OpenJobSpec.Testing.Drain
import OpenJobSpec.Wire.Job

/-! # The operations of the fake transport

Five of them write the state of a job. Only the fetch and the drain look at the
state that they overwrite.
-/
namespace OpenJobSpec.Testing

/-- The interpreter's texts of values, and its reading of integers. -/
structure Conversions where
  /-- `repr(value)` -/
  repr : Json → Except Exn String
  /-- `int(text)` -/
  int : String → Option ℤ

namespace Conversions
variable (conversions : Conversions)

/-- `str(value)`. -/
def toStr : Json → Except Exn String
  | .str text => .ok text
  | value => conversions.repr value

/-- `int(value)`. -/
def toInt : Json → Except Exn ℤ
  | .int n => .ok n
  | .bool b => .ok (if b then 1 else 0)
  | .float (.finite q) => .ok (q.num.tdiv q.den)
  | .float (.infinite _) =>
    .error (.builtin .overflowError "cannot convert float infinity to integer")
  | .float .nan => .error (.builtin .valueError "cannot convert float NaN to integer")
  | .str text =>
    match conversions.int text with
    | some n => .ok n
    | none => .error (.builtin .valueError
      ("invalid literal for int() with base 10: " ++ Text.repr text))
  | other => .error (.builtin .typeError ("int() argument must be a string, a bytes-like object " ++
    "or a real number, not '" ++ other.typeName ++ "'"))

end Conversions

/-- The envelope that `push` returns, and the three members of it that come from the options. -/
structure PushedJob where
  job : Job
  priority : ℤ
  timeoutMs : Json
  tags : List Json

/-- `_job(job)`, in a state of the enumeration that was just assigned. -/
def FakeJob.toJob (job : FakeJob) (state : JobState) : Job where
  id := job.id
  type := job.type
  state := state
  args := job.args
  queue := job.queue
  «meta» := job.«meta»
  attempt := job.attempt
  result := job.result
  errors := job.errors

/-- `value if isinstance(value, dict) else {}`. -/
def fieldsOrEmpty : Json → Fields
  | .object fields => fields
  | _ => []

/-- The call of `record_enqueue` in a push, unless a value has no text. -/
def newJob (conversions : Conversions) (body : Fields) : Except Exn NewJob := do
  let options := fieldsOrEmpty (Fields.get body "options" (.object []))
  let «meta» := fieldsOrEmpty (Fields.get body "meta" .null)
  let args := match Fields.get body "args" .null with
    | .array args => args
    | _ => []
  let jobType ← conversions.toStr (Fields.get body "type" (.str ""))
  let queue ← conversions.toStr (Fields.get options "queue" (.str "default"))
  return { jobType, args, queue, «meta», options }

namespace FakeStore
variable (conversions : Conversions) (store : FakeStore)

/-- The job is recorded before the options are converted for the answer. -/
def push (body : Fields) : FakeStore × Except Exn PushedJob :=
  match newJob conversions body with
  | .error e => (store, .error e)
  | .ok new => (store.recordEnqueue new, do
    let priority ← conversions.toInt (Fields.get new.options "priority" (.int 0))
    let tags ← (Fields.get new.options "tags" (.array [])).iterate
    return {
      job := (new.toFake (fakeId (store.nextId + 1))).toJob .available
      priority
      timeoutMs := Fields.get new.options "timeout_ms" .null
      tags })

/-- A push that raises ends the batch. -/
def pushBatch : FakeStore → List Fields → FakeStore × Except Exn (List PushedJob)
  | store, [] => (store, .ok [])
  | store, body :: rest =>
    match store.push conversions body with
    | (pushed, .error e) => (pushed, .error e)
    | (pushed, .ok job) => ((pushBatch pushed rest).1, (job :: ·) <$> (pushBatch pushed rest).2)

/-- `_find(job_id)`: the first object with the id, and its place. -/
def find (jobId : String) : Except Exn (ℕ × FakeJob) :=
  match store.enqueued.findIdx? (·.id = jobId) with
  | none => .error (.builtin .keyError (Text.repr jobId))
  | some place =>
    match store.enqueued[place]? with
    | none => .error (.builtin .keyError (Text.repr jobId))
    | some job => .ok (place, job)

def cancel (jobId : String) : FakeStore × Except Exn Job :=
  match store.find jobId with
  | .error e => (store, .error e)
  | .ok (place, job) =>
    let job := { job with state := "cancelled" }
    (store.put place job, .ok (job.toJob .cancelled))

def answer (jobId : String) (job : FakeJob) : Fields :=
  [("job_id", .str jobId), ("state", .str job.state)]

def ack (jobId : String) (result : Json) : FakeStore × Except Exn Fields :=
  match store.find jobId with
  | .error e => (store, .error e)
  | .ok (place, job) =>
    let job := { job with state := "completed", result := result }
    (store.put place job, .ok (answer jobId job))

/-- `error.get("retryable", True)`. -/
def retryable (error : Fields) : Bool := (Fields.get error "retryable" (.bool true)).truthy

def nack (jobId : String) (error : Fields) : FakeStore × Except Exn Fields :=
  match store.find jobId with
  | .error e => (store, .error e)
  | .ok (place, job) =>
    let job := { job with
      errors := job.errors ++ [error]
      state := if retryable error then "retryable" else "discarded" }
    (store.put place job, .ok (answer jobId job))

/-- A fetch takes the job while it has room. -/
def Fetchable (queues : List String) (job : FakeJob) : Prop :=
  job.queue ∈ queues ∧ (job.state = "available" ∨ job.state = "retryable")

instance (queues : List String) : DecidablePred (Fetchable queues) := fun job =>
  inferInstanceAs (Decidable (job.queue ∈ queues ∧ (job.state = _ ∨ job.state = _)))

/-- The loop of a fetch over the jobs from a place on, with a count of the selected ones. It
returns the jobs after it, and what it selects with the places they come from. -/
def fetchLoop (queues : List String) (count : ℤ) :
    ℕ → ℕ → List FakeJob → List FakeJob × List (ℕ × Job)
  | _, _, [] => ([], [])
  | place, selected, job :: rest =>
    if count ≤ selected then (job :: rest, [])
    else if Fetchable queues job then
      (job.started :: (fetchLoop queues count (place + 1) (selected + 1) rest).1,
        (place, job.started.toJob .active) ::
          (fetchLoop queues count (place + 1) (selected + 1) rest).2)
    else
      (job :: (fetchLoop queues count (place + 1) selected rest).1,
        (fetchLoop queues count (place + 1) selected rest).2)

def fetch (queues : List String) (count : ℤ) : FakeStore × List (ℕ × Job) :=
  ({ store with enqueued := (fetchLoop queues count 0 0 store.enqueued).1 },
    (fetchLoop queues count 0 0 store.enqueued).2)

end FakeStore

inductive FakeOperation
  | push (body : Fields)
  | pushBatch (jobs : List Fields)
  | fetch (queues : List String) (count : ℤ)
  | ack (jobId : String) (result : Json)
  | nack (jobId : String) (error : Fields)
  | cancel (jobId : String)
  | drain (maxJobs : Option ℤ)

namespace FakeBackend
variable {W : Type} (conversions : Conversions) (handlers : Handlers W)

def after (b : FakeBackend W) : FakeOperation → FakeBackend W
  | .push body => { b with store := (b.store.push conversions body).1 }
  | .pushBatch jobs => { b with store := (b.store.pushBatch conversions jobs).1 }
  | .fetch queues count => { b with store := (b.store.fetch queues count).1 }
  | .ack jobId result => { b with store := (b.store.ack jobId result).1 }
  | .nack jobId error => { b with store := (b.store.nack jobId error).1 }
  | .cancel jobId => { b with store := (b.store.cancel jobId).1 }
  | .drain maxJobs => (b.drain handlers maxJobs).1

/-- Each operation is a step; one that raises leaves what it did before. -/
def next (b : FakeBackend W) (operation : FakeOperation) : Option (FakeBackend W) :=
  some (b.after conversions handlers operation)

end FakeBackend
end OpenJobSpec.Testing
