import OpenJobSpec.Worker.ExecutionLease
import OpenJobSpec.Worker.Runtime

/-! # A worker, its backend and the time between them

The backend grants a lease when it processes a fetch or a heartbeat; the worker
learns of it when it handles the response, at any later time. Time passes only in
a wait, of any length, so the steps between two waits happen at one instant.
-/
namespace OpenJobSpec.Worker

/-- What `validate_worker_options` lets through. -/
structure VisibilityTimeout where
  ms : ℤ
  at_least_one : 1 ≤ ms

def VisibilityTimeout.seconds (v : VisibilityTimeout) : ℚ := v.ms / 1000

/-- A retry sleep returned, so that its handler is called again. -/
structure Continuation where
  jobId : String
  time : ℚ
  /-- the last instant at which the backend had granted or extended the job's lease -/
  grantedAt : Option ℚ

structure LeasedRun where
  worker : WorkerRun
  visibility : VisibilityTimeout
  now : ℚ := 0
  /-- when the backend last granted or extended the lease on a job -/
  grantedAt : String → Option ℚ := fun _ => none
  /-- the local lease of an execution, by its token -/
  leases : ℕ → Option ExecutionLease := fun _ => none
  sleeps : ℕ → Option RetrySleep := fun _ => none
  /-- responses to processed fetches, on their way -/
  fetched : List (List Job) := []
  /-- responses to processed heartbeats, on their way -/
  beats : List Json := []
  continued : List Continuation := []

inductive LeasedStep
  | wait (duration : ℚ)
  | fetchProcessed (jobs : List Job)
  | heartbeatProcessed (jobIds : List String)
  | fetchHandled (response : ℕ) (failure : Option StartFailure)
  | heartbeatHandled (response : ℕ) (directive : Directive)
  | sleepStarts (token : ℕ) (delay : ℚ)
  | sleepWakes (token : ℕ) (byExtension : Bool)
  | sleepCancelled (token : ℕ)
  /-- any other step of the worker -/
  | worker (step : Step)

/-- `jobs_extended`, when it is a list: the strings in it. -/
def extendedJobIds (jobsExtended : Json) : List String :=
  match jobsExtended with
  | .array ids => ids.filterMap fun
    | .str id => some id
    | _ => none
  | _ => []

theorem extendedJobIds_strings (ids : List String) :
    extendedJobIds (.array (ids.map .str)) = ids := by
  simp [extendedJobIds, List.filterMap_map]

namespace LeasedRun

def new (concurrency : ℤ) (visibility : VisibilityTimeout) : Except Exn LeasedRun := do
  let worker ← WorkerRun.new concurrency
  return { worker, visibility }

variable (s : LeasedRun)

def executions : List ActiveExecution := s.worker.registry.executions

/-- The backend's lease ends one visibility timeout after it was last granted or extended. -/
def HeldAt (visibility : VisibilityTimeout) (time : ℚ) (grantedAt : Option ℚ) : Prop :=
  ∃ granted, grantedAt = some granted ∧ time < granted + visibility.seconds

/-- The backend's lease on a job has not expired. -/
def Held (jobId : String) : Prop := HeldAt s.visibility s.now (s.grantedAt jobId)

def grant (jobIds : List String) : String → Option ℚ := fun jobId =>
  if jobId ∈ jobIds then some s.now else s.grantedAt jobId

/-- `extend_leases`, for one execution's lease. -/
def extendLease (jobIds : List String) (token : ℕ) : Option ExecutionLease :=
  if s.executions.any fun e => e.token = token ∧ e.jobId ∈ jobIds then
    (s.leases token).map fun lease => lease.extend s.now (some s.visibility.ms)
  else s.leases token

/-- The executions started by a response have their lease from now on. -/
def startLeases (worker : WorkerRun) : LeasedRun :=
  let fresh := worker.registered.drop s.worker.registered.length
  { s with
    worker
    leases := fun token =>
      if token ∈ fresh then (ExecutionLease.create s.visibility.ms s.now).toOption
      else s.leases token
    sleeps := fun token => if token ∈ fresh then none else s.sleeps token }

def moveSleep (execution : ActiveExecution) (lease : ExecutionLease) (move : SleepMove) :
    LeasedRun :=
  let token := execution.token
  let setSleep := fun sleep => Function.update s.sleeps token sleep
  match move with
  | .returns =>
    { s with
      sleeps := setSleep none
      continued := s.continued ++ [⟨execution.jobId, s.now, s.grantedAt execution.jobId⟩] }
  | .exceeded => { s with sleeps := setSleep none }
  | .sleeps sleep =>
    { s with
      sleeps := setSleep (some sleep)
      leases := Function.update s.leases token (some { lease with extended := false }) }

def find (token : ℕ) : Option ActiveExecution := s.executions.find? fun e => e.token = token

/-- The step belongs to a response, and is taken with it. -/
def isResponse : Step → Bool
  | .fetchReturns .. | .heartbeat _ => true
  | _ => false

def next (s : LeasedRun) : LeasedStep → Option LeasedRun
  | .wait duration => if 0 ≤ duration then some { s with now := s.now + duration } else none
  | .fetchProcessed jobs =>
    some { s with grantedAt := s.grant (jobs.map (·.id)), fetched := s.fetched ++ [jobs] }
  | .heartbeatProcessed jobIds =>
    some { s with
      grantedAt := s.grant jobIds, beats := s.beats ++ [.array (jobIds.map .str)] }
  | .fetchHandled response failure => do
    let jobs ← s.fetched[response]?
    let worker ← s.worker.next (.fetchReturns jobs failure)
    return { s.startLeases worker with fetched := s.fetched.eraseIdx response }
  | .heartbeatHandled response directive => do
    let jobsExtended ← s.beats[response]?
    let worker ← s.worker.next (.heartbeat directive)
    return { s with
      worker
      leases := s.extendLease (extendedJobIds jobsExtended)
      beats := s.beats.eraseIdx response }
  | .sleepStarts token delay => do
    let execution ← s.find token
    let lease ← s.leases token
    match s.sleeps token, lease.sleepForRetry s.now delay with
    | none, .ok move => return s.moveSleep execution lease move
    | none, .error _ => return s
    | some _, _ => none
  | .sleepWakes token byExtension => do
    let execution ← s.find token
    let lease ← s.leases token
    let sleep ← s.sleeps token
    if lease.canWake s.now sleep byExtension then
      return s.moveSleep execution lease (lease.wake s.now sleep byExtension)
    else none
  | .sleepCancelled token => some { s with sleeps := Function.update s.sleeps token none }
  | .worker step =>
    if isResponse step then none
    else do
      let worker ← s.worker.next step
      return { s with worker }

end LeasedRun

end OpenJobSpec.Worker
