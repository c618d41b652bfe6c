import OpenJobSpec.Foundation.Runs
import OpenJobSpec.Wire.Job
import OpenJobSpec.Worker.ExecutionRegistry

/-! # One run of the worker

The fetch loop, the heartbeat loop, the execution tasks and the coordinator of
the shutdown take turns on one event loop. A step is what one of them does from
where it waits to where it waits next, so any list of steps is an interleaving.
A cancellation is one of the ways in which a wait can end; it may reach the
fetch loop at any of its waits, and a task before its first step.
-/
namespace OpenJobSpec.Worker
open Runs

/-- Where the fetch loop waits. -/
inductive FetchPhase
  | notStarted
  /-- inside the reservation, with the permits reserved so far -/
  | reserving (held : List ℕ)
  | pausing
  | fetching (permits : List ℕ) (count : ℕ)
  /-- for the NACK of the first surplus job, with the permits to release afterwards -/
  | rejecting (unused : List ℕ) (surplus : List Job)
  | done

/-- Where the coordinator waits; an event that was set stays seen by who waits for it. -/
inductive CoordinatorPhase
  | running
  | gathering
  | draining (seen : Bool)
  | gatheringTasks (active : List ℕ)
  | waitingEmpty (seen : Bool)
  | ended
  | cancelledInCleanup

structure WorkerRun where
  admission : LeaseAdmission
  registry : ExecutionRegistry := {}
  shutdown : Bool := false
  quiet : Bool := false
  fetch : FetchPhase := .notStarted
  heartbeatDone : Bool := false
  /-- the execution tasks that are not done -/
  tasks : List ℕ := []
  coordinator : CoordinatorPhase := .running
  /-- every token that was ever registered, in order -/
  registered : List ℕ := []

/-- A failure to start the execution at an index: before its task is created, or after that
and before the task is registered. -/
structure StartFailure where
  index : ℕ
  taskCreated : Bool

inductive Directive
  | quiet
  | running
  | terminate
  | none

inductive Step
  | fetchStarts
  | fetchCancelled
  | pauseEnds
  | fetchReturns (jobs : List Job) (failure : Option StartFailure)
  | fetchFails
  | nackReturns
  | nackFails
  | taskEnds (token : ℕ)
  | taskDropped (token : ℕ)
  | heartbeat (directive : Directive)
  | heartbeatEnds
  | stop
  | loopEnds
  | coordinatorCancelled
  | loopsGathered
  | drained
  | graceEnds
  | tasksGathered
  | emptied

namespace WorkerRun

def new (concurrency : ℤ) : Except Exn WorkerRun := do
  let admission ← LeaseAdmission.new concurrency
  return { admission }

/-! ## The fetch loop -/

def fetchLoop (s : WorkerRun) : WorkerRun :=
  if s.shutdown then { s with fetch := .done }
  else if s.quiet then { s with fetch := .pausing }
  else
    match s.admission.reserveAvailable with
    | .suspended admission held => { s with admission, fetch := .reserving held }
    | .reserved admission [] => { s with admission, fetch := .pausing }
    | .reserved admission permits =>
      { s with admission, fetch := .fetching permits permits.length }

/-- `wait_or_timeout` returns at once when shutdown was requested. -/
def pause (s : WorkerRun) : WorkerRun :=
  if s.shutdown then s.fetchLoop else { s with fetch := .pausing }

def releaseUnused (s : WorkerRun) (unused : List ℕ) : WorkerRun :=
  { s with admission := s.admission.releaseAll unused }

/-- Create the task of an execution and register it; an exception comes back as `false`. -/
def startExecution (s : WorkerRun) (job : Job) (permit : ℕ) : WorkerRun × Bool :=
  let created := { s with tasks := s.tasks ++ [permit] }
  match s.registry.register ⟨permit, job.id⟩ with
  | none => (created, false)
  | some registry => ({ created with registry, registered := s.registered ++ [permit] }, true)

/-- Start an execution for each job with a permit: the number of permits used, and whether
all of them were started. -/
def startExecutions : List (Job × ℕ) → Option StartFailure → WorkerRun → WorkerRun × ℕ × Bool
  | [], _, s => (s, 0, true)
  | (_, permit) :: _, some ⟨0, taskCreated⟩, s =>
    (if taskCreated then { s with tasks := s.tasks ++ [permit] } else s, 0, false)
  | (job, permit) :: rest, failure, s =>
    match s.startExecution job permit with
    | (s, false) => (s, 0, false)
    | (s, true) =>
      let (s, used, ok) := startExecutions rest
        (failure.map fun f => { f with index := f.index - 1 }) s
      (s, used + 1, ok)

def handleJobs (s : WorkerRun) (permits : List ℕ) (jobs : List Job)
    (failure : Option StartFailure) : WorkerRun :=
  let (s, used, ok) := startExecutions (jobs.zip permits) failure s
  let surplus := jobs.drop permits.length
  if ok ∧ surplus ≠ [] then { s with fetch := .rejecting (permits.drop used) surplus }
  else
    let s := s.releaseUnused (permits.drop used)
    if jobs = [] then s.pause else s.fetchLoop

def cancelFetch (s : WorkerRun) : WorkerRun :=
  match s.fetch with
  | .fetching permits _ => { s.releaseUnused permits with fetch := .done }
  | .rejecting unused _ => { s.releaseUnused unused with fetch := .done }
  | _ => { s with fetch := .done }

/-! ## Executions, heartbeats and shutdown -/

def endTask (s : WorkerRun) (token : ℕ) : WorkerRun :=
  let (registry, admission) := s.registry.complete s.admission token
  let seen := fun before => before || registry.empty
  { s with
    registry, admission
    tasks := s.tasks.erase token
    coordinator := match s.coordinator with
      | .draining before => .draining (seen before)
      | .waitingEmpty before => .waitingEmpty (seen before)
      | phase => phase }

def requestTermination (s : WorkerRun) : WorkerRun := { s with quiet := false, shutdown := true }

def handleDirective (s : WorkerRun) (directive : Directive) : WorkerRun :=
  match directive with
  | .terminate => { s.requestTermination with heartbeatDone := true }
  | .quiet => if s.shutdown then s else { s with quiet := true }
  | .running => if s.shutdown then s else { s with quiet := false }
  | .none => s

/-- The cleanup of the coordinator up to the gathering of its loops. -/
def cleanup (s : WorkerRun) : WorkerRun := { s with shutdown := true, coordinator := .gathering }

def fetchDone (s : WorkerRun) : Bool :=
  match s.fetch with
  | .done => true
  | _ => false

def next (s : WorkerRun) (step : Step) : Option WorkerRun :=
  match step, s.fetch, s.coordinator with
  | .fetchStarts, .notStarted, _ => some s.fetchLoop
  | .fetchCancelled, .done, _ => none
  | .fetchCancelled, _, _ => some s.cancelFetch
  | .pauseEnds, .pausing, _ => some s.fetchLoop
  | .fetchReturns jobs failure, .fetching permits _, _ => some (s.handleJobs permits jobs failure)
  | .fetchFails, .fetching permits _, _ => some (s.releaseUnused permits).pause
  | .nackReturns, .rejecting unused (_ :: job :: surplus), _ =>
    some { s with fetch := .rejecting unused (job :: surplus) }
  | .nackReturns, .rejecting unused _, _ => some (s.releaseUnused unused).fetchLoop
  | .nackFails, .rejecting unused _, _ => some (s.releaseUnused unused).fetchLoop
  | .taskEnds token, _, _ => if token ∈ s.tasks then some (s.endTask token) else none
  | .taskDropped token, _, _ =>
    if token ∈ s.tasks then some { s with tasks := s.tasks.erase token } else none
  | .heartbeat directive, _, _ =>
    if s.heartbeatDone then none else some (s.handleDirective directive)
  | .heartbeatEnds, _, _ => some { s with heartbeatDone := true }
  | .stop, _, _ => some s.requestTermination
  | .loopEnds, _, .running =>
    if s.fetchDone ∨ s.heartbeatDone ∨ s.shutdown then some s.cleanup else none
  | .coordinatorCancelled, _, .running => some s.cleanup
  | .coordinatorCancelled, _, .ended => none
  | .coordinatorCancelled, _, _ => some { s with coordinator := .cancelledInCleanup }
  | .loopsGathered, .done, .gathering =>
    if s.heartbeatDone then some { s with coordinator := .draining s.registry.empty } else none
  | .drained, _, .draining true => some { s with coordinator := .ended }
  | .graceEnds, _, .draining _ => some { s with coordinator := .gatheringTasks s.registry.tokens }
  | .tasksGathered, _, .gatheringTasks active =>
    if ∀ token ∈ active, token ∉ s.tasks then
      some { s with coordinator := .waitingEmpty s.registry.empty }
    else none
  | .emptied, _, .waitingEmpty true => some { s with coordinator := .ended }
  | _, _, _ => none

end WorkerRun

end OpenJobSpec.Worker
