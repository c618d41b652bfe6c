import OpenJobSpec.Python.Json
import OpenJobSpec.Worker.PermitConservation

/-! # The lifecycle of a worker

The public state has four writers: the start and the end of a run, the request
for termination, and the directives that come with the responses to heartbeats.
A worker goes through any number of runs, one at a time; what happened in the
current run is recorded beside it. The loops of a run are those of
`WorkerRun`, which read the public state where the run has its flag `quiet`.
-/
namespace OpenJobSpec.Worker
open Runs

inductive WorkerState
  | idle
  | running
  | quiet
  | terminate
deriving DecidableEq

/-- Where the heartbeat loop waits: for a response, or for the interval or the back-off. -/
inductive HeartbeatPhase
  | notStarted
  | requesting
  | pausing
  | done
deriving DecidableEq

/-- What a call of `transport.fetch` finds when it begins. -/
structure FetchCall where
  state : WorkerState
  shutdown : Bool
deriving DecidableEq

structure ActiveRun where
  runtime : WorkerRun
  heartbeat : HeartbeatPhase := .notStarted
  signalsInstalled : Bool
  /-- `_request_termination` has run -/
  terminated : Bool := false
  /-- what the responses handled so far said, in order -/
  directives : List Directive := []
  /-- the fetch calls begun so far, in order -/
  fetches : List FetchCall := []

structure WorkerInstance where
  concurrency : ℤ
  state : WorkerState := .idle
  run : Option ActiveRun := none

/-- How the signal handlers were installed: another worker may own them. -/
inductive Installation
  | installed
  | notInstalled
  | refused

inductive HeartbeatEvent
  | starts
  | responds (response : Json)
  | fails
  | pauseEnds
  | pauseInterrupted
  | ends

inductive Event
  | start (installation : Installation)
  | signal
  | stop
  | heartbeat (event : HeartbeatEvent)
  /-- a reservation that had to wait goes on, with so many permits still to take -/
  | reservationResumes (remaining : ℕ)
  | runtime (step : Step)
  /-- the end of the `start` call -/
  | startReturns

/-- The steps of a run that are not among the writers modelled here. -/
def Step.isRuntime : Step → Bool
  | .heartbeat _ | .heartbeatEnds | .stop => false
  | _ => true

/-- The fetch loop goes on until it waits again. -/
def Step.isFetchLoop : Step → Bool
  | .fetchStarts | .pauseEnds | .fetchReturns .. | .fetchFails | .nackReturns | .nackFails => true
  | _ => false

def FetchPhase.isFetching : FetchPhase → Bool
  | .fetching .. => true
  | _ => false

/-! ## The heartbeat loop -/

/-- What a response tells the worker to do; `none` when it has no `get`. -/
def serverDirective (response : Json) : Option Directive :=
  match response with
  | .object fields =>
    match Fields.get fields "state" .null with
    | .str "terminate" => some .terminate
    | .str "quiet" => some .quiet
    | .str "running" => some .running
    | _ => some .none
  | _ => none

namespace ActiveRun

def setHeartbeat (r : ActiveRun) (phase : HeartbeatPhase) : ActiveRun :=
  { r with
    heartbeat := phase
    runtime := { r.runtime with heartbeatDone := decide (phase = .done) } }

/-- The head of the loop; a request is in flight from here until its response is handled. -/
def beat (r : ActiveRun) : ActiveRun :=
  r.setHeartbeat (if r.runtime.shutdown then .done else .requesting)

def pauseHeartbeat (r : ActiveRun) : ActiveRun :=
  r.setHeartbeat (if r.runtime.shutdown then .done else .pausing)

end ActiveRun

namespace WorkerInstance

def new (concurrency : ℤ) : WorkerInstance := { concurrency }

/-- Publish TERMINATE and set the shutdown event, without a wait in between. -/
def requestTermination (w : WorkerInstance) (r : ActiveRun) : WorkerInstance :=
  { w with
    state := .terminate
    run := some { r with runtime := { r.runtime with shutdown := true }, terminated := true } }

def withRun (w : WorkerInstance) (r : ActiveRun) : WorkerInstance := { w with run := some r }

/-- A directive to go quiet or to run again does not touch a worker that shuts down. -/
def handleDirective (w : WorkerInstance) (r : ActiveRun) (directive : Directive) : WorkerInstance :=
  let r := { r with directives := r.directives ++ [directive] }
  match directive with
  | .terminate => w.requestTermination (r.setHeartbeat .done)
  | .quiet =>
    { w with
      state := if r.runtime.shutdown then w.state else .quiet
      run := some r.pauseHeartbeat }
  | .running =>
    { w with
      state := if r.runtime.shutdown then w.state else .running
      run := some r.pauseHeartbeat }
  | .none => w.withRun r.pauseHeartbeat

def heartbeatLoop (w : WorkerInstance) (r : ActiveRun) (event : HeartbeatEvent) :
    Option WorkerInstance :=
  match event, r.heartbeat with
  | .starts, .notStarted => some (w.withRun r.beat)
  | .responds response, .requesting =>
    match serverDirective response with
    | none => some (w.withRun r.pauseHeartbeat)
    | some directive => some (w.handleDirective r directive)
  | .fails, .requesting => some (w.withRun r.pauseHeartbeat)
  | .pauseEnds, .pausing => some (w.withRun r.beat)
  | .pauseInterrupted, .pausing =>
    if r.runtime.shutdown then some (w.withRun (r.setHeartbeat .done)) else none
  | .ends, .done => none
  | .ends, _ => some (w.withRun (r.setHeartbeat .done))
  | _, _ => none

/-! ## The other parts of a run -/

/-- The run as its loops see it: what they compare with QUIET is the public state. -/
def view (w : WorkerInstance) (r : ActiveRun) : WorkerRun :=
  { r.runtime with quiet := decide (w.state = .quiet) }

/-- A step of the fetch loop that ends in a fetch has begun the call. -/
def runtimeStep (w : WorkerInstance) (r : ActiveRun) (step : Step) : Option WorkerInstance :=
  if step.isRuntime then
    ((w.view r).next step).map fun runtime =>
      w.withRun { r with
        runtime
        fetches := if step.isFetchLoop && runtime.fetch.isFetching then
            r.fetches ++ [⟨w.state, runtime.shutdown⟩]
          else r.fetches }
  else none

/-- Nothing is checked again between the reservation and the fetch. -/
def resumeReservation (w : WorkerInstance) (r : ActiveRun) (remaining : ℕ) :
    Option WorkerInstance :=
  match r.runtime.fetch with
  | .reserving held =>
    match LeaseAdmission.reserveMore remaining r.runtime.admission held with
    | .suspended admission held =>
      some (w.withRun { r with runtime := { r.runtime with admission, fetch := .reserving held } })
    | .reserved admission permits =>
      some (w.withRun { r with
        runtime := { r.runtime with admission, fetch := .fetching permits permits.length }
        fetches := r.fetches ++ [⟨w.state, r.runtime.shutdown⟩] })
  | _ => none

def start (w : WorkerInstance) (installation : Installation) : Option WorkerInstance :=
  match WorkerRun.new w.concurrency, installation with
  | .error _, _ => none
  | .ok _, .refused => some { w with state := .idle, run := none }
  | .ok runtime, .installed =>
    some { w with state := .running, run := some { runtime, signalsInstalled := true } }
  | .ok runtime, .notInstalled =>
    some { w with state := .running, run := some { runtime, signalsInstalled := false } }

/-- The coordinator has returned, or raised out of its cleanup once both loops were done. -/
def coordinatorLeft (r : ActiveRun) : Bool :=
  match r.runtime.coordinator with
  | .ended => true
  | .cancelledInCleanup => r.runtime.fetchDone && r.runtime.heartbeatDone
  | _ => false

def next (w : WorkerInstance) (event : Event) : Option WorkerInstance :=
  match event, w.run with
  | .start installation, none => w.start installation
  | .signal, some r => if r.signalsInstalled then some (w.requestTermination r) else none
  | .stop, some r => some (w.requestTermination r)
  | .heartbeat event, some r => w.heartbeatLoop r event
  | .reservationResumes remaining, some r => w.resumeReservation r remaining
  | .runtime step, some r => w.runtimeStep r step
  | .startReturns, some r =>
    if coordinatorLeft r then some { w with state := .idle, run := none } else none
  | _, _ => none

end WorkerInstance

end OpenJobSpec.Worker
