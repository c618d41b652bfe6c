import OpenJobSpec.Client.EnqueueMiddleware
import OpenJobSpec.Foundation.Runs
import OpenJobSpec.Foundation.IndexedUpdates

/-! # Batch enqueue around one atomic push

Each request has its own chain, driven as a task of its own up to its terminal.
The coroutine of the batch waits at a barrier until every chain has reached its
terminal or settled, pushes once, and resolves the terminals. A step is what one
chain or the batch does from one point to the next, so a list of steps is an
interleaving.
-/
namespace OpenJobSpec.Client
open Runs IndexedUpdates

inductive FutureState
  | pending
  | result (job : Job)
  | exception (error : Exn)
  | cancelled
deriving DecidableEq

structure BatchTerminal where
  request : JobRequest
  future : FutureState
deriving DecidableEq

inductive ChainPhase (W : Type)
  | created
  | executing (execution : Execution W)
  | settled (reply : Reply)

/-- One slot of the lists that the batch keeps by index. -/
structure BatchItem (W : Type) where
  request : JobRequest
  chain : ChainPhase W := .created
  reached : Bool := false
  terminalError : Option Exn := none
  terminal : Option BatchTerminal := none
  /-- the gate is set -/
  decided : Bool := false
  finalResult : Option Job := none
  chainError : Option Exn := none

namespace BatchItem

variable {W : Type}

def reinvoked : Exn := .ojsError ("Batch enqueue terminal re-invoked before its single "
  ++ "atomic transport attempt settled; whole-batch transport retry is not supported.")

/-- The terminal call: the first one is validated and then waits, any other one fails. -/
def dispatch (item : BatchItem W) (candidate : JobRequest) (callers : List (Frame W)) :
    BatchItem W :=
  let fail := fun e : Exn => ChainPhase.executing (.replying (.error (.exception e)) callers)
  if item.reached then
    match item.terminalError with
    | some e => { item with chain := fail e }
    | none => { item with chain := fail reinvoked }
  else
    match validateRequest candidate with
    | .error e => { item with reached := true, terminalError := some e, chain := fail e }
    | .ok () =>
      { item with
        reached := true, terminal := some ⟨candidate, .pending⟩, decided := true
        chain := .executing (.calling callers) }

/-- The end of `run_chain`. A cancellation is no `Exception`, and leaves no error behind. -/
def settle (item : BatchItem W) (reply : Reply) : BatchItem W :=
  let ended := { item with chain := .settled reply, decided := true }
  match reply with
  | .ok result => { ended with finalResult := result }
  | .error (.exception e) => { ended with chainError := some e }
  | .error .cancelled => ended

def awaited : FutureState → Option Reply
  | .pending => none
  | .result job => some (.ok (some job))
  | .exception e => some (.error (.exception e))
  | .cancelled => some (.error .cancelled)

def proceed (middlewares : List (EnqueueMiddleware W)) (world : W) (item : BatchItem W) :
    Option (BatchItem W) :=
  match item.chain with
  | .created =>
    match validateRequest item.request with
    | .error e => some (item.settle (.error (.exception e)))
    | .ok () => some { item with chain := .executing (execute middlewares item.request) }
  | .executing (.building [] candidate callers) => some (item.dispatch candidate callers)
  | .executing (.calling callers) => do
    let terminal ← item.terminal
    let reply ← awaited terminal.future
    return { item with chain := .executing (.replying reply callers) }
  | .executing (.replying reply []) => some (item.settle reply)
  | .executing execution => do
    let execution ← execution.proceed world
    return { item with chain := .executing execution }
  | .settled _ => none


/-- A future that is not done takes an outcome. -/
def resolve (outcome : FutureState) (item : BatchItem W) : BatchItem W :=
  match item.terminal with
  | some ⟨request, .pending⟩ => { item with terminal := some ⟨request, outcome⟩ }
  | _ => item

/-- The task is cancelled where it waits; before its first step nothing of it ever runs. -/
def cancel (world : W) (item : BatchItem W) : Option (BatchItem W) :=
  match item.chain with
  | .created => some { item with chain := .settled (.error .cancelled) }
  | .executing (.waiting frame callers) =>
    some { item with chain := .executing (.acting (frame.observe (.cancelled world)) callers) }
  | .executing (.calling callers) =>
    some { item.resolve .cancelled with
      chain := .executing (.replying (.error .cancelled) callers) }
  | _ => none

def isSettled (item : BatchItem W) : Bool :=
  match item.chain with
  | .settled _ => true
  | _ => false

end BatchItem

inductive BatchPhase
  | barrier
  /-- inside `push_batch`, with the indices of the terminals and their requests -/
  | pushing (pending : List (ℕ × JobRequest))
  /-- waits for the chains, to raise the error afterwards -/
  | failing (error : Exn)
  | settling
  /-- the batch was cancelled, and waits for its tasks -/
  | unwinding
  | returned (jobs : List Job)
  | raised (error : Raised)

structure BatchRun (W : Type) where
  items : List (BatchItem W)
  phase : BatchPhase
  /-- the payloads of the calls of `push_batch` -/
  pushes : List (List JobRequest) := []
  /-- the jobs that `push_batch` returned -/
  response : Option (List Job) := none

inductive BatchStep (W : Type)
  | chain (index : ℕ) (world : W)
  | cancelChain (index : ℕ) (world : W)
  | barrierOpens
  | pushReturns (jobs : List Job)
  | pushFails (error : Exn)
  | chainsGathered
  | cancelled

namespace BatchRun

variable {W : Type}

def start (requests : List JobRequest) : BatchRun W where
  items := requests.map fun request => { request }
  phase := if requests = [] then .returned [] else .barrier

def rejectedItem (index : ℕ) : Exn :=
  .ojsError ("Enqueue middleware rejected batch item at index " ++ toString index)

/-- An item without a terminal whose chain left neither a result nor an error is rejected. -/
def rejectSilent (index : ℕ) (item : BatchItem W) : BatchItem W :=
  if item.terminal = none ∧ item.chainError = none ∧ item.finalResult = none then
    { item with chainError := some (rejectedItem index) }
  else item

def firstError (items : List (BatchItem W)) : Option Exn :=
  (items.filterMap BatchItem.chainError).head?

/-- `[(i, t) for i, t in enumerate(terminals) if t is not None]` -/
def pending (items : List (BatchItem W)) : List (ℕ × JobRequest) :=
  items.zipIdx.filterMap fun (item, index) => item.terminal.map fun t => (index, t.request)

def openBarrier (s : BatchRun W) : BatchRun W :=
  let items := s.items.mapIdx rejectSilent
  match firstError items with
  | some e =>
    { s with items := items.map (BatchItem.resolve (.exception e)), phase := .failing e }
  | none =>
    if pending items = [] then { s with items, phase := .settling }
    else
      { s with
        items, phase := .pushing (pending items)
        pushes := s.pushes ++ [(pending items).map Prod.snd] }

def failures (pending : List (ℕ × JobRequest)) (e : Exn) : List (ℕ × Exn) :=
  pending.map fun (index, _) => (index, e)

/-- Each job that the transport returned, with the index of the terminal it belongs to. -/
def dispatched (pending : List (ℕ × JobRequest)) (jobs : List Job) : List (ℕ × Job) :=
  (pending.zip jobs).map fun ((index, _), job) => (index, job)

def pushFailed (s : BatchRun W) (pending : List (ℕ × JobRequest)) (e : Exn) : BatchRun W :=
  { s with
    items := updateAll (fun e => BatchItem.resolve (.exception e)) (failures pending e) s.items
    phase := .failing e }

def wrongNumber (jobs : List Job) (pending : List (ℕ × JobRequest)) : Exn :=
  .ojsError ("Batch enqueue transport returned a different number of jobs ("
    ++ toString jobs.length ++ " != " ++ toString pending.length ++ ")")

def pushReturned (s : BatchRun W) (pending : List (ℕ × JobRequest)) (jobs : List Job) :
    BatchRun W :=
  if jobs.length ≠ pending.length then
    { s with response := some jobs }.pushFailed pending (wrongNumber jobs pending)
  else
    { s with
      response := some jobs
      items := updateAll (fun job => BatchItem.resolve (.result job)) (dispatched pending jobs)
        s.items
      phase := .settling }

def conclude (s : BatchRun W) : BatchRun W :=
  match firstError s.items with
  | some e => { s with phase := .raised (.exception e) }
  | none => { s with phase := .returned (s.items.filterMap BatchItem.finalResult) }

def next (middlewares : List (EnqueueMiddleware W)) (s : BatchRun W) (step : BatchStep W) :
    Option (BatchRun W) :=
  match step, s.phase with
  | .chain index world, _ => do
    let item ← s.items[index]?
    let item ← item.proceed middlewares world
    return { s with items := s.items.set index item }
  | .cancelChain index world, _ => do
    let item ← s.items[index]?
    let item ← item.cancel world
    return { s with items := s.items.set index item }
  | .barrierOpens, .barrier => if s.items.all BatchItem.decided then some s.openBarrier else none
  | .pushReturns jobs, .pushing pending => some (s.pushReturned pending jobs)
  | .pushFails e, .pushing pending => some (s.pushFailed pending e)
  | .chainsGathered, .failing e =>
    if s.items.all BatchItem.isSettled then some { s with phase := .raised (.exception e) }
    else none
  | .chainsGathered, .settling =>
    if s.items.all BatchItem.isSettled then some s.conclude else none
  | .chainsGathered, .unwinding =>
    if s.items.all BatchItem.isSettled then some { s with phase := .raised .cancelled } else none
  | .cancelled, .barrier | .cancelled, .pushing _ | .cancelled, .failing _
  | .cancelled, .settling => some { s with phase := .unwinding }
  | _, _ => none

end BatchRun

end OpenJobSpec.Client
