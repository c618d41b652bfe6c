import OpenJobSpec.Foundation.Runs

/-! # The event-loop thread of the synchronous client

A `SyncRunner` owns the thread that runs an event loop, and each `run` or `close` is a call of some
other thread with a coroutine of its own. A move is one step of a call, of an event-loop thread or
of a coroutine, so a list of moves is one interleaving of all of them. A fault is a move in which
the environment fails a call: the thread cannot be started, a wait of five seconds expires or a
wait for a result is interrupted.

A coroutine ends with a value or with an exception. One that ends its thread (`SystemExit`) is left
out, and so is a thread whose loop cannot be made.
-/
namespace OpenJobSpec.SyncRunner
variable {ε α : Type*}

inductive Kind
  | run
  | close
  deriving DecidableEq

/-- What a call raises: what its coroutine raised, an interrupt of its wait or an error of its
own. -/
inductive Failure (ε : Type*)
  | own (error : ε)
  | interrupted
  | runtimeError (message : String)
  deriving DecidableEq

/-- A `run` returns the value of its coroutine, and a `close` returns nothing. -/
abbrev Answer (ε α : Type*) := Except (Failure ε) (Option α)

inductive Coroutine (ε α : Type*)
  | created
  | discarded
  | scheduled (loop : ℕ)
  | finished (outcome : Except ε α)
  deriving DecidableEq

/-- Where a call is, with its local variables `loop`, `thread` and `cleanup_error`. -/
inductive Place (ε α : Type*)
  | submissionLock
  | stateLock
  | starting
  | ready
  | submitting (loop : ℕ) (thread : Option ℕ)
  | result (loop : ℕ) (thread : Option ℕ)
  | marking (loop : ℕ) (thread : Option ℕ) (cleanupError : Option (Failure ε))
  | stopping (loop : ℕ) (thread : Option ℕ) (cleanupError : Option (Failure ε))
  | joining (thread : ℕ) (cleanupError : Option (Failure ε))
  | ended (answer : Answer ε α)
  deriving DecidableEq

structure Call (ε α : Type*) where
  kind : Kind
  place : Place ε α
  coroutine : Coroutine ε α
  deriving DecidableEq

/-- Where an event-loop thread is in `_run_loop`; its loop has its number. -/
inductive Phase
  | unstarted
  | starting
  | created
  | running
  | draining (pending : List ℕ)
  | stopped
  deriving DecidableEq

structure Worker where
  phase : Phase
  stopRequested : Bool
  deriving DecidableEq

structure Runner (ε α : Type*) where
  closed : Bool
  loop : Option ℕ
  thread : Option ℕ
  ready : Bool
  submissionLock : Option ℕ
  stateLock : Option ℕ
  workers : List Worker
  calls : List (Call ε α)

def fresh : Runner ε α where
  closed := false
  loop := none
  thread := none
  ready := false
  submissionLock := none
  stateLock := none
  workers := []
  calls := []

inductive Move (ε α : Type*)
  | call (kind : Kind)
  | caller (k : ℕ) (fault : Bool)
  | worker (w : ℕ)
  | coroutine (k : ℕ) (outcome : Except ε α)

namespace Runner

def put (s : Runner ε α) (k : ℕ) (call : Call ε α) : Runner ε α :=
  { s with calls := s.calls.set k call }

def setWorker (s : Runner ε α) (w : ℕ) (worker : Worker) : Runner ε α :=
  { s with workers := s.workers.set w worker }

/-- The end of a `with` block: its call no longer holds the lock. -/
def release (lock : Option ℕ) (k : ℕ) : Option ℕ := if lock = some k then none else lock

/-- The call ends, out of the `with` blocks that it is in. -/
def leave (s : Runner ε α) (k : ℕ) (call : Call ε α) (coroutine : Coroutine ε α)
    (answer : Answer ε α) : Runner ε α :=
  { s.put k { call with place := .ended answer, coroutine := coroutine } with
    submissionLock := release s.submissionLock k
    stateLock := release s.stateLock k }

/-- A loop was found: `_ensure_loop` returns it, and `close` also reads `_thread`. -/
def found (s : Runner ε α) (k : ℕ) (call : Call ε α) (loop : ℕ) : Runner ε α :=
  let thread := match call.kind with
    | .run => none
    | .close => s.thread
  { s.put k { call with place := .submitting loop thread } with
    stateLock := release s.stateLock k }

/-- No loop could be started: `run` closes its coroutine before it raises, `close` only raises. -/
def refused (s : Runner ε α) (k : ℕ) (call : Call ε α) (message : String) : Runner ε α :=
  let coroutine := match call.kind with
    | .run => .discarded
    | .close => call.coroutine
  s.leave k call coroutine (.error (.runtimeError message))

/-- The first branches of `_ensure_loop` and `close`, and `_start_loop_locked` up to its wait. -/
def start (s : Runner ε α) (k : ℕ) (call : Call ε α) (fault : Bool) : Option (Runner ε α) :=
  match s.closed, s.loop, fault with
  | true, _, false =>
    match call.kind with
    | .run => some (s.leave k call .discarded
        (.error (.runtimeError "SyncClient is closed")))
    | .close => some (s.leave k call .discarded (.ok none))
  | true, _, true => none
  | false, some loop, false => some (s.found k call loop)
  | false, some _, true => none
  | false, none, false => some
    { s.put k { call with place := .ready } with
      ready := false
      thread := some s.workers.length
      workers := s.workers ++ [⟨.starting, false⟩] }
  | false, none, true => some
    { s.refused k call "can't start new thread" with
      ready := false
      thread := some s.workers.length
      workers := s.workers ++ [⟨.unstarted, false⟩] }

/-- What `close` returns or raises at its end. -/
def closing : Option (Failure ε) → Answer ε α
  | none => .ok none
  | some error => .error error

/-- The `cleanup_error` of `close`. -/
def cleanupErrorOf : Except (Failure ε) α → Option (Failure ε)
  | .ok _ => none
  | .error error => some error

/-- The end of the wait for the result: `run` passes it on, `close` goes on to its cleanup. -/
def resume (s : Runner ε α) (k : ℕ) (call : Call ε α) (loop : ℕ) (thread : Option ℕ)
    (result : Except (Failure ε) α) : Runner ε α :=
  match call.kind with
  | .run => s.leave k call call.coroutine (result.map some)
  | .close => s.put k { call with place := .marking loop thread (cleanupErrorOf result) }

/-- `asyncio.run_coroutine_threadsafe`, which raises on a closed loop. -/
def submit (s : Runner ε α) (k : ℕ) (call : Call ε α) (loop : ℕ) (thread : Option ℕ) :
    Option (Runner ε α) :=
  s.workers[loop]?.map fun worker =>
    if worker.phase = .stopped then
      s.resume k call loop thread (.error (.runtimeError "Event loop is closed"))
    else s.put k { call with place := .result loop thread, coroutine := .scheduled loop }

/-- `loop.call_soon_threadsafe(loop.stop)`, and whether a thread is joined then. -/
def stop (s : Runner ε α) (k : ℕ) (call : Call ε α) (loop : ℕ) (thread : Option ℕ)
    (cleanupError : Option (Failure ε)) : Option (Runner ε α) :=
  s.workers[loop]?.map fun worker =>
    if worker.phase = .stopped then
      s.leave k call call.coroutine (.error (.runtimeError "Event loop is closed"))
    else
      let t := s.setWorker loop { worker with stopRequested := true }
      match thread with
      | none => t.leave k call call.coroutine (closing cleanupError)
      | some thread => t.put k { call with place := .joining thread cleanupError }

/-- `thread.join(timeout=5.0)` and the test of `thread.is_alive()`; the wait expires by a fault. -/
def join (s : Runner ε α) (k : ℕ) (call : Call ε α) (thread : ℕ)
    (cleanupError : Option (Failure ε)) (fault : Bool) : Option (Runner ε α) :=
  s.workers[thread]?.bind fun worker =>
    match worker.phase, fault with
    | .stopped, false => some (s.leave k call call.coroutine (closing cleanupError))
    | .stopped, true => none
    | .unstarted, false => some (s.leave k call call.coroutine
        (.error (.runtimeError "cannot join thread before it is started")))
    | .unstarted, true => none
    | _, false => none
    | _, true => some (s.leave k call call.coroutine
        (.error (.runtimeError "SyncClient event-loop thread did not stop")))

/-- The next step of a call, if it is not waiting. -/
def advance (s : Runner ε α) (k : ℕ) (call : Call ε α) (fault : Bool) : Option (Runner ε α) :=
  match call.place, fault with
  | .submissionLock, false =>
    if s.submissionLock = none then
      some { s.put k { call with place := .stateLock } with submissionLock := some k }
    else none
  | .stateLock, false =>
    if s.stateLock = none then
      some { s.put k { call with place := .starting } with stateLock := some k }
    else none
  | .starting, fault => s.start k call fault
  | .ready, false =>
    if s.ready then
      match s.loop with
      | some loop => some (s.found k call loop)
      | none => some (s.refused k call "SyncClient event loop was not initialized")
    else none
  | .ready, true =>
    if s.ready then none
    else some (s.refused k call "SyncClient event-loop thread failed to start")
  | .submitting loop thread, false => s.submit k call loop thread
  | .result loop thread, false =>
    match call.coroutine with
    | .finished outcome => some (s.resume k call loop thread (outcome.mapError .own))
    | _ => none
  | .result loop thread, true => some (s.resume k call loop thread (.error .interrupted))
  | .marking loop thread cleanupError, false =>
    if s.stateLock = none then
      some { s.put k { call with place := .stopping loop thread cleanupError } with closed := true }
    else none
  | .stopping loop thread cleanupError, false => s.stop k call loop thread cleanupError
  | .joining thread cleanupError, fault => s.join k call thread cleanupError fault
  | _, _ => none

/-- What a call can do in one step, and when. -/
inductive Advanced (s : Runner ε α) (k : ℕ) (call : Call ε α) : Bool → Runner ε α → Prop
  | enter (hplace : call.place = .submissionLock) (hfree : s.submissionLock = none) :
    Advanced s k call false
      { s.put k { call with place := .stateLock } with submissionLock := some k }
  | enterState (hplace : call.place = .stateLock) (hfree : s.stateLock = none) :
    Advanced s k call false { s.put k { call with place := .starting } with stateLock := some k }
  | start {fault : Bool} {s' : Runner ε α} (hplace : call.place = .starting)
    (hs : s.start k call fault = some s') : Advanced s k call fault s'
  | found {loop : ℕ} (hplace : call.place = .ready) (hready : s.ready = true)
    (hloop : s.loop = some loop) : Advanced s k call false (s.found k call loop)
  | uninitialized (hplace : call.place = .ready) (hready : s.ready = true)
    (hloop : s.loop = none) :
    Advanced s k call false (s.refused k call "SyncClient event loop was not initialized")
  | expired (hplace : call.place = .ready) (hready : s.ready = false) :
    Advanced s k call true (s.refused k call "SyncClient event-loop thread failed to start")
  | submit {loop : ℕ} {thread : Option ℕ} {s' : Runner ε α}
    (hplace : call.place = .submitting loop thread) (hs : s.submit k call loop thread = some s') :
    Advanced s k call false s'
  | returned {loop : ℕ} {thread : Option ℕ} {outcome : Except ε α}
    (hplace : call.place = .result loop thread) (houtcome : call.coroutine = .finished outcome) :
    Advanced s k call false (s.resume k call loop thread (outcome.mapError .own))
  | interrupted {loop : ℕ} {thread : Option ℕ} (hplace : call.place = .result loop thread) :
    Advanced s k call true (s.resume k call loop thread (.error .interrupted))
  | mark {loop : ℕ} {thread : Option ℕ} {cleanupError : Option (Failure ε)}
    (hplace : call.place = .marking loop thread cleanupError) (hfree : s.stateLock = none) :
    Advanced s k call false
      { s.put k { call with place := .stopping loop thread cleanupError } with closed := true }
  | stop {loop : ℕ} {thread : Option ℕ} {cleanupError : Option (Failure ε)} {s' : Runner ε α}
    (hplace : call.place = .stopping loop thread cleanupError)
    (hs : s.stop k call loop thread cleanupError = some s') : Advanced s k call false s'
  | join {thread : ℕ} {cleanupError : Option (Failure ε)} {fault : Bool} {s' : Runner ε α}
    (hplace : call.place = .joining thread cleanupError)
    (hs : s.join k call thread cleanupError fault = some s') : Advanced s k call fault s'

theorem advanced_of_advance {s s' : Runner ε α} {k : ℕ} {call : Call ε α} {fault : Bool}
    (hs : s.advance k call fault = some s') : s.Advanced k call fault s' := by
  unfold advance at hs
  cases hplace : call.place with
  | submissionLock =>
    cases fault with
    | false =>
      simp only [hplace, Option.ite_none_right_eq_some, Option.some.injEq] at hs
      obtain ⟨hfree, rfl⟩ := hs
      exact .enter hplace hfree
    | true => simp [hplace] at hs
  | stateLock =>
    cases fault with
    | false =>
      simp only [hplace, Option.ite_none_right_eq_some, Option.some.injEq] at hs
      obtain ⟨hfree, rfl⟩ := hs
      exact .enterState hplace hfree
    | true => simp [hplace] at hs
  | starting =>
    simp only [hplace] at hs
    exact .start hplace hs
  | ready =>
    cases fault with
    | false =>
      simp only [hplace, Option.ite_none_right_eq_some] at hs
      obtain ⟨hready, hs⟩ := hs
      cases hloop : s.loop with
      | some loop =>
        simp only [hloop, Option.some.injEq] at hs
        exact hs ▸ .found hplace hready hloop
      | none =>
        simp only [hloop, Option.some.injEq] at hs
        exact hs ▸ .uninitialized hplace hready hloop
    | true =>
      simp only [hplace, Option.ite_none_left_eq_some, Option.some.injEq] at hs
      obtain ⟨hready, rfl⟩ := hs
      exact .expired hplace (Bool.eq_false_iff.mpr hready)
  | submitting loop thread =>
    cases fault with
    | false =>
      simp only [hplace] at hs
      exact .submit hplace hs
    | true => simp [hplace] at hs
  | result loop thread =>
    cases fault with
    | false =>
      simp only [hplace] at hs
      cases hcoroutine : call.coroutine with
      | finished outcome =>
        simp only [hcoroutine, Option.some.injEq] at hs
        exact hs ▸ .returned hplace hcoroutine
      | created => simp [hcoroutine] at hs
      | discarded => simp [hcoroutine] at hs
      | scheduled w => simp [hcoroutine] at hs
    | true =>
      simp only [hplace, Option.some.injEq] at hs
      exact hs ▸ .interrupted hplace
  | marking loop thread cleanupError =>
    cases fault with
    | false =>
      simp only [hplace, Option.ite_none_right_eq_some, Option.some.injEq] at hs
      obtain ⟨hfree, rfl⟩ := hs
      exact .mark hplace hfree
    | true => simp [hplace] at hs
  | stopping loop thread cleanupError =>
    cases fault with
    | false =>
      simp only [hplace] at hs
      exact .stop hplace hs
    | true => simp [hplace] at hs
  | joining thread cleanupError =>
    simp only [hplace] at hs
    exact .join hplace hs
  | ended answer => simp [hplace] at hs

/-- The tasks of a loop that are not done. -/
def pending (s : Runner ε α) (w : ℕ) : List ℕ :=
  (List.range s.calls.length).filter fun k =>
    match s.calls[k]? with
    | some ⟨_, _, .scheduled loop⟩ => loop == w
    | _ => false

def isFinished (s : Runner ε α) (k : ℕ) : Bool :=
  match s.calls[k]? with
  | some ⟨_, _, .finished _⟩ => true
  | _ => false

/-- The next step of `_run_loop`, if it is not waiting. -/
def runLoop (s : Runner ε α) (w : ℕ) (worker : Worker) : Option (Runner ε α) :=
  match worker.phase with
  | .unstarted => none
  | .starting => some { s.setWorker w { worker with phase := .created } with loop := some w }
  | .created => some { s.setWorker w { worker with phase := .running } with ready := true }
  | .running =>
    if worker.stopRequested then
      some (s.setWorker w { worker with phase := .draining (s.pending w) })
    else none
  | .draining tasks =>
    if tasks.all s.isFinished then some (s.setWorker w { worker with phase := .stopped })
    else none
  | .stopped => none

/-- A coroutine ends on the loop that it was scheduled on, while that loop runs. -/
def finish (s : Runner ε α) (k : ℕ) (call : Call ε α) (outcome : Except ε α) :
    Option (Runner ε α) :=
  match call.coroutine with
  | .scheduled loop =>
    s.workers[loop]?.bind fun worker =>
      match worker.phase with
      | .running | .draining _ => some (s.put k { call with coroutine := .finished outcome })
      | _ => none
  | _ => none

def next (s : Runner ε α) : Move ε α → Option (Runner ε α)
  | .call kind => some { s with calls := s.calls ++ [⟨kind, .submissionLock, .created⟩] }
  | .caller k fault => s.calls[k]?.bind fun call => s.advance k call fault
  | .worker w => s.workers[w]?.bind fun worker => s.runLoop w worker
  | .coroutine k outcome => s.calls[k]?.bind fun call => s.finish k call outcome

/-- The runner after an interleaving, from its construction on. -/
def after (moves : List (Move ε α)) : Runner ε α := Runs.run next fresh moves

end Runner

end OpenJobSpec.SyncRunner
