import OpenJobSpec.Client.SyncRunner

/-! # What every interleaving of the synchronous client keeps

Only the call that holds the submission lock is past its first line, so a step of
a call meets no other call half way. The event loop is closed only after the
runner, and a coroutine is handed to a loop only before that.
-/
namespace OpenJobSpec.SyncRunner
variable {ε α : Type*}

/-- The call is within `with self._submission_lock`. -/
def Place.inside : Place ε α → Bool
  | .submissionLock | .ended _ => false
  | _ => true

/-- The call is within the `with self._state_lock` that may start the loop. -/
def Place.holdsState : Place ε α → Bool
  | .starting | .ready => true
  | _ => false

/-- The coroutine was handed to a loop. -/
def Coroutine.Submitted (coroutine : Coroutine ε α) : Prop :=
  (∃ loop, coroutine = .scheduled loop) ∨ ∃ outcome, coroutine = .finished outcome

/-- What a failed `_start_loop_locked` raises. -/
def StartFailure (message : String) : Prop :=
  message = "can't start new thread" ∨
    message = "SyncClient event-loop thread failed to start"

/-- The `cleanup_error` of a `close` that handed its coroutine to the loop. -/
inductive Cleaned : Coroutine ε α → Option (Failure ε) → Prop
  | returned (value : α) : Cleaned (.finished (.ok value)) none
  | raised (error : ε) : Cleaned (.finished (.error error)) (some (.own error))
  | interrupted {coroutine : Coroutine ε α} (h : coroutine.Submitted) :
    Cleaned coroutine (some .interrupted)

theorem Cleaned.submitted {coroutine : Coroutine ε α} {cleanupError : Option (Failure ε)}
    (h : Cleaned coroutine cleanupError) : coroutine.Submitted := by
  cases h with
  | returned value => exact .inr ⟨_, rfl⟩
  | raised error => exact .inr ⟨_, rfl⟩
  | interrupted h => exact h

/-- The answers that a call can end with, and what became of its coroutine. -/
inductive Answered (closed : Bool) : Kind → Coroutine ε α → Answer ε α → Prop
  | returned (value : α) : Answered closed .run (.finished (.ok value)) (.ok (some value))
  | raised (error : ε) : Answered closed .run (.finished (.error error)) (.error (.own error))
  | interrupted {coroutine : Coroutine ε α} (h : coroutine.Submitted) :
    Answered closed .run coroutine (.error .interrupted)
  | refused (h : closed = true) :
    Answered closed .run .discarded (.error (.runtimeError "SyncClient is closed"))
  | notStarted {message : String} (h : StartFailure message) :
    Answered closed .run .discarded (.error (.runtimeError message))
  | closedBefore (h : closed = true) : Answered closed .close .discarded (.ok none)
  | notClosed {message : String} (h : StartFailure message) :
    Answered closed .close .created (.error (.runtimeError message))
  | cleaned {coroutine : Coroutine ε α} {cleanupError : Option (Failure ε)} (h : closed = true)
    (hcleaned : Cleaned coroutine cleanupError) :
    Answered closed .close coroutine (Runner.closing cleanupError)
  | notStopped {coroutine : Coroutine ε α} {message : String} (h : closed = true)
    (hcoroutine : coroutine.Submitted)
    (hmessage : message = "SyncClient event-loop thread did not stop" ∨
      message = "cannot join thread before it is started") :
    Answered closed .close coroutine (.error (.runtimeError message))

/-- The worker has assigned its loop to `_loop`. -/
def Phase.HasLoop (phase : Phase) : Prop := phase ≠ .unstarted ∧ phase ≠ .starting

/-- A coroutine of the call `k` can still end on the loop of this worker. -/
def Phase.Serves (phase : Phase) (k : ℕ) : Prop :=
  phase = .created ∨ phase = .running ∨ ∃ tasks, phase = .draining tasks ∧ k ∈ tasks

namespace Runner

/-- The loop and, for a `close`, the thread that the call has read. -/
def Read (s : Runner ε α) (kind : Kind) (loop : ℕ) (thread : Option ℕ) : Prop :=
  (∃ worker, s.workers[loop]? = some worker ∧ worker.phase.HasLoop) ∧
    (kind = .close → ∃ t, thread = some t ∧ t < s.workers.length)

/-- What holds of a call at its place. -/
def CallOk (s : Runner ε α) (k : ℕ) (call : Call ε α) : Prop :=
  match call.place with
  | .submissionLock | .stateLock => call.coroutine = .created
  | .starting => call.coroutine = .created ∧ s.stateLock = some k
  | .ready => call.coroutine = .created ∧ s.stateLock = some k ∧ s.closed = false ∧
      (s.ready = true ∨ ∃ (w : ℕ) (worker : Worker), s.workers[w]? = some worker ∧
        (worker.phase = .starting ∨ worker.phase = .created))
  | .submitting loop thread =>
      call.coroutine = .created ∧ s.closed = false ∧ s.Read call.kind loop thread
  | .result loop thread =>
      (call.coroutine = .scheduled loop ∨ ∃ outcome, call.coroutine = .finished outcome) ∧
        s.closed = false ∧ s.Read call.kind loop thread
  | .marking loop thread cleanupError =>
      call.kind = .close ∧ Cleaned call.coroutine cleanupError ∧ s.closed = false ∧
        s.Read call.kind loop thread
  | .stopping loop thread cleanupError =>
      call.kind = .close ∧ Cleaned call.coroutine cleanupError ∧ s.closed = true ∧
        s.Read call.kind loop thread ∧
        ∀ (w : ℕ) worker, s.workers[w]? = some worker → worker.stopRequested = false
  | .joining thread cleanupError =>
      call.kind = .close ∧ Cleaned call.coroutine cleanupError ∧ s.closed = true ∧
        thread < s.workers.length
  | .ended answer => Answered s.closed call.kind call.coroutine answer

/-- A worker is told to stop only by a closed runner, and leaves its loop only when told. -/
structure WorkerOk (s : Runner ε α) (worker : Worker) : Prop where
  closed : worker.stopRequested = true → s.closed = true
  stopping : worker.phase = .stopped ∨ (∃ tasks, worker.phase = .draining tasks) →
    worker.stopRequested = true
  loop : worker.phase.HasLoop → s.loop ≠ none

structure Invariant (s : Runner ε α) : Prop where
  mutex : ∀ k call, s.calls[k]? = some call →
    (call.place.inside = true ↔ s.submissionLock = some k)
  holder : ∀ k, s.submissionLock = some k → k < s.calls.length
  state : ∀ k, s.stateLock = some k →
    ∃ call, s.calls[k]? = some call ∧ call.place.holdsState = true
  call : ∀ k call, s.calls[k]? = some call → s.CallOk k call
  worker : ∀ (w : ℕ) worker, s.workers[w]? = some worker → s.WorkerOk worker
  loop : ∀ w, s.loop = some w → ∃ worker, s.workers[w]? = some worker ∧ worker.phase.HasLoop
  thread : s.workers ≠ [] → ∃ t, s.thread = some t ∧ t < s.workers.length
  ready : s.ready = true → s.loop ≠ none
  task : ∀ k call (w : ℕ), s.calls[k]? = some call → call.coroutine = .scheduled w →
    ∃ worker, s.workers[w]? = some worker ∧ worker.phase.Serves k

variable {s s' : Runner ε α} {k j : ℕ} {call : Call ε α}

theorem invariant_fresh : Invariant (fresh : Runner ε α) where
  mutex := by simp [fresh]
  holder := by simp [fresh]
  state := by simp [fresh]
  call := by simp [fresh]
  worker := by simp [fresh]
  loop := by simp [fresh]
  thread := by simp [fresh]
  ready := by simp [fresh]
  task := by simp [fresh]

/-! ## Steps of the calls -/

/-- Outside the lock a call depends on nothing but whether the runner is closed. -/
theorem CallOk.of_outside (h : s.CallOk k call) (houtside : call.place.inside = false)
    (hclosed : s.closed = true → s'.closed = true) : s'.CallOk k call := by
  obtain ⟨kind, place, coroutine⟩ := call
  cases place with
  | submissionLock => exact h
  | ended answer =>
    change Answered s'.closed kind coroutine answer
    change Answered s.closed kind coroutine answer at h
    cases h with
    | returned value => exact .returned value
    | raised error => exact .raised error
    | interrupted h => exact .interrupted h
    | refused h => exact .refused (hclosed h)
    | notStarted h => exact .notStarted h
    | closedBefore h => exact .closedBefore (hclosed h)
    | notClosed h => exact .notClosed h
    | cleaned h hcleaned => exact .cleaned (hclosed h) hcleaned
    | notStopped h hcoroutine hmessage => exact .notStopped (hclosed h) hcoroutine hmessage
  | stateLock => cases houtside
  | starting => cases houtside
  | ready => cases houtside
  | submitting loop thread => cases houtside
  | result loop thread => cases houtside
  | marking loop thread cleanupError => cases houtside
  | stopping loop thread cleanupError => cases houtside
  | joining thread cleanupError => cases houtside

theorem WorkerOk.mono {worker : Worker} (h : s.WorkerOk worker)
    (hclosed : s.closed = true → s'.closed = true) (hloop : s.loop ≠ none → s'.loop ≠ none) :
    s'.WorkerOk worker :=
  ⟨fun hstop => hclosed (h.closed hstop), h.stopping, fun hhas => hloop (h.loop hhas)⟩

/-- A step of a call that is alone within the submission lock: only what it changed is to be
looked at. -/
theorem Invariant.of_caller (h : Invariant s) (hk : s.calls[k]? = some call)
    (call' : Call ε α) (hcalls : s'.calls = s.calls.set k call')
    (hbefore : s.submissionLock = none ∨ s.submissionLock = some k)
    (hlock : s'.submissionLock = if call'.place.inside then some k else none)
    (hstate : s'.stateLock = if call'.place.holdsState then some k else none)
    (hclosed : s.closed = true → s'.closed = true) (hcall : s'.CallOk k call')
    (hworker : ∀ (w : ℕ) worker, s'.workers[w]? = some worker → s'.WorkerOk worker)
    (hloop : ∀ w, s'.loop = some w →
      ∃ worker, s'.workers[w]? = some worker ∧ worker.phase.HasLoop)
    (hthread : s'.workers ≠ [] → ∃ t, s'.thread = some t ∧ t < s'.workers.length)
    (hready : s'.ready = true → s'.loop ≠ none)
    (hserves : ∀ (w : ℕ) worker j, s.workers[w]? = some worker → worker.phase.Serves j →
      ∃ worker', s'.workers[w]? = some worker' ∧ worker'.phase.Serves j)
    (htask : ∀ w, call'.coroutine = .scheduled w →
      ∃ worker, s'.workers[w]? = some worker ∧ worker.phase.Serves k) : Invariant s' := by
  have hlt : k < s.calls.length := (List.getElem?_eq_some_iff.mp hk).1
  have hself : s'.calls[k]? = some call' := by
    rw [hcalls]
    exact List.getElem?_set_self hlt
  have hother : ∀ j, j ≠ k → s'.calls[j]? = s.calls[j]? := by
    intro j hj
    rw [hcalls]
    exact List.getElem?_set_ne (Ne.symm hj)
  -- no other call is within the lock
  have houtside : ∀ j, j ≠ k → ∀ call, s.calls[j]? = some call → call.place.inside = false := by
    intro j hj call hcall
    rw [Bool.eq_false_iff]
    intro hinside
    rcases hbefore with hnone | hsome
    · exact absurd ((h.mutex j call hcall).mp hinside) (by simp [hnone])
    · have heq := (h.mutex j call hcall).mp hinside
      rw [hsome] at heq
      exact hj (Option.some.inj heq).symm
  refine ⟨?_, ?_, ?_, ?_, hworker, hloop, hthread, hready, ?_⟩
  · intro j callj hj
    by_cases hjk : j = k
    · subst hjk
      rw [hself] at hj
      cases hj
      rw [hlock]
      cases call'.place.inside <;> simp
    · rw [hother j hjk] at hj
      rw [houtside j hjk callj hj, hlock]
      refine iff_of_false Bool.false_ne_true ?_
      split
      · exact fun heq => hjk (Option.some.inj heq).symm
      · rintro ⟨⟩
  · intro j hj
    rw [hlock] at hj
    split at hj
    · cases hj
      rw [hcalls, List.length_set]
      exact hlt
    · cases hj
  · intro j hj
    rw [hstate] at hj
    split at hj
    · cases hj
      exact ⟨call', hself, ‹_›⟩
    · cases hj
  · intro j callj hj
    by_cases hjk : j = k
    · subst hjk
      rw [hself] at hj
      cases hj
      exact hcall
    · rw [hother j hjk] at hj
      exact (h.call j callj hj).of_outside (houtside j hjk callj hj) hclosed
  · intro j callj w hj hscheduled
    by_cases hjk : j = k
    · subst hjk
      rw [hself] at hj
      cases hj
      exact htask w hscheduled
    · rw [hother j hjk] at hj
      obtain ⟨worker, hworker, hserves'⟩ := h.task j callj w hj hscheduled
      exact hserves w worker j hworker hserves'

/-- A step that changes no worker and reads no other call. -/
theorem Invariant.of_caller_same (h : Invariant s) (hk : s.calls[k]? = some call)
    (call' : Call ε α) (hcalls : s'.calls = s.calls.set k call')
    (hbefore : s.submissionLock = none ∨ s.submissionLock = some k)
    (hlock : s'.submissionLock = if call'.place.inside then some k else none)
    (hstate : s'.stateLock = if call'.place.holdsState then some k else none)
    (hclosed : s.closed = true → s'.closed = true) (hworkers : s'.workers = s.workers)
    (hloop : s'.loop = s.loop) (hthread : s'.thread = s.thread) (hready : s'.ready = s.ready)
    (hcoroutine : ∀ w, call'.coroutine = .scheduled w → call.coroutine = .scheduled w)
    (hcall : s'.CallOk k call') : Invariant s' := by
  apply h.of_caller hk call' hcalls hbefore hlock hstate hclosed hcall
  · intro w worker hw
    rw [hworkers] at hw
    exact (h.worker w worker hw).mono hclosed fun hl => by rwa [hloop]
  · rw [hloop, hworkers]
    exact h.loop
  · rw [hworkers, hthread]
    exact h.thread
  · rw [hready, hloop]
    exact h.ready
  · intro w worker j hw hserves
    exact ⟨worker, by rw [hworkers]; exact hw, hserves⟩
  · intro w hw
    rw [hworkers]
    exact h.task k call w hk (hcoroutine w hw)

theorem Invariant.lock_of_inside (h : Invariant s) (hk : s.calls[k]? = some call)
    (hinside : call.place.inside = true) : s.submissionLock = some k :=
  (h.mutex k call hk).mp hinside

/-- Whoever holds the state lock also holds the submission lock. -/
theorem Invariant.state_free (h : Invariant s) (hk : s.calls[k]? = some call)
    (hbefore : s.submissionLock = none ∨ s.submissionLock = some k)
    (hplace : call.place.holdsState = false) : s.stateLock = none := by
  cases hlock : s.stateLock with
  | none => rfl
  | some j =>
    obtain ⟨other, hother, hholds⟩ := h.state j hlock
    have hinside : other.place.inside = true := by
      cases hp : other.place <;> simp_all [Place.holdsState, Place.inside]
    have hj := h.lock_of_inside hother hinside
    rcases hbefore with hnone | hsome
    · rw [hnone] at hj
      cases hj
    · rw [hsome] at hj
      cases hj
      rw [hk] at hother
      cases hother
      rw [hplace] at hholds
      cases hholds

theorem release_self (k : ℕ) : release (some k) k = none := if_pos rfl

theorem release_none (k : ℕ) : release none k = none := if_neg nofun

/-- A call that is within the submission lock ends. -/
theorem Invariant.leave (h : Invariant s) (hk : s.calls[k]? = some call)
    (hinside : call.place.inside = true)
    (hstate : s.stateLock = none ∨ s.stateLock = some k) {coroutine : Coroutine ε α}
    {answer : Answer ε α}
    (hcoroutine : ∀ w, coroutine = .scheduled w → call.coroutine = .scheduled w)
    (hanswer : Answered s.closed call.kind coroutine answer) :
    Invariant (s.leave k call coroutine answer) := by
  have hlock := h.lock_of_inside hk hinside
  apply h.of_caller_same hk { call with place := .ended answer, coroutine := coroutine }
  · rfl
  · exact .inr hlock
  · change release s.submissionLock k = none
    rw [hlock, release_self]
  · change release s.stateLock k = none
    rcases hstate with hs | hs
    · rw [hs, release_none]
    · rw [hs, release_self]
  · exact id
  · rfl
  · rfl
  · rfl
  · rfl
  · exact hcoroutine
  · exact hanswer

/-- A call goes on within the submission lock and outside the state lock. -/
theorem Invariant.put (h : Invariant s) (hk : s.calls[k]? = some call)
    (hinside : call.place.inside = true) (hoff : call.place.holdsState = false)
    (place : Place ε α) (hplace : place.inside = true) (hstate : place.holdsState = false)
    (hcall : s.CallOk k { call with place := place }) :
    Invariant (s.put k { call with place := place }) := by
  have hlock := h.lock_of_inside hk hinside
  apply h.of_caller_same hk { call with place := place }
  · rfl
  · exact .inr hlock
  · rw [hplace]
    exact hlock
  · rw [hstate]
    exact h.state_free hk (.inr hlock) hoff
  · exact id
  · rfl
  · rfl
  · rfl
  · rfl
  · exact fun w hw => hw
  · exact hcall

/-- The call found a loop that some worker has made. -/
theorem Invariant.found (h : Invariant s) (hk : s.calls[k]? = some call)
    (hholds : call.place.holdsState = true) (hcoroutine : call.coroutine = .created)
    (hclosed : s.closed = false) {loop : ℕ} (hloop : s.loop = some loop) :
    Invariant (s.found k call loop) := by
  have hinside : call.place.inside = true := by
    cases hp : call.place <;> simp_all [Place.holdsState, Place.inside]
  have hlock := h.lock_of_inside hk hinside
  have hstate : s.stateLock = some k := by
    have hcall := h.call k call hk
    cases hp : call.place <;> simp_all [Place.holdsState, CallOk]
  obtain ⟨worker, hworker, hhas⟩ := h.loop loop hloop
  have hthread := h.thread (List.ne_nil_of_mem (List.mem_of_getElem? hworker))
  have hleft : release s.stateLock k = none := by rw [hstate, release_self]
  refine h.of_caller_same hk _ rfl (.inr hlock) hlock hleft id rfl rfl rfl rfl ?_ ?_
  · exact fun w hw => hw
  · refine ⟨hcoroutine, hclosed, ⟨worker, hworker, hhas⟩, ?_⟩
    intro hkind
    change call.kind = .close at hkind
    rw [hkind]
    exact hthread

/-- The start of a loop failed. -/
theorem Invariant.refused (h : Invariant s) (hk : s.calls[k]? = some call)
    (hinside : call.place.inside = true)
    (hstate : s.stateLock = some k) (hcoroutine : call.coroutine = .created) {message : String}
    (hmessage : StartFailure message) : Invariant (s.refused k call message) := by
  cases hkind : call.kind with
  | run =>
    rw [Runner.refused, hkind]
    apply h.leave hk hinside (.inr hstate)
    · rintro w ⟨⟩
    · rw [hkind]
      exact .notStarted hmessage
  | close =>
    rw [Runner.refused, hkind]
    apply h.leave hk hinside (.inr hstate)
    · exact fun w hw => hw
    · rw [hkind, hcoroutine]
      exact .notClosed hmessage

/-- A new worker is not in anyone's way: what is known of the others stays. -/
theorem getElem?_append_worker {workers : List Worker} {w : ℕ} {worker new : Worker}
    (h : (workers ++ [new])[w]? = some worker) : workers[w]? = some worker ∨ worker = new := by
  by_cases hw : w < workers.length
  · rw [List.getElem?_append_left hw] at h
    exact .inl h
  · rw [List.getElem?_append_right (Nat.le_of_not_lt hw)] at h
    exact .inr (List.mem_singleton.mp (List.mem_of_getElem? h))

theorem getElem?_append_of_some {workers : List Worker} {w : ℕ} {worker : Worker} (new : Worker)
    (h : workers[w]? = some worker) : (workers ++ [new])[w]? = some worker :=
  (List.getElem?_append_left (List.getElem?_eq_some_iff.mp h).1).trans h

/-- A step that makes a thread, whether or not it can be started. -/
theorem Invariant.spawn (h : Invariant s) (hk : s.calls[k]? = some call)
    (hplace : call.place = .starting) (hloop : s.loop = none) (new : Worker)
    (hnew : new.stopRequested = false ∧ (new.phase = .unstarted ∨ new.phase = .starting))
    (call' : Call ε α) (hcalls : s'.calls = s.calls.set k call')
    (hlock : s'.submissionLock = if call'.place.inside then some k else none)
    (hstate : s'.stateLock = if call'.place.holdsState then some k else none)
    (hsame : s'.closed = s.closed ∧ s'.loop = s.loop ∧ s'.ready = false)
    (hworkers : s'.workers = s.workers ++ [new]) (hthread : s'.thread = some s.workers.length)
    (hcoroutine : ∀ w, call'.coroutine ≠ .scheduled w) (hcall : s'.CallOk k call') :
    Invariant s' := by
  have hinside : call.place.inside = true := by
    rw [hplace]
    rfl
  apply h.of_caller hk call' hcalls (.inr (h.lock_of_inside hk hinside)) hlock hstate
    (fun hc => hsame.1.trans hc) hcall
  · intro w worker hw
    rw [hworkers] at hw
    rcases getElem?_append_worker hw with hold | rfl
    · exact (h.worker w worker hold).mono (fun hc => hsame.1.trans hc) fun hl => by rwa [hsame.2.1]
    · refine ⟨fun hstop => absurd (hnew.1.symm.trans hstop) Bool.false_ne_true, ?_, ?_⟩
      · intro hphase
        rcases hnew.2 with hp | hp <;> rw [hp] at hphase <;> simp at hphase
      · rintro ⟨hunstarted, hstarting⟩
        exact absurd hnew.2 (not_or.mpr ⟨hunstarted, hstarting⟩)
  · intro w hw
    rw [hsame.2.1, hloop] at hw
    cases hw
  · intro _
    refine ⟨_, hthread, ?_⟩
    rw [hworkers, List.length_append]
    exact Nat.lt_succ_self _
  · intro hready
    rw [hsame.2.2] at hready
    cases hready
  · intro w worker j hw hserves
    refine ⟨worker, ?_, hserves⟩
    rw [hworkers]
    exact getElem?_append_of_some new hw
  · exact fun w hw => absurd hw (hcoroutine w)

theorem Invariant.start (h : Invariant s) (hk : s.calls[k]? = some call)
    (hplace : call.place = .starting) {fault : Bool} (hs : s.start k call fault = some s') :
    Invariant s' := by
  have hinside : call.place.inside = true := by
    rw [hplace]
    rfl
  have hlock := h.lock_of_inside hk hinside
  have hcall := h.call k call hk
  simp only [CallOk, hplace] at hcall
  obtain ⟨hcreated, hstate⟩ := hcall
  unfold Runner.start at hs
  split at hs
  · next hclosed =>
    split at hs
    · next hkind =>
      cases hs
      refine h.leave hk hinside (.inr hstate) (by rintro w ⟨⟩) ?_
      rw [hkind]
      exact .refused hclosed
    · next hkind =>
      cases hs
      refine h.leave hk hinside (.inr hstate) (by rintro w ⟨⟩) ?_
      rw [hkind]
      exact .closedBefore hclosed
  · cases hs
  · next hclosed hloop =>
    cases hs
    exact h.found hk (by rw [hplace]; rfl) hcreated hclosed hloop
  · cases hs
  · next hclosed hloop =>
    cases hs
    refine h.spawn hk hplace hloop ⟨.starting, false⟩ ⟨rfl, .inr rfl⟩
      { call with place := .ready } rfl hlock hstate ⟨rfl, rfl, rfl⟩ rfl rfl ?_ ?_
    · intro w hw
      change call.coroutine = _ at hw
      rw [hcreated] at hw
      cases hw
    · refine ⟨hcreated, hstate, hclosed, .inr ⟨s.workers.length, ⟨.starting, false⟩, ?_, .inl rfl⟩⟩
      exact List.getElem?_concat_length
  · next hclosed hloop =>
    cases hs
    have houtside : release s.submissionLock k = none := by rw [hlock, release_self]
    have hleft : release s.stateLock k = none := by rw [hstate, release_self]
    refine h.spawn hk hplace hloop ⟨.unstarted, false⟩ ⟨rfl, .inl rfl⟩ _ rfl houtside hleft
      ⟨rfl, rfl, rfl⟩ rfl rfl ?_ ?_
    · intro w
      rw [hcreated]
      cases call.kind <;> rintro ⟨⟩
    · rw [CallOk, hcreated]
      cases hkind : call.kind with
      | run => exact .notStarted (.inl rfl)
      | close => exact .notClosed (.inl rfl)

theorem CallOk.read_of_result {loop : ℕ} {thread : Option ℕ} (h : s.CallOk k call)
    (hplace : call.place = .result loop thread) :
    call.coroutine.Submitted ∧ s.closed = false ∧ s.Read call.kind loop thread := by
  simp only [CallOk, hplace] at h
  refine ⟨?_, h.2⟩
  rcases h.1 with hscheduled | hfinished
  · exact .inl ⟨loop, hscheduled⟩
  · exact .inr hfinished

/-- The wait of the call for its result ends. -/
theorem Invariant.resume (h : Invariant s) (hk : s.calls[k]? = some call) {loop : ℕ}
    {thread : Option ℕ} (hplace : call.place = .result loop thread)
    {result : Except (Failure ε) α}
    (hrun : call.kind = .run → Answered s.closed .run call.coroutine (result.map some))
    (hclose : Cleaned call.coroutine (cleanupErrorOf result)) :
    Invariant (s.resume k call loop thread result) := by
  have hinside : call.place.inside = true := by
    rw [hplace]
    rfl
  have hoff : call.place.holdsState = false := by
    rw [hplace]
    rfl
  obtain ⟨-, hclosed, hread⟩ := (h.call k call hk).read_of_result hplace
  unfold Runner.resume
  split
  · next hkind =>
    apply h.leave hk hinside
    · exact .inl (h.state_free hk (.inr (h.lock_of_inside hk hinside)) hoff)
    · exact fun w hw => hw
    · rw [hkind]
      exact hrun hkind
  · next hkind =>
    exact h.put hk hinside hoff (.marking loop thread _) rfl rfl ⟨hkind, hclose, hclosed, hread⟩

theorem Invariant.submit (h : Invariant s) (hk : s.calls[k]? = some call) {loop : ℕ}
    {thread : Option ℕ} (hplace : call.place = .submitting loop thread)
    (hs : s.submit k call loop thread = some s') : Invariant s' := by
  have hinside : call.place.inside = true := by
    rw [hplace]
    rfl
  have hlock := h.lock_of_inside hk hinside
  have hcall := h.call k call hk
  simp only [CallOk, hplace] at hcall
  obtain ⟨hcreated, hclosed, hread⟩ := hcall
  obtain ⟨worker, hworker, hhas⟩ := hread.1
  -- a runner that is not closed has stopped no worker
  have hnot : worker.stopRequested = false := by
    rw [Bool.eq_false_iff]
    intro hstop
    exact absurd (((h.worker loop worker hworker).closed hstop).symm.trans hclosed) nofun
  have hserves : worker.phase.Serves k := by
    have hstopping := (h.worker loop worker hworker).stopping
    rw [hnot] at hstopping
    cases hphase : worker.phase with
    | unstarted => exact absurd hphase hhas.1
    | starting => exact absurd hphase hhas.2
    | created => exact .inl rfl
    | running => exact .inr (.inl rfl)
    | draining tasks => exact absurd (hstopping (.inr ⟨tasks, hphase⟩)) Bool.false_ne_true
    | stopped => exact absurd (hstopping (.inl hphase)) Bool.false_ne_true
  have hphase : worker.phase ≠ .stopped := by
    rcases hserves with hp | hp | ⟨tasks, hp, -⟩ <;> rw [hp] <;> exact nofun
  rw [Runner.submit, hworker, Option.map_some, if_neg hphase] at hs
  cases hs
  apply h.of_caller hk
    { call with place := .result loop thread, coroutine := .scheduled loop }
  · rfl
  · exact .inr hlock
  · exact hlock
  · exact h.state_free hk (.inr hlock) (by rw [hplace]; rfl)
  · exact id
  · exact ⟨.inl rfl, hclosed, hread⟩
  · exact fun w worker hw => (h.worker w worker hw).mono id id
  · exact h.loop
  · exact h.thread
  · exact h.ready
  · exact fun w worker j hw hj => ⟨worker, hw, hj⟩
  · intro w hw
    cases hw
    exact ⟨worker, hworker, hserves⟩

/-- A thread with a property is found after one thread that kept it has moved. -/
theorem exists_of_set {P : Worker → Prop} {workers : List Worker} {w loop : ℕ}
    {worker new : Worker} (hw : workers[w]? = some worker) (hnew : P worker → P new)
    (h : ∃ worker, workers[loop]? = some worker ∧ P worker) :
    ∃ worker, (workers.set w new)[loop]? = some worker ∧ P worker := by
  obtain ⟨old, hold, hkept⟩ := h
  by_cases heq : w = loop
  · subst heq
    rw [hw] at hold
    cases hold
    exact ⟨new, List.getElem?_set_self (List.getElem?_eq_some_iff.mp hw).1, hnew hkept⟩
  · exact ⟨old, (List.getElem?_set_ne heq).trans hold, hkept⟩

theorem workerOk_of_set {w : ℕ} {new : Worker} (h : Invariant s) (hnew : s.WorkerOk new)
    {i : ℕ} {worker : Worker} (hi : (s.workers.set w new)[i]? = some worker) :
    s.WorkerOk worker := by
  rcases List.mem_or_eq_of_mem_set (List.mem_of_getElem? hi) with hold | rfl
  · obtain ⟨j, hj⟩ := List.mem_iff_getElem?.mp hold
    exact h.worker j worker hj
  · exact hnew

theorem Invariant.stop (h : Invariant s) (hk : s.calls[k]? = some call) {loop : ℕ}
    {thread : Option ℕ} {cleanupError : Option (Failure ε)}
    (hplace : call.place = .stopping loop thread cleanupError)
    (hs : s.stop k call loop thread cleanupError = some s') : Invariant s' := by
  have hinside : call.place.inside = true := by
    rw [hplace]
    rfl
  have hlock := h.lock_of_inside hk hinside
  have hstate := h.state_free hk (.inr hlock) (by rw [hplace]; rfl)
  have hcall := h.call k call hk
  simp only [CallOk, hplace] at hcall
  obtain ⟨hkind, hcleaned, hclosed, ⟨-, hthread⟩, hrunning⟩ := hcall
  obtain ⟨t, rfl, ht⟩ := hthread hkind
  obtain ⟨worker, hworker, hmap⟩ := Option.map_eq_some_iff.mp hs
  split at hmap
  · next hphase =>
    -- nobody has told the worker to stop
    have hstopped := (h.worker loop worker hworker).stopping (.inl hphase)
    rw [hrunning loop worker hworker] at hstopped
    cases hstopped
  · next hphase =>
    subst hmap
    apply h.of_caller hk { call with place := .joining t cleanupError }
    · rfl
    · exact .inr hlock
    · exact hlock
    · exact hstate
    · exact id
    · refine ⟨hkind, hcleaned, hclosed, ?_⟩
      change t < (s.workers.set _ _).length
      rwa [List.length_set]
    · intro i other hi
      refine (workerOk_of_set h ?_ hi).mono id id
      exact ⟨fun _ => hclosed, fun _ => rfl, (h.worker loop worker hworker).loop⟩
    · exact fun w hw => exists_of_set hworker id (h.loop w hw)
    · intro _
      have hne : s.workers ≠ [] := List.ne_nil_of_mem (List.mem_of_getElem? hworker)
      obtain ⟨thread, hthread, hlt⟩ := h.thread hne
      refine ⟨thread, hthread, ?_⟩
      change thread < (s.workers.set _ _).length
      rwa [List.length_set]
    · exact h.ready
    · exact fun w other j hw hj => exists_of_set hworker id ⟨other, hw, hj⟩
    · exact fun w hw => exists_of_set hworker id (h.task k call w hk hw)

theorem Invariant.join (h : Invariant s) (hk : s.calls[k]? = some call) {thread : ℕ}
    {cleanupError : Option (Failure ε)} (hplace : call.place = .joining thread cleanupError)
    {fault : Bool} (hs : s.join k call thread cleanupError fault = some s') : Invariant s' := by
  have hinside : call.place.inside = true := by
    rw [hplace]
    rfl
  have hstate := h.state_free hk (.inr (h.lock_of_inside hk hinside)) (by rw [hplace]; rfl)
  have hcall := h.call k call hk
  simp only [CallOk, hplace] at hcall
  obtain ⟨hkind, hcleaned, hclosed, -⟩ := hcall
  have hsubmitted := hcleaned.submitted
  have hleave : ∀ answer, Answered s.closed call.kind call.coroutine answer →
      Invariant (s.leave k call call.coroutine answer) := fun answer hanswer =>
    h.leave hk hinside (.inl hstate) (fun w hw => hw) hanswer
  rw [hkind] at hleave
  obtain ⟨worker, -, hworker⟩ := Option.bind_eq_some_iff.mp hs
  split at hworker
  · cases hworker
    exact hleave _ (.cleaned hclosed hcleaned)
  · cases hworker
  · cases hworker
    exact hleave _ (.notStopped hclosed hsubmitted (.inr rfl))
  · cases hworker
  · cases hworker
  · cases hworker
    exact hleave _ (.notStopped hclosed hsubmitted (.inl rfl))

theorem Invariant.mark (h : Invariant s) (hk : s.calls[k]? = some call) {loop : ℕ}
    {thread : Option ℕ} {cleanupError : Option (Failure ε)}
    (hplace : call.place = .marking loop thread cleanupError) :
    Invariant { s.put k { call with place := .stopping loop thread cleanupError } with
      closed := true } := by
  have hinside : call.place.inside = true := by
    rw [hplace]
    rfl
  have hlock := h.lock_of_inside hk hinside
  have hcall := h.call k call hk
  simp only [CallOk, hplace] at hcall
  obtain ⟨hkind, hcleaned, hclosed, hread⟩ := hcall
  apply h.of_caller_same hk { call with place := .stopping loop thread cleanupError }
  · rfl
  · exact .inr hlock
  · exact hlock
  · exact h.state_free hk (.inr hlock) (by rw [hplace]; rfl)
  · exact fun _ => rfl
  · rfl
  · rfl
  · rfl
  · rfl
  · exact fun w hw => hw
  · refine ⟨hkind, hcleaned, rfl, hread, ?_⟩
    intro w worker hw
    rw [Bool.eq_false_iff]
    intro hstop
    exact absurd (((h.worker w worker hw).closed hstop).symm.trans hclosed) nofun

theorem Invariant.enter (h : Invariant s) (hk : s.calls[k]? = some call)
    (hplace : call.place = .submissionLock) (hfree : s.submissionLock = none) :
    Invariant { s.put k { call with place := .stateLock } with submissionLock := some k } := by
  have hcall := h.call k call hk
  simp only [CallOk, hplace] at hcall
  apply h.of_caller_same hk { call with place := .stateLock }
  · rfl
  · exact .inl hfree
  · rfl
  · exact h.state_free hk (.inl hfree) (by rw [hplace]; rfl)
  · exact id
  · rfl
  · rfl
  · rfl
  · rfl
  · exact fun w hw => hw
  · exact hcall

theorem Invariant.enterState (h : Invariant s) (hk : s.calls[k]? = some call)
    (hplace : call.place = .stateLock) :
    Invariant { s.put k { call with place := .starting } with stateLock := some k } := by
  have hlock := h.lock_of_inside hk (by rw [hplace]; rfl)
  have hcall := h.call k call hk
  simp only [CallOk, hplace] at hcall
  apply h.of_caller_same hk { call with place := .starting }
  · rfl
  · exact .inr hlock
  · exact hlock
  · rfl
  · exact id
  · rfl
  · rfl
  · rfl
  · rfl
  · exact fun w hw => hw
  · exact ⟨hcall, rfl⟩

/-- The answer of a `run`, and the cleanup of a `close`, after the coroutine has ended. -/
theorem cleaned_of_finished (outcome : Except ε α) :
    Cleaned (.finished outcome) (cleanupErrorOf (outcome.mapError .own)) := by
  cases outcome with
  | ok value => exact .returned value
  | error error => exact .raised error

theorem answered_of_finished (closed : Bool) (outcome : Except ε α) :
    Answered closed .run (.finished outcome) ((outcome.mapError .own).map some) := by
  cases outcome with
  | ok value => exact .returned value
  | error error => exact .raised error

theorem Invariant.advance (h : Invariant s) (hk : s.calls[k]? = some call) {fault : Bool}
    (hs : s.advance k call fault = some s') : Invariant s' := by
  have hcall := h.call k call hk
  cases advanced_of_advance hs with
  | enter hplace hfree => exact h.enter hk hplace hfree
  | enterState hplace hfree => exact h.enterState hk hplace
  | start hplace hs => exact h.start hk hplace hs
  | found hplace hready hloop =>
    simp only [CallOk, hplace] at hcall
    exact h.found hk (by rw [hplace]; rfl) hcall.1 hcall.2.2.1 hloop
  | uninitialized hplace hready hloop => exact absurd hloop (h.ready hready)
  | expired hplace hready =>
    simp only [CallOk, hplace] at hcall
    exact h.refused hk (by rw [hplace]; rfl) hcall.2.1 hcall.1 (.inr rfl)
  | submit hplace hs => exact h.submit hk hplace hs
  | returned hplace houtcome =>
    apply h.resume hk hplace
    · intro _
      rw [houtcome]
      exact answered_of_finished s.closed _
    · rw [houtcome]
      exact cleaned_of_finished _
  | interrupted hplace =>
    have hsubmitted := (hcall.read_of_result hplace).1
    exact h.resume hk hplace (fun _ => .interrupted hsubmitted) (.interrupted hsubmitted)
  | mark hplace hfree => exact h.mark hk hplace
  | stop hplace hs => exact h.stop hk hplace hs
  | join hplace hs => exact h.join hk hplace hs

end Runner

end OpenJobSpec.SyncRunner
