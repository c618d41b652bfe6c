import OpenJobSpec.Worker.Termination

/-! # Signals that the event loop handles later

A signal that is delivered queues the installed callback, which belongs to the
run that installed it. Removing the handlers does not take a queued callback
back, so it can run when its own run is over: between two runs, or in a later
one.
-/
namespace OpenJobSpec.Worker
open Runs

structure SignalledWorker where
  worker : WorkerInstance
  /-- the number of the last run that was started -/
  lastRun : ℕ := 0
  /-- the callbacks on the event loop, each with the number of its run -/
  queued : List ℕ := []
  /-- a callback has changed the public state when its run was over -/
  disturbed : Bool := false

inductive SignalledEvent
  | delivered
  | callback
  /-- any event of the worker but the handling of a signal -/
  | worker (event : Event)

namespace SignalledWorker

def new (concurrency : ℤ) : SignalledWorker := { worker := .new concurrency }

/-- `_request_termination` for the run that a callback belongs to. -/
def runCallback (s : SignalledWorker) (run : ℕ) : SignalledWorker :=
  match s.worker.run with
  | some r =>
    if run = s.lastRun then { s with worker := s.worker.requestTermination r }
    else
      { s with
        worker := { s.worker with state := .terminate }
        disturbed := s.disturbed || decide (s.worker.state ≠ .terminate) }
  | none =>
    { s with
      worker := { s.worker with state := .terminate }
      disturbed := s.disturbed || decide (s.worker.state ≠ .terminate) }

def signalsInstalled (s : SignalledWorker) : Bool :=
  match s.worker.run with
  | some r => r.signalsInstalled
  | none => false

def next (s : SignalledWorker) : SignalledEvent → Option SignalledWorker
  | .delivered =>
    if s.signalsInstalled then some { s with queued := s.queued ++ [s.lastRun] } else none
  | .callback =>
    match s.queued with
    | [] => none
    | run :: rest => some { s.runCallback run with queued := rest }
  | .worker .signal => none
  | .worker (.start installation) => do
    let worker ← s.worker.next (.start installation)
    return { s with worker, lastRun := s.lastRun + 1 }
  | .worker event => do
    let worker ← s.worker.next event
    return { s with worker }

end SignalledWorker

/-- Between runs the worker is idle, in a run it is TERMINATE only once that run shuts down, and
no callback of an ended run has changed its state. -/
structure Undisturbed (s : SignalledWorker) : Prop where
  idle : s.worker.run = none → s.worker.state = .idle
  terminate : ∀ r, s.worker.run = some r → s.worker.state = .terminate → r.runtime.shutdown = true
  callbacks : s.disturbed = false

/-- A callback runs while its run does, or in a run that is terminating already. -/
def InItsRun (s : SignalledWorker) : SignalledEvent → Prop
  | .callback => ∀ run rest, s.queued = run :: rest →
    ∃ r, s.worker.run = some r ∧ (run = s.lastRun ∨ s.worker.state = .terminate)
  | _ => True

/-! ## The worker's own events -/

/-- What the worker's own events keep: idle between runs, and no TERMINATE before the shutdown. -/
def Published (w : WorkerInstance) : Prop :=
  match w.run with
  | none => w.state = .idle
  | some r => w.state = .terminate → r.runtime.shutdown = true

variable {w w' : WorkerInstance} {r : ActiveRun}

theorem Published.handleDirective (h : w.state = .terminate → r.runtime.shutdown = true)
    (directive : Directive) : Published (w.handleDirective r directive) := by
  cases directive with
  | terminate => exact fun _ => rfl
  | quiet =>
    change (if r.runtime.shutdown then w.state else .quiet) = .terminate → _
    split
    next hshutdown => exact fun _ => hshutdown
    next => exact fun hquiet => by cases hquiet
  | running =>
    change (if r.runtime.shutdown then w.state else .running) = .terminate → _
    split
    next hshutdown => exact fun _ => hshutdown
    next => exact fun hrunning => by cases hrunning
  | none => exact h

theorem Published.heartbeatLoop (h : w.state = .terminate → r.runtime.shutdown = true)
    {event : HeartbeatEvent} (hn : w.heartbeatLoop r event = some w') : Published w' := by
  unfold WorkerInstance.heartbeatLoop at hn
  split at hn
  next =>
    cases hn
    exact h
  next response _ =>
    split at hn <;> cases hn
    · exact h
    · exact Published.handleDirective h _
  next =>
    cases hn
    exact h
  next =>
    cases hn
    exact h
  next =>
    split at hn <;> cases hn
    exact h
  next => cases hn
  next =>
    cases hn
    exact h
  next => cases hn

theorem Published.next (h : Published w) {event : Event} (hn : w.next event = some w') :
    Published w' := by
  unfold Published at h
  unfold WorkerInstance.next at hn
  split at hn
  next installation hr =>
    unfold WorkerInstance.start at hn
    split at hn <;> cases hn
    · rfl
    · exact fun hrunning => by cases hrunning
    · exact fun hrunning => by cases hrunning
  next r hr =>
    split at hn <;> cases hn
    exact fun _ => rfl
  next r hr =>
    cases hn
    exact fun _ => rfl
  next event r hr =>
    rw [hr] at h
    exact Published.heartbeatLoop h hn
  next remaining r hr =>
    rw [hr] at h
    unfold WorkerInstance.resumeReservation at hn
    split at hn
    · split at hn <;> cases hn <;> exact h
    · cases hn
  next step r hr =>
    rw [hr] at h
    unfold WorkerInstance.runtimeStep at hn
    split at hn
    next hstep =>
      obtain ⟨runtime, hruntime, hw⟩ := Option.map_eq_some_iff.mp hn
      rw [← hw]
      exact fun hstate => next_shutdown hstep hruntime (h hstate)
    next => cases hn
  next r hr =>
    split at hn <;> cases hn
    rfl
  next => cases hn

/-! ## Runs with queued callbacks -/

variable {s t : SignalledWorker} {event : SignalledEvent}

theorem undisturbed_iff : Undisturbed s ↔ Published s.worker ∧ s.disturbed = false := by
  unfold Published
  constructor
  · intro h
    refine ⟨?_, h.callbacks⟩
    split
    next hr => exact h.idle hr
    next r hr => exact h.terminate r hr
  · rintro ⟨hpublished, hcallbacks⟩
    cases hr : s.worker.run with
    | none =>
      rw [hr] at hpublished
      exact ⟨fun _ => hpublished, (fun r h => by rw [hr] at h; cases h), hcallbacks⟩
    | some r =>
      rw [hr] at hpublished
      refine ⟨(fun h => by rw [hr] at h; cases h), fun r' hr' => ?_, hcallbacks⟩
      rw [hr] at hr'
      cases hr'
      exact hpublished

theorem undisturbed_queued (queued : List ℕ) :
    Undisturbed { s with queued } ↔ Undisturbed s :=
  ⟨fun h => ⟨h.idle, h.terminate, h.callbacks⟩, fun h => ⟨h.idle, h.terminate, h.callbacks⟩⟩

/-- A callback is harmless exactly when its run is the current one, or the current one is
terminating already. -/
theorem undisturbed_runCallback_iff (h : Undisturbed s) (run : ℕ) :
    Undisturbed (s.runCallback run) ↔
      ∃ r, s.worker.run = some r ∧ (run = s.lastRun ∨ s.worker.state = .terminate) := by
  unfold SignalledWorker.runCallback
  cases hr : s.worker.run with
  | none =>
    constructor
    · intro hafter
      have hidle := hafter.idle hr
      cases hidle
    · rintro ⟨r, hnone, _⟩
      cases hnone
  | some r =>
    dsimp only
    by_cases hown : run = s.lastRun
    · rw [if_pos hown]
      refine iff_of_true (undisturbed_iff.mpr ⟨fun _ => rfl, h.callbacks⟩) ⟨r, rfl, Or.inl hown⟩
    · rw [if_neg hown]
      constructor
      · intro hafter
        have hsame := hafter.callbacks
        simp only [h.callbacks, Bool.false_or, decide_eq_false_iff_not, ne_eq, not_not] at hsame
        exact ⟨r, rfl, Or.inr hsame⟩
      · rintro ⟨_, _, hcurrent | hterminate⟩
        · exact absurd hcurrent hown
        · refine undisturbed_iff.mpr ⟨?_, ?_⟩
          · unfold Published
            rw [show s.worker.run = some r from hr]
            exact fun _ => h.terminate r hr hterminate
          · simp [h.callbacks, hterminate]

theorem undisturbed_next_iff (h : Undisturbed s) (hn : s.next event = some t) :
    Undisturbed t ↔ InItsRun s event := by
  have hown : ∀ {event : Event} {w : WorkerInstance}, s.worker.next event = some w →
      Published w := fun hw => (undisturbed_iff.mp h).1.next hw
  unfold SignalledWorker.next at hn
  split at hn
  next => -- a signal is delivered
    split at hn <;> cases hn
    exact iff_of_true ((undisturbed_queued _).mpr h) trivial
  next => -- a callback runs
    split at hn
    next => cases hn
    next run rest hqueued =>
      cases hn
      rw [undisturbed_queued, undisturbed_runCallback_iff h]
      constructor
      · rintro hrun run' rest' hsame
        rw [hqueued] at hsame
        cases hsame
        exact hrun
      · exact fun hrun => hrun run rest hqueued
  next => cases hn
  next installation =>
    obtain ⟨w, hw, ht⟩ := Option.bind_eq_some_iff.mp hn
    cases ht
    exact iff_of_true (undisturbed_iff.mpr ⟨hown hw, h.callbacks⟩) trivial
  next event _ _ =>
    obtain ⟨w, hw, ht⟩ := Option.bind_eq_some_iff.mp hn
    cases ht
    exact iff_of_true (undisturbed_iff.mpr ⟨hown hw, h.callbacks⟩) trivial

theorem inItsRun_of_next_none (hn : s.next event = none) : InItsRun s event := by
  unfold InItsRun
  split
  next =>
    intro run rest hqueued
    simp [SignalledWorker.next, hqueued] at hn
  next => trivial

/-- A run that stops, with a signal delivered just before its call returns. -/
def lateSignal : List SignalledEvent := [
  .worker (.start .installed), .worker (.runtime .fetchStarts), .worker .stop,
  .worker (.runtime .fetchCancelled), .worker (.heartbeat .ends), .worker (.runtime .loopEnds),
  .worker (.runtime .loopsGathered), .worker (.runtime .drained), .delivered,
  .worker .startReturns, .callback]

end OpenJobSpec.Worker
