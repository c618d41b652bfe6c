import OpenJobSpec.Worker.Lifecycle

/-! # TERMINATE is absorbing

A step of the fetch loop that begins a fetch has seen, in the same turn, that the
worker is neither quiet nor shut down. The shutdown event is never cleared in a
run, and each writer of the public state either sets both or looks at it first.
-/
namespace OpenJobSpec.Worker
open Runs LeaseAdmission

/-! ## What a turn of the fetch loop does -/

/-- The loop went from its wait in `s` to its wait in `t`. -/
structure Turn (s t : WorkerRun) : Prop where
  shutdown : t.shutdown = s.shutdown
  fetching : t.fetch.isFetching = true → s.quiet = false ∧ s.shutdown = false

variable {c : ℕ} {s t u : WorkerRun}

theorem Turn.fetchLoop (s : WorkerRun) : Turn s s.fetchLoop := by
  unfold WorkerRun.fetchLoop
  by_cases hshutdown : s.shutdown = true
  · rw [if_pos hshutdown]
    exact ⟨rfl, fun h => by cases h⟩
  · rw [if_neg hshutdown]
    by_cases hquiet : s.quiet = true
    · rw [if_pos hquiet]
      exact ⟨rfl, fun h => by cases h⟩
    · rw [if_neg hquiet]
      have hflags : s.quiet = false ∧ s.shutdown = false :=
        ⟨Bool.not_eq_true _ ▸ hquiet, Bool.not_eq_true _ ▸ hshutdown⟩
      cases s.admission.reserveAvailable with
      | suspended admission held => exact ⟨rfl, fun _ => hflags⟩
      | reserved admission permits => cases permits <;> exact ⟨rfl, fun _ => hflags⟩

theorem Turn.pause (s : WorkerRun) : Turn s s.pause := by
  unfold WorkerRun.pause
  split
  · exact Turn.fetchLoop s
  · exact ⟨rfl, fun h => by cases h⟩

theorem Turn.of_flags (h : Turn s t) (hquiet : s.quiet = u.quiet)
    (hshutdown : s.shutdown = u.shutdown) : Turn u t :=
  ⟨h.shutdown.trans hshutdown, fun hf => hquiet ▸ hshutdown ▸ h.fetching hf⟩

theorem startExecution_flags (job : Job) (permit : ℕ) :
    (s.startExecution job permit).1.quiet = s.quiet ∧
      (s.startExecution job permit).1.shutdown = s.shutdown := by
  unfold WorkerRun.startExecution
  split <;> exact ⟨rfl, rfl⟩

theorem startExecutions_flags (pairs : List (Job × ℕ)) (failure : Option StartFailure)
    (s : WorkerRun) :
    (WorkerRun.startExecutions pairs failure s).1.quiet = s.quiet ∧
      (WorkerRun.startExecutions pairs failure s).1.shutdown = s.shutdown := by
  fun_induction WorkerRun.startExecutions pairs failure s with
  | case1 failure s => exact ⟨rfl, rfl⟩
  | case2 job permit rest taskCreated s => cases taskCreated <;> exact ⟨rfl, rfl⟩
  | case3 job permit rest failure s _ t hfailed =>
    have hflags := startExecution_flags (s := s) job permit
    rw [hfailed] at hflags
    exact hflags
  | case4 job permit rest failure s _ t hstart u used ok hrun ih =>
    have hflags := startExecution_flags (s := s) job permit
    rw [hstart] at hflags
    rw [hrun] at ih
    exact ⟨ih.1.trans hflags.1, ih.2.trans hflags.2⟩

theorem Turn.handleJobs (permits : List ℕ) (jobs : List Job) (failure : Option StartFailure) :
    Turn s (s.handleJobs permits jobs failure) := by
  have hflags := startExecutions_flags (jobs.zip permits) failure s
  unfold WorkerRun.handleJobs
  generalize WorkerRun.startExecutions (jobs.zip permits) failure s = started at hflags ⊢
  obtain ⟨started, used, ok⟩ := started
  obtain ⟨hquiet, hshutdown⟩ := hflags
  dsimp only at hquiet hshutdown ⊢
  split
  · exact ⟨hshutdown, fun h => by cases h⟩
  · split
    · exact (Turn.pause _).of_flags hquiet hshutdown
    · exact (Turn.fetchLoop _).of_flags hquiet hshutdown

/-- Whatever made the fetch loop go on, it made one turn. -/
theorem Turn.of_next {step : Step} (hstep : step.isFetchLoop = true)
    (hn : s.next step = some t) : Turn s t := by
  unfold WorkerRun.next at hn
  split at hn <;> try cases hstep
  next => -- the loop starts
    cases hn
    exact Turn.fetchLoop s
  next => -- a pause ends
    cases hn
    exact Turn.fetchLoop s
  next jobs failure permits count hf =>
    cases hn
    exact Turn.handleJobs permits jobs failure
  next permits count hf =>
    cases hn
    exact (Turn.pause _).of_flags rfl rfl
  next unused first job surplus hf => -- the next surplus job is to be refused
    cases hn
    exact ⟨rfl, fun h => by cases h⟩
  next unused surplus _ hf =>
    cases hn
    exact (Turn.fetchLoop _).of_flags rfl rfl
  next unused surplus hf =>
    cases hn
    exact (Turn.fetchLoop _).of_flags rfl rfl
  next => cases hn

theorem cancelFetch_shutdown (s : WorkerRun) : s.cancelFetch.shutdown = s.shutdown := by
  unfold WorkerRun.cancelFetch
  split <;> rfl

/-- The shutdown event is never cleared. -/
theorem next_shutdown {step : Step} (hstep : step.isRuntime = true)
    (hn : s.next step = some t) (hs : s.shutdown = true) : t.shutdown = true := by
  cases hfetch : step.isFetchLoop with
  | true => rw [(Turn.of_next hfetch hn).shutdown, hs]
  | false =>
    unfold WorkerRun.next at hn
    split at hn <;> try cases hfetch
    all_goals try cases hstep
    next => cases hn
    next =>
      cases hn
      rw [cancelFetch_shutdown, hs]
    next token =>
      split at hn <;> cases hn
      exact hs
    next token =>
      split at hn <;> cases hn
      exact hs
    next => -- a loop ends
      split at hn <;> cases hn
      rfl
    next => -- the coordinator is cancelled while both loops run
      cases hn
      rfl
    next => cases hn
    next =>
      cases hn
      exact hs
    next =>
      split at hn <;> cases hn
      exact hs
    next =>
      cases hn
      exact hs
    next =>
      cases hn
      exact hs
    next active hc =>
      split at hn <;> cases hn
      exact hs
    next =>
      cases hn
      exact hs
    next => cases hn

/-! ## What holds of a worker in every run -/

/-- The state that the directives handled so far ask for; a run begins as RUNNING. -/
def directed (directives : List Directive) : WorkerState :=
  directives.foldl (fun state directive =>
    match directive with
    | .quiet => .quiet
    | .running => .running
    | .terminate | .none => state) .running

theorem directed_append (directives : List Directive) (directive : Directive) :
    directed (directives ++ [directive]) =
      match directive with
      | .quiet => .quiet
      | .running => .running
      | .terminate | .none => directed directives := by
  unfold directed
  rw [List.foldl_append]
  rfl

theorem directed_eq (directives : List Directive) :
    directed directives = .running ∨ directed directives = .quiet := by
  induction directives using List.reverseRecOn with
  | nil => exact Or.inl rfl
  | append_singleton directives directive ih =>
    rw [directed_append]
    cases directive with
    | quiet => exact Or.inr rfl
    | running => exact Or.inl rfl
    | terminate => exact ih
    | none => exact ih

/-- What every step of a worker keeps of its current run. -/
structure Lawful (state : WorkerState) (r : ActiveRun) : Prop where
  sound : ∃ c, Sound c r.runtime
  terminated : r.terminated = true → state = .terminate ∧ r.runtime.shutdown = true
  as_directed : r.runtime.shutdown = false → state = directed r.directives
  fetches : ∀ call ∈ r.fetches, call.state ≠ .quiet ∧ call.shutdown = false

variable {state : WorkerState} {r r' : ActiveRun} {w w' : WorkerInstance}

theorem Lawful.setHeartbeat (h : Lawful state r) (phase : HeartbeatPhase) :
    Lawful state (r.setHeartbeat phase) := by
  obtain ⟨⟨c, hsound⟩, hterminated, hdirected, hfetches⟩ := h
  exact ⟨⟨c, hsound.of_same rfl rfl rfl rfl⟩, hterminated, hdirected, hfetches⟩

theorem Lawful.requestTermination (h : Lawful state r) :
    Lawful .terminate
      { r with runtime := { r.runtime with shutdown := true }, terminated := true } := by
  obtain ⟨⟨c, hsound⟩, _, _, hfetches⟩ := h
  exact ⟨⟨c, hsound.of_same rfl rfl rfl rfl⟩, fun _ => ⟨rfl, rfl⟩, (fun hs => by cases hs),
    hfetches⟩

/-- A directive to a worker that may have been shut down meanwhile. -/
theorem Lawful.directive (h : Lawful state r) {directive : Directive} {asked : WorkerState}
    (hasked : directed (r.directives ++ [directive]) = asked) :
    Lawful (if r.runtime.shutdown then state else asked)
      { r with directives := r.directives ++ [directive] } := by
  obtain ⟨hsound, hterminated, _, hfetches⟩ := h
  refine ⟨hsound, ?_, ?_, hfetches⟩
  · intro ht
    obtain ⟨hstate, hshutdown⟩ := hterminated ht
    exact ⟨by rw [if_pos hshutdown, hstate], hshutdown⟩
  · intro hs
    change r.runtime.shutdown = false at hs
    simp only [hs, Bool.false_eq_true, if_false]
    exact hasked.symm

/-- A run of this worker is as it should be, and between runs the worker is idle. -/
def LawfulWorker (w : WorkerInstance) : Prop :=
  match w.run with
  | none => w.state = .idle
  | some r => Lawful w.state r

theorem LawfulWorker.of_run (h : LawfulWorker w) (hr : w.run = some r) : Lawful w.state r := by
  unfold LawfulWorker at h
  rw [hr] at h
  exact h

theorem Lawful.handleDirective (h : Lawful w.state r) (directive : Directive) :
    LawfulWorker (w.handleDirective r directive) := by
  cases directive with
  | terminate =>
    have hrecorded : Lawful w.state { r with directives := r.directives ++ [.terminate] } := by
      refine ⟨h.sound, h.terminated, fun hs => ?_, h.fetches⟩
      rw [directed_append]
      exact h.as_directed hs
    exact (hrecorded.setHeartbeat .done).requestTermination
  | quiet => exact (h.directive (directed_append r.directives .quiet)).setHeartbeat _
  | running => exact (h.directive (directed_append r.directives .running)).setHeartbeat _
  | none =>
    have hrecorded : Lawful w.state { r with directives := r.directives ++ [.none] } := by
      refine ⟨h.sound, h.terminated, fun hs => ?_, h.fetches⟩
      rw [directed_append]
      exact h.as_directed hs
    exact hrecorded.setHeartbeat _

theorem Lawful.heartbeatLoop (h : Lawful w.state r) {event : HeartbeatEvent}
    (hn : w.heartbeatLoop r event = some w') : LawfulWorker w' := by
  unfold WorkerInstance.heartbeatLoop at hn
  split at hn
  next => -- the loop starts
    cases hn
    exact h.setHeartbeat _
  next response _ =>
    split at hn <;> cases hn
    · exact h.setHeartbeat _
    · exact h.handleDirective _
  next => -- the request fails
    cases hn
    exact h.setHeartbeat _
  next => -- a pause ends
    cases hn
    exact h.setHeartbeat _
  next => -- the shutdown ends a pause
    split at hn <;> cases hn
    exact h.setHeartbeat _
  next => cases hn
  next =>
    cases hn
    exact h.setHeartbeat _
  next => cases hn

/-- A fetch that begins in a turn finds what the turn began with. -/
theorem Lawful.runtimeStep (h : Lawful w.state r) {step : Step}
    (hn : w.runtimeStep r step = some w') : LawfulWorker w' := by
  unfold WorkerInstance.runtimeStep at hn
  split at hn
  next hstep =>
    obtain ⟨runtime, hruntime, hw⟩ := Option.map_eq_some_iff.mp hn
    obtain ⟨c, hsound⟩ := h.sound
    have hshutdown : r.runtime.shutdown = true → runtime.shutdown = true :=
      fun hdown => next_shutdown hstep hruntime hdown
    rw [← hw]
    refine ⟨⟨c, ?_⟩, ?_, ?_, ?_⟩
    · have hview : Sound c (w.view r) := hsound.of_same rfl rfl rfl rfl
      exact hview.next hruntime
    · intro ht
      obtain ⟨hstate, hdown⟩ := h.terminated ht
      exact ⟨hstate, hshutdown hdown⟩
    · intro hs
      apply h.as_directed
      rw [← Bool.not_eq_true]
      intro hdown
      rw [show runtime.shutdown = true from hshutdown hdown] at hs
      cases hs
    · intro call hcall
      dsimp only at hcall
      split at hcall
      next hbegins =>
        obtain ⟨hfetch, hfetching⟩ := Bool.and_eq_true_iff.mp hbegins
        have hturn := Turn.of_next hfetch hruntime
        obtain ⟨hquiet, hup⟩ := hturn.fetching hfetching
        rcases List.mem_append.mp hcall with hold | hnew
        · exact h.fetches call hold
        · rw [List.mem_singleton.mp hnew]
          exact ⟨of_decide_eq_false hquiet, hturn.shutdown.trans hup⟩
      next => exact h.fetches call hcall
  next => cases hn

theorem LawfulWorker.start {installation : Installation}
    (hn : w.start installation = some w') : LawfulWorker w' := by
  unfold WorkerInstance.start at hn
  have hfresh : ∀ runtime installed, WorkerRun.new w.concurrency = .ok runtime →
      Lawful .running { runtime, signalsInstalled := installed } := by
    intro runtime installed hnew
    have hsound := Sound.new hnew
    exact ⟨⟨_, hsound⟩, (fun ht => by cases ht), fun _ => rfl, (fun call hcall => by cases hcall)⟩
  split at hn <;> cases hn
  next => rfl
  next runtime hnew => exact hfresh runtime true hnew
  next runtime hnew => exact hfresh runtime false hnew

/-- A reservation never waits, so none goes on. -/
theorem Lawful.resumeReservation (h : Lawful w.state r) (remaining : ℕ) :
    w.resumeReservation r remaining = none := by
  obtain ⟨c, hsound⟩ := h.sound
  unfold WorkerInstance.resumeReservation
  split
  next held hf => exact absurd hf (hsound.never_waits held)
  next => rfl

theorem LawfulWorker.next (h : LawfulWorker w) {event : Event} (hn : w.next event = some w') :
    LawfulWorker w' := by
  unfold WorkerInstance.next at hn
  split at hn
  next => exact LawfulWorker.start hn
  next r hr => -- a signal
    split at hn <;> cases hn
    exact (h.of_run hr).requestTermination
  next r hr => -- a call of `stop`
    cases hn
    exact (h.of_run hr).requestTermination
  next event r hr => exact (h.of_run hr).heartbeatLoop hn
  next remaining r hr =>
    rw [(h.of_run hr).resumeReservation remaining] at hn
    cases hn
  next step r hr => exact (h.of_run hr).runtimeStep hn
  next r hr => -- the call of `start` returns
    split at hn <;> cases hn
    rfl
  next => cases hn

theorem LawfulWorker.run (concurrency : ℤ) (events : List Event) :
    LawfulWorker (Runs.run WorkerInstance.next (.new concurrency) events) :=
  run_invariant LawfulWorker (rfl : (WorkerInstance.new concurrency).state = .idle)
    fun _ _ _ _ h hn => h.next hn

/-! ## TERMINATE until `start` returns -/

/-- The current run has been asked to terminate. -/
def Terminated (w : WorkerInstance) : Prop := ∃ r, w.run = some r ∧ r.terminated = true

theorem Terminated.of_eq (hr : w'.run = some r') (ht : r'.terminated = true) : Terminated w' :=
  ⟨r', hr, ht⟩

theorem terminated_handleDirective (ht : r.terminated = true) (directive : Directive) :
    Terminated (w.handleDirective r directive) := by
  cases directive with
  | terminate => exact .of_eq rfl rfl
  | quiet => exact .of_eq rfl ht
  | running => exact .of_eq rfl ht
  | none => exact .of_eq rfl ht

theorem terminated_heartbeatLoop (ht : r.terminated = true) {event : HeartbeatEvent}
    (hn : w.heartbeatLoop r event = some w') : Terminated w' := by
  unfold WorkerInstance.heartbeatLoop at hn
  split at hn
  next =>
    cases hn
    exact .of_eq rfl ht
  next response _ =>
    split at hn <;> cases hn
    · exact .of_eq rfl ht
    · exact terminated_handleDirective ht _
  next =>
    cases hn
    exact .of_eq rfl ht
  next =>
    cases hn
    exact .of_eq rfl ht
  next =>
    split at hn <;> cases hn
    exact .of_eq rfl ht
  next => cases hn
  next =>
    cases hn
    exact .of_eq rfl ht
  next => cases hn

theorem Terminated.next (h : Terminated w) {event : Event} (hn : w.next event = some w')
    (hevent : event ≠ .startReturns) : Terminated w' := by
  obtain ⟨r, hr, ht⟩ := h
  unfold WorkerInstance.next at hn
  rw [hr] at hn
  cases event with
  | start installation => cases hn
  | signal =>
    dsimp only at hn
    split at hn <;> cases hn
    exact .of_eq rfl rfl
  | stop =>
    cases hn
    exact .of_eq rfl rfl
  | heartbeat event => exact terminated_heartbeatLoop ht hn
  | reservationResumes remaining =>
    dsimp only at hn
    unfold WorkerInstance.resumeReservation at hn
    split at hn
    · split at hn <;> cases hn <;> exact .of_eq rfl ht
    · cases hn
  | runtime step =>
    dsimp only at hn
    unfold WorkerInstance.runtimeStep at hn
    split at hn
    · obtain ⟨runtime, _, hw⟩ := Option.map_eq_some_iff.mp hn
      rw [← hw]
      exact .of_eq rfl ht
    · cases hn
  | startReturns => exact absurd rfl hevent

theorem Terminated.run (h : Terminated w) {events : List Event} (hevents : .startReturns ∉ events) :
    Terminated (Runs.run WorkerInstance.next w events) :=
  run_invariant Terminated h fun _ _ _ hmem hs hn =>
    hs.next hn fun he => hevents (he ▸ hmem)

/-- A signal, a call of `stop` or a response that directs the worker to terminate. -/
def AsksTermination : Event → Prop
  | .signal | .stop => True
  | .heartbeat (.responds response) => serverDirective response = some .terminate
  | _ => False

theorem terminated_of_asked {event : Event} (hasked : AsksTermination event)
    (hn : w.next event = some w') : Terminated w' := by
  unfold WorkerInstance.next at hn
  split at hn
  next => cases hasked
  next r _ =>
    split at hn <;> cases hn
    exact .of_eq rfl rfl
  next r _ =>
    cases hn
    exact .of_eq rfl rfl
  next event r _ =>
    cases event with
    | responds response =>
      have hterminate : serverDirective response = some .terminate := hasked
      unfold WorkerInstance.heartbeatLoop at hn
      cases hphase : r.heartbeat with
      | requesting =>
        simp only [hphase, hterminate, Option.some.injEq] at hn
        exact .of_eq (congrArg WorkerInstance.run hn).symm rfl
      | _ =>
        rw [hphase] at hn
        cases hn
    | _ => cases hasked
  next => cases hasked
  next => cases hasked
  next => cases hasked
  next => cases hn

/-- What the lifecycle promises of a worker. -/
structure LifecycleHolds (w : WorkerInstance) : Prop where
  idle : w.run = none → w.state = .idle
  asked : ∀ event w', AsksTermination event → w.next event = some w' → Terminated w'
  terminated : ∀ r, w.run = some r → r.terminated = true →
    w.state = .terminate ∧ r.runtime.shutdown = true
  running_or_quiet : ∀ r, w.run = some r → r.runtime.shutdown = false →
    w.state = directed r.directives ∧ (w.state = .running ∨ w.state = .quiet)
  fetches : ∀ r, w.run = some r → ∀ call ∈ r.fetches, call.state ≠ .quiet ∧ call.shutdown = false
  absorbing : Terminated w → ∀ later, .startReturns ∉ later →
    ∃ r, (Runs.run WorkerInstance.next w later).run = some r ∧
      (Runs.run WorkerInstance.next w later).state = .terminate ∧ r.runtime.shutdown = true

/-- The response that was in flight when the worker was stopped comes back too late. -/
example :
    (Runs.run WorkerInstance.next (.new 2)
      [.start .installed, .runtime .fetchStarts, .heartbeat .starts, .stop,
        .heartbeat (.responds (.object [("state", .str "quiet")]))]).state = .terminate := by
  decide

end OpenJobSpec.Worker
