import OpenJobSpec.Client.SyncRunnerShutdown
import OpenJobSpec.Foundation.Progress

/-! # The synchronous client makes progress

Every step of a call, of a worker and of a coroutine brings the calls nearer to
their ends, so between arrivals only finitely many are taken. Where none is left,
every call has ended, unless a coroutine does not.
-/
namespace OpenJobSpec.SyncRunner
variable {ε α : Type*}

/-- How many steps a call has before it at most, those of the thread that it makes included. -/
def Place.rank : Place ε α → ℕ
  | .submissionLock => 14
  | .stateLock => 13
  | .starting => 12
  | .ready => 7
  | .submitting .. => 6
  | .result .. => 4
  | .marking .. => 3
  | .stopping .. => 2
  | .joining .. => 1
  | .ended _ => 0

def Coroutine.rank : Coroutine ε α → ℕ
  | .scheduled _ => 1
  | _ => 0

def Call.rank (call : Call ε α) : ℕ := call.place.rank + call.coroutine.rank

def Worker.rank (worker : Worker) : ℕ :=
  match worker.phase with
  | .starting => 4
  | .created => 3
  | .running => 2
  | .draining _ => 1
  | .unstarted | .stopped => 0

namespace Runner
variable {s s' : Runner ε α} {k j : ℕ} {call : Call ε α}

/-- How many steps are left at most while no call arrives. -/
def stepsLeft (s : Runner ε α) : ℕ :=
  Progress.total Call.rank s.calls + Progress.total Worker.rank s.workers

theorem stepsLeft_of_set (hk : s.calls[k]? = some call) {call' : Call ε α}
    (hcalls : s'.calls = s.calls.set k call')
    (hworkers : Progress.total Worker.rank s'.workers + call'.rank <
      Progress.total Worker.rank s.workers + call.rank) : s'.stepsLeft < s.stepsLeft := by
  have hset := Progress.total_set Call.rank hk call'
  unfold stepsLeft
  rw [hcalls]
  omega

theorem stepsLeft_of_place (hk : s.calls[k]? = some call) {call' : Call ε α}
    (hcalls : s'.calls = s.calls.set k call') (hworkers : s'.workers = s.workers)
    (hrank : call'.rank < call.rank) : s'.stepsLeft < s.stepsLeft := by
  apply stepsLeft_of_set hk hcalls
  rw [hworkers]
  omega

theorem rank_lt_of_coroutine {kind kind' : Kind} {place place' : Place ε α}
    {coroutine coroutine' : Coroutine ε α} (hplace : place'.rank < place.rank)
    (hcoroutine : coroutine'.rank = coroutine.rank) :
    Call.rank ⟨kind', place', coroutine'⟩ < Call.rank ⟨kind, place, coroutine⟩ := by
  unfold Call.rank
  rw [hcoroutine]
  exact Nat.add_lt_add_right hplace _

theorem rank_created (hcreated : call.coroutine = .created) : call.coroutine.rank = 0 := by
  rw [hcreated]
  rfl

theorem stepsLeft_refused (hk : s.calls[k]? = some call) (hcreated : call.coroutine = .created)
    (hplace : 0 < call.place.rank) (message : String) :
    (s.refused k call message).stepsLeft < s.stepsLeft := by
  unfold refused
  split
  · refine stepsLeft_of_place hk rfl rfl ?_
    exact rank_lt_of_coroutine hplace (rank_created hcreated).symm
  · refine stepsLeft_of_place hk rfl rfl ?_
    exact rank_lt_of_coroutine hplace rfl

theorem stepsLeft_start (h : Invariant s) (hk : s.calls[k]? = some call)
    (hplace : call.place = .starting) {fault : Bool} (hs : s.start k call fault = some s') :
    s'.stepsLeft < s.stepsLeft := by
  have hcall := h.call k call hk
  simp only [CallOk, hplace] at hcall
  have hrank : call.place.rank = 12 := by
    rw [hplace]
    rfl
  have hzero := rank_created hcall.1
  have hcallrank : call.rank = 12 := by rw [Call.rank, hrank, hzero]
  unfold Runner.start at hs
  split at hs
  · split at hs
    · cases hs
      refine stepsLeft_of_place hk rfl rfl ?_
      exact rank_lt_of_coroutine (hrank ▸ Nat.zero_lt_succ 11) hzero.symm
    · cases hs
      refine stepsLeft_of_place hk rfl rfl ?_
      exact rank_lt_of_coroutine (hrank ▸ Nat.zero_lt_succ 11) hzero.symm
  · cases hs
  · cases hs
    refine stepsLeft_of_place hk rfl rfl ?_
    refine rank_lt_of_coroutine ?_ rfl
    rw [hrank]
    exact (by decide : 6 < 12)
  · cases hs
  · cases hs
    refine stepsLeft_of_set hk rfl ?_
    change Progress.total Worker.rank (s.workers ++ [⟨.starting, false⟩]) +
      (7 + call.coroutine.rank) < _
    rw [Progress.total_append, hcallrank, hzero]
    simp only [Progress.total, Worker.rank]
    omega
  · cases hs
    refine stepsLeft_of_set hk rfl ?_
    change Progress.total Worker.rank (s.workers ++ [⟨.unstarted, false⟩]) +
      (0 + Coroutine.rank _) < _
    rw [Progress.total_append, hcallrank]
    simp only [Progress.total, Worker.rank]
    cases call.kind with
    | run =>
      simp only [Coroutine.rank]
      omega
    | close =>
      simp only [hzero]
      omega

theorem stepsLeft_resume (hk : s.calls[k]? = some call) (hplace : 3 < call.place.rank)
    (loop : ℕ) (thread : Option ℕ) (result : Except (Failure ε) α) :
    (s.resume k call loop thread result).stepsLeft < s.stepsLeft := by
  unfold resume
  split
  · refine stepsLeft_of_place hk rfl rfl ?_
    exact rank_lt_of_coroutine (Nat.zero_lt_of_lt hplace) rfl
  · refine stepsLeft_of_place hk rfl rfl ?_
    exact rank_lt_of_coroutine hplace rfl

theorem stepsLeft_setWorker {w : ℕ} {worker : Worker} (hw : s.workers[w]? = some worker)
    (new : Worker) : Progress.total Worker.rank (s.workers.set w new) + worker.rank =
      Progress.total Worker.rank s.workers + new.rank := Progress.total_set Worker.rank hw new

theorem stepsLeft_advance (h : Invariant s) (hk : s.calls[k]? = some call) {fault : Bool}
    (hs : s.advance k call fault = some s') : s'.stepsLeft < s.stepsLeft := by
  have hcall := h.call k call hk
  cases advanced_of_advance hs with
  | enter hplace hfree =>
    refine stepsLeft_of_place hk rfl rfl ?_
    exact rank_lt_of_coroutine (by rw [hplace]; exact Nat.lt_succ_self 13) rfl
  | enterState hplace hfree =>
    refine stepsLeft_of_place hk rfl rfl ?_
    exact rank_lt_of_coroutine (by rw [hplace]; exact Nat.lt_succ_self 12) rfl
  | start hplace hs => exact stepsLeft_start h hk hplace hs
  | found hplace hready hloop =>
    refine stepsLeft_of_place hk rfl rfl ?_
    exact rank_lt_of_coroutine (by rw [hplace]; exact Nat.lt_succ_self 6) rfl
  | uninitialized hplace hready hloop => exact absurd hloop (h.ready hready)
  | expired hplace hready =>
    simp only [CallOk, hplace] at hcall
    exact stepsLeft_refused hk hcall.1 (by rw [hplace]; exact Nat.zero_lt_succ 6) _
  | submit hplace hs =>
    simp only [CallOk, hplace] at hcall
    obtain ⟨worker, -, hmap⟩ := Option.map_eq_some_iff.mp hs
    split at hmap
    · subst hmap
      exact stepsLeft_resume hk (by rw [hplace]; exact (by decide : 3 < 6)) _ _ _
    · subst hmap
      refine stepsLeft_of_place hk rfl rfl ?_
      rw [Call.rank, Call.rank, hplace, rank_created hcall.1]
      exact (by decide : 4 + 1 < 6 + 0)
  | returned hplace houtcome =>
    exact stepsLeft_resume hk (by rw [hplace]; exact Nat.lt_succ_self 3) _ _ _
  | interrupted hplace =>
    exact stepsLeft_resume hk (by rw [hplace]; exact Nat.lt_succ_self 3) _ _ _
  | mark hplace hfree =>
    refine stepsLeft_of_place hk rfl rfl ?_
    exact rank_lt_of_coroutine (by rw [hplace]; exact Nat.lt_succ_self 2) rfl
  | stop hplace hs =>
    obtain ⟨worker, hworker, hmap⟩ := Option.map_eq_some_iff.mp hs
    split at hmap
    · subst hmap
      refine stepsLeft_of_place hk rfl rfl ?_
      exact rank_lt_of_coroutine (by rw [hplace]; exact Nat.zero_lt_succ 1) rfl
    · subst hmap
      have hset := stepsLeft_setWorker hworker { worker with stopRequested := true }
      have hsame : Worker.rank { worker with stopRequested := true } = worker.rank := rfl
      rw [hsame] at hset
      split
      · refine stepsLeft_of_set hk rfl ?_
        change Progress.total Worker.rank (s.workers.set _ _) + (0 + call.coroutine.rank) < _
        rw [Nat.add_right_cancel hset, Call.rank, hplace]
        exact Nat.add_lt_add_left (Nat.add_lt_add_right (Nat.zero_lt_succ 1) _) _
      · refine stepsLeft_of_set hk rfl ?_
        change Progress.total Worker.rank (s.workers.set _ _) + (1 + call.coroutine.rank) < _
        rw [Nat.add_right_cancel hset, Call.rank, hplace]
        exact Nat.add_lt_add_left (Nat.add_lt_add_right (Nat.lt_succ_self 1) _) _
  | join hplace hs =>
    obtain ⟨worker, -, hworker⟩ := Option.bind_eq_some_iff.mp hs
    have hleave : ∀ answer, (s.leave k call call.coroutine answer).stepsLeft < s.stepsLeft := by
      intro answer
      refine stepsLeft_of_place hk rfl rfl ?_
      exact rank_lt_of_coroutine (by rw [hplace]; exact Nat.lt_succ_self 0) rfl
    split at hworker
    · cases hworker
      exact hleave _
    · cases hworker
    · cases hworker
      exact hleave _
    · cases hworker
    · cases hworker
    · cases hworker
      exact hleave _

theorem stepsLeft_runLoop {w : ℕ} {worker : Worker} (hw : s.workers[w]? = some worker)
    (hs : s.runLoop w worker = some s') : s'.stepsLeft < s.stepsLeft := by
  have hset : ∀ (phase : Phase) (t : Runner ε α), t.calls = s.calls →
      t.workers = s.workers.set w { worker with phase := phase } →
      Worker.rank { worker with phase := phase } < worker.rank → t.stepsLeft < s.stepsLeft := by
    intro phase t hcalls hworkers hlt
    have htotal := stepsLeft_setWorker hw { worker with phase := phase }
    unfold stepsLeft
    rw [hcalls, hworkers]
    omega
  unfold runLoop at hs
  cases hphase : worker.phase with
  | unstarted => simp [hphase] at hs
  | starting =>
    simp only [hphase, Option.some.injEq] at hs
    subst hs
    exact hset .created _ rfl rfl (by simp [Worker.rank, hphase])
  | created =>
    simp only [hphase, Option.some.injEq] at hs
    subst hs
    exact hset .running _ rfl rfl (by simp [Worker.rank, hphase])
  | running =>
    simp only [hphase, Option.ite_none_right_eq_some, Option.some.injEq] at hs
    obtain ⟨-, rfl⟩ := hs
    exact hset (.draining _) _ rfl rfl (by simp [Worker.rank, hphase])
  | draining tasks =>
    simp only [hphase, Option.ite_none_right_eq_some, Option.some.injEq] at hs
    obtain ⟨-, rfl⟩ := hs
    exact hset .stopped _ rfl rfl (by simp [Worker.rank, hphase])
  | stopped => simp [hphase] at hs

/-- A step, where an arrival is none. -/
def Move.IsStep : Move ε α → Prop
  | .call _ => False
  | _ => True

theorem stepsLeft_next (h : Invariant s) {move : Move ε α} (hmove : Move.IsStep move)
    (hs : s.next move = some s') : s'.stepsLeft < s.stepsLeft := by
  cases move with
  | call kind => cases hmove
  | caller k fault =>
    obtain ⟨call, hk, hs⟩ := Option.bind_eq_some_iff.mp hs
    exact stepsLeft_advance h hk hs
  | worker w =>
    obtain ⟨worker, hw, hs⟩ := Option.bind_eq_some_iff.mp hs
    exact stepsLeft_runLoop hw hs
  | coroutine k outcome =>
    obtain ⟨call, hk, hs⟩ := Option.bind_eq_some_iff.mp hs
    obtain ⟨⟨loop, hscheduled⟩, rfl⟩ := finish_eq hs
    refine stepsLeft_of_place hk rfl rfl ?_
    rw [Call.rank, Call.rank, hscheduled]
    exact Nat.lt_succ_self _

/-! ## What a call may wait for -/

/-- The tasks that a draining worker waits for were handed to it. -/
def Drains (s : Runner ε α) : Prop :=
  ∀ (w : ℕ) worker tasks (k : ℕ), s.workers[w]? = some worker → worker.phase = .draining tasks →
    k ∈ tasks → ∃ call, s.calls[k]? = some call ∧
      (call.coroutine = .scheduled w ∨ ∃ outcome, call.coroutine = .finished outcome)

theorem Drains.of_later (h : Drains s) (hlater : Later s s')
    (hworkers : ∀ (w : ℕ) worker tasks, s'.workers[w]? = some worker →
      worker.phase = .draining tasks →
      ∃ old, s.workers[w]? = some old ∧ old.phase = .draining tasks) : Drains s' := by
  intro w worker tasks k hw hphase hk
  obtain ⟨old, hold, hdraining⟩ := hworkers w worker tasks hw hphase
  obtain ⟨call, hcall, hcoroutine⟩ := h w old tasks k hold hdraining hk
  obtain ⟨call', hcall', -, -, hkept⟩ := hlater.call k call hcall
  refine ⟨call', hcall', ?_⟩
  rcases hcoroutine with hscheduled | ⟨outcome, hfinished⟩
  · rw [hscheduled] at hkept
    exact hkept
  · rw [hfinished] at hkept
    exact .inr ⟨outcome, hkept⟩

theorem drained_of_set {workers : List Worker} {i : ℕ} {new : Worker}
    (hnew : ∀ tasks, new.phase ≠ .draining tasks) (w : ℕ) (worker : Worker) (tasks : List ℕ)
    (hw : (workers.set i new)[w]? = some worker) (hphase : worker.phase = .draining tasks) :
    ∃ old, workers[w]? = some old ∧ old.phase = .draining tasks := by
  by_cases hiw : i = w
  · subst hiw
    have hmem := List.mem_or_eq_of_mem_set (List.mem_of_getElem? hw)
    have hlt := (List.getElem?_eq_some_iff.mp hw).1
    rw [List.length_set] at hlt
    rw [List.getElem?_set_self hlt] at hw
    cases hw
    exact absurd hphase (hnew tasks)
  · exact ⟨worker, (List.getElem?_set_ne hiw).symm.trans hw, hphase⟩

theorem scheduled_of_pending {w : ℕ} (h : k ∈ s.pending w) :
    ∃ call, s.calls[k]? = some call ∧ call.coroutine = .scheduled w := by
  obtain ⟨-, hfilter⟩ := List.mem_filter.mp h
  split at hfilter
  · next loop hk => exact ⟨_, hk, by rw [beq_iff_eq.mp hfilter]⟩
  · cases hfilter

theorem drains_runLoop (hdrains : Drains s) {w : ℕ} {worker : Worker}
    (hw : s.workers[w]? = some worker) (hs : s.runLoop w worker = some s') : Drains s' := by
  have hlater := later_runLoop hw hs
  unfold runLoop at hs
  split at hs
  · cases hs
  · cases hs
    exact hdrains.of_later hlater (drained_of_set fun _ => nofun)
  · cases hs
    exact hdrains.of_later hlater (drained_of_set fun _ => nofun)
  · split at hs
    · cases hs
      intro i other tasks k hi hphase hk
      by_cases hiw : w = i
      · subst hiw
        change (s.workers.set _ _)[_]? = _ at hi
        rw [List.getElem?_set_self (List.getElem?_eq_some_iff.mp hw).1] at hi
        cases hi
        cases hphase
        obtain ⟨call, hcall, hscheduled⟩ := scheduled_of_pending hk
        exact ⟨call, hcall, .inl hscheduled⟩
      · exact hdrains i other tasks k ((List.getElem?_set_ne hiw).symm.trans hi) hphase hk
    · cases hs
  · split at hs
    · cases hs
      exact hdrains.of_later hlater (drained_of_set fun _ => nofun)
    · cases hs
  · cases hs

theorem drains_next (h : Invariant s) (hdrains : Drains s) {move : Move ε α}
    (hs : s.next move = some s') : Drains s' := by
  have hlater := later_next h hs
  cases move with
  | call kind =>
    cases hs
    exact hdrains.of_later hlater fun w worker tasks hw hphase => ⟨worker, hw, hphase⟩
  | caller k fault =>
    obtain ⟨call, hk, hs⟩ := Option.bind_eq_some_iff.mp hs
    obtain ⟨call', hshape⟩ := shape_advance h hk hs
    exact hdrains.of_later hlater hshape.drained
  | worker w =>
    obtain ⟨worker, hw, hs⟩ := Option.bind_eq_some_iff.mp hs
    exact drains_runLoop hdrains hw hs
  | coroutine k outcome =>
    obtain ⟨call, hk, hs⟩ := Option.bind_eq_some_iff.mp hs
    obtain ⟨-, rfl⟩ := finish_eq hs
    exact hdrains.of_later hlater fun w worker tasks hw hphase => ⟨worker, hw, hphase⟩

theorem drains_after (moves : List (Move ε α)) : Drains (after moves) := by
  have hrun : Invariant (after moves) ∧ Drains (after moves) :=
    Runs.run_invariant (fun s => Invariant s ∧ Drains s)
      ⟨invariant_fresh, by simp [Drains, fresh]⟩
      fun s move t _ hs ht => ⟨hs.1.next ht, drains_next hs.1 hs.2 ht⟩
  exact hrun.2

/-- A coroutine is on a loop that runs it. -/
def RunsCoroutine (s : Runner ε α) : Prop :=
  ∃ call ∈ s.calls, ∃ (w : ℕ) (worker : Worker), call.coroutine = .scheduled w ∧
    s.workers[w]? = some worker ∧
    (worker.phase = .running ∨ ∃ tasks, worker.phase = .draining tasks)

/-- No call and no worker can take a step without a fault. -/
structure Stuck (s : Runner ε α) : Prop where
  caller : ∀ k, s.next (.caller k false) = none
  worker : ∀ w, s.next (.worker w) = none

/-- A worker that has something to do takes a step. -/
theorem Stuck.runLoop (hstuck : Stuck s) {w : ℕ} {worker : Worker}
    (hw : s.workers[w]? = some worker) : s.runLoop w worker = none := by
  have hnone := hstuck.worker w
  rwa [Runner.next, hw] at hnone

theorem Stuck.advance (hstuck : Stuck s) (hk : s.calls[k]? = some call) :
    s.advance k call false = none := by
  have hnone := hstuck.caller k
  rwa [Runner.next, hk] at hnone

theorem Stuck.not_early (hstuck : Stuck s) {w : ℕ} {worker : Worker}
    (hw : s.workers[w]? = some worker) (h : worker.phase = .starting ∨ worker.phase = .created) :
    False := by
  have hnone := hstuck.runLoop hw
  unfold Runner.runLoop at hnone
  rcases h with hp | hp <;> rw [hp] at hnone <;> cases hnone

/-- Where a worker waits for a task that it was told to end, a coroutine is run. -/
theorem Stuck.runs_of_draining (hstuck : Stuck s) (hdrains : Drains s) {w : ℕ} {worker : Worker}
    (hw : s.workers[w]? = some worker) {tasks : List ℕ} (hphase : worker.phase = .draining tasks) :
    s.RunsCoroutine := by
  have hnone := hstuck.runLoop hw
  unfold Runner.runLoop at hnone
  simp only [hphase, ite_eq_right_iff, reduceCtorEq, imp_false] at hnone
  obtain ⟨k, hk, hunfinished⟩ : ∃ k ∈ tasks, ¬s.isFinished k = true := by
    simpa only [List.all_eq_true, not_forall, exists_prop] using hnone
  obtain ⟨call, hcall, hscheduled | ⟨outcome, hfinished⟩⟩ := hdrains w worker tasks k hw hphase hk
  · exact ⟨call, List.mem_of_getElem? hcall, w, worker, hscheduled, hw, .inr ⟨tasks, hphase⟩⟩
  · obtain ⟨kind, place, coroutine⟩ := call
    cases hfinished
    rw [isFinished, hcall] at hunfinished
    exact absurd rfl hunfinished

/-- The call that holds the submission lock only waits for a coroutine that is run. -/
theorem Stuck.runs_of_inside (hstuck : Stuck s) (h : Invariant s) (hdrains : Drains s)
    (hending : Ending s) (hlength : s.workers.length ≤ 1) (hk : s.calls[k]? = some call)
    (hinside : call.place.inside = true) : s.RunsCoroutine := by
  have hlock := h.lock_of_inside hk hinside
  have hcall := h.call k call hk
  have hnone := hstuck.advance hk
  have hfree : call.place.holdsState = false → s.stateLock = none :=
    h.state_free hk (.inr hlock)
  have hexists : ∀ (loop : ℕ) thread, s.Read call.kind loop thread →
      ∃ worker, s.workers[loop]? = some worker := fun loop thread hread =>
    let ⟨worker, hw, _⟩ := hread.1
    ⟨worker, hw⟩
  unfold Runner.advance at hnone
  cases hplace : call.place with
  | submissionLock =>
    rw [hplace] at hinside
    cases hinside
  | ended answer =>
    rw [hplace] at hinside
    cases hinside
  | stateLock =>
    simp only [hplace] at hnone
    rw [if_pos (hfree (by rw [hplace]; rfl))] at hnone
    cases hnone
  | starting =>
    simp only [hplace] at hnone
    unfold Runner.start at hnone
    cases hclosed : s.closed <;> cases hloop : s.loop <;> cases hkind : call.kind <;>
      simp [hclosed, hloop, hkind] at hnone
  | ready =>
    simp only [CallOk, hplace] at hcall
    simp only [hplace] at hnone
    rcases hcall.2.2.2 with hready | ⟨w, worker, hw, hphase⟩
    · rw [if_pos hready] at hnone
      cases hloop : s.loop <;> simp [hloop] at hnone
    · exact (hstuck.not_early hw hphase).elim
  | submitting loop thread =>
    simp only [CallOk, hplace] at hcall
    simp only [hplace] at hnone
    obtain ⟨worker, hw⟩ := hexists loop thread hcall.2.2
    rw [submit, hw] at hnone
    cases hnone
  | result loop thread =>
    simp only [CallOk, hplace] at hcall
    simp only [hplace] at hnone
    rcases hcall.1 with hscheduled | ⟨outcome, hfinished⟩
    · obtain ⟨worker, hw, hserves⟩ := h.task k call loop hk hscheduled
      rcases hserves with hp | hp | ⟨tasks, hp, -⟩
      · exact (hstuck.not_early hw (.inr hp)).elim
      · exact ⟨call, List.mem_of_getElem? hk, loop, worker, hscheduled, hw, .inl hp⟩
      · exact ⟨call, List.mem_of_getElem? hk, loop, worker, hscheduled, hw, .inr ⟨tasks, hp⟩⟩
    · simp [hfinished] at hnone
  | marking loop thread cleanupError =>
    simp only [hplace] at hnone
    rw [if_pos (hfree (by rw [hplace]; rfl))] at hnone
    cases hnone
  | stopping loop thread cleanupError =>
    simp only [CallOk, hplace] at hcall
    simp only [hplace] at hnone
    obtain ⟨worker, hw⟩ := hexists loop thread hcall.2.2.2.1
    rw [stop, hw] at hnone
    cases hnone
  | joining thread cleanupError =>
    simp only [CallOk, hplace] at hcall
    simp only [hplace] at hnone
    obtain ⟨-, -, hclosed, hlt⟩ := hcall
    have hw := List.getElem?_eq_getElem hlt
    rw [join, hw] at hnone
    -- the only worker was told to stop
    have htold : (s.workers[thread]).stopRequested = true := by
      rcases hending.told hclosed with ⟨other, hother, loop, thread', error, hp⟩ | ⟨told, hmem, ht⟩
      · obtain ⟨j, hj⟩ := List.mem_iff_getElem?.mp hother
        have hlockj := h.lock_of_inside hj (by rw [hp]; rfl)
        obtain rfl := Option.some.inj (hlock.symm.trans hlockj)
        rw [hk] at hj
        cases hj
        rw [hplace] at hp
        cases hp
      · obtain ⟨i, hi, rfl⟩ := List.getElem_of_mem hmem
        obtain rfl : i = thread := by omega
        exact ht
    cases hphase : (s.workers[thread]).phase with
    | unstarted => simp [hphase] at hnone
    | starting => exact (hstuck.not_early hw (.inl hphase)).elim
    | created => exact (hstuck.not_early hw (.inr hphase)).elim
    | running =>
      have hrun := hstuck.runLoop hw
      unfold Runner.runLoop at hrun
      simp [hphase, htold] at hrun
    | draining tasks => exact hstuck.runs_of_draining hdrains hw hphase
    | stopped => simp [hphase] at hnone

/-- Where no step is left and no coroutine is run, no call is left. -/
theorem Stuck.all_ended (hstuck : Stuck s) (h : Invariant s) (hdrains : Drains s)
    (hending : Ending s) (hlength : s.workers.length ≤ 1) (hidle : ¬s.RunsCoroutine)
    (hmem : call ∈ s.calls) : ∃ answer, call.place = .ended answer := by
  obtain ⟨k, hk⟩ := List.mem_iff_getElem?.mp hmem
  cases hplace : call.place with
  | ended answer => exact ⟨answer, rfl⟩
  | submissionLock =>
    cases hlock : s.submissionLock with
    | none =>
      have hnone := hstuck.advance hk
      unfold Runner.advance at hnone
      simp [hplace, hlock] at hnone
    | some j =>
      have hj := List.getElem?_eq_getElem (h.holder j hlock)
      have hinside := (h.mutex j _ hj).mpr hlock
      exact absurd (hstuck.runs_of_inside h hdrains hending hlength hj hinside) hidle
  | _ =>
    have hinside : call.place.inside = true := by
      rw [hplace]
      rfl
    exact absurd (hstuck.runs_of_inside h hdrains hending hlength hk hinside) hidle

end Runner

end OpenJobSpec.SyncRunner
