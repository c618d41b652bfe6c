import OpenJobSpec.Client.SyncRunnerInvariant

/-! # Every interleaving of the synchronous client

The workers and the coroutines keep the invariant too, so it holds after every
interleaving. From it: the calls are served one at a time, and each ends with the
outcome of its own coroutine or with an error that says why there is none.
-/
namespace OpenJobSpec.SyncRunner
variable {ε α : Type*}

/-- A coroutine that was handed over or closed is never handed over again. -/
def Coroutine.Later (coroutine coroutine' : Coroutine ε α) : Prop :=
  match coroutine with
  | .created => True
  | .scheduled loop => coroutine' = .scheduled loop ∨ ∃ outcome, coroutine' = .finished outcome
  | .discarded | .finished _ => coroutine' = coroutine

theorem Coroutine.Later.refl (coroutine : Coroutine ε α) :
    Coroutine.Later coroutine coroutine := by
  cases coroutine with
  | created => trivial
  | scheduled loop => exact .inl rfl
  | discarded => rfl
  | finished outcome => rfl

theorem Coroutine.Later.trans {a b c : Coroutine ε α} (h : Coroutine.Later a b)
    (h' : Coroutine.Later b c) : Coroutine.Later a c := by
  cases a with
  | created => trivial
  | scheduled loop =>
    rcases h with rfl | ⟨outcome, rfl⟩
    · exact h'
    · exact .inr ⟨outcome, h'⟩
  | discarded =>
    cases h
    exact h'
  | finished outcome =>
    cases h
    exact h'

/-- The wait that was interrupted has left its coroutine to the loop. -/
theorem Cleaned.of_scheduled {coroutine : Coroutine ε α} {cleanupError : Option (Failure ε)}
    {loop : ℕ} (h : Cleaned coroutine cleanupError) (hscheduled : coroutine = .scheduled loop)
    (outcome : Except ε α) : Cleaned (.finished outcome) cleanupError := by
  cases h with
  | returned value => cases hscheduled
  | raised error => cases hscheduled
  | interrupted h => exact .interrupted (.inr ⟨outcome, rfl⟩)

namespace Runner
variable {s s' : Runner ε α} {k j : ℕ} {call : Call ε α}

/-! ## Steps of the workers and of the coroutines -/

theorem Read.of_worker {kind : Kind} {w loop : ℕ} {thread : Option ℕ} {worker new : Worker}
    (h : s.Read kind loop thread) (hw : s.workers[w]? = some worker)
    (hnew : worker.phase.HasLoop → new.phase.HasLoop)
    (hworkers : s'.workers = s.workers.set w new) : s'.Read kind loop thread := by
  refine ⟨?_, ?_⟩
  · rw [hworkers]
    exact exists_of_set hw hnew h.1
  · rw [hworkers, List.length_set]
    exact h.2

/-- A step of a worker, which changes its phase, and `_loop` and `_ready` at its start. -/
theorem Invariant.of_worker (h : Invariant s) {w : ℕ} {worker : Worker}
    (hw : s.workers[w]? = some worker) (phase : Phase) (loop : Option ℕ) (ready : Bool)
    (hloop : loop = s.loop ∨ loop = some w ∧ phase.HasLoop) (hmade : phase.HasLoop → loop ≠ none)
    (hready : ready = true → loop ≠ none) (hkept : s.ready = true → ready = true)
    (hwaited : worker.phase = .starting ∨ worker.phase = .created →
      ready = true ∨ phase = .created)
    (hhas : worker.phase.HasLoop → phase.HasLoop)
    (hserves : ∀ k call, s.calls[k]? = some call → call.coroutine = .scheduled w →
      worker.phase.Serves k → phase.Serves k)
    (hstop : phase = .stopped ∨ (∃ tasks, phase = .draining tasks) →
      worker.stopRequested = true) :
    Invariant { s.setWorker w { worker with phase := phase } with
      loop := loop, ready := ready } := by
  have hself : (s.workers.set w { worker with phase := phase })[w]? =
      some { worker with phase := phase } :=
    List.getElem?_set_self (List.getElem?_eq_some_iff.mp hw).1
  have hkeep : s.loop ≠ none → loop ≠ none := by
    rcases hloop with rfl | ⟨rfl, -⟩
    · exact id
    · rintro _ ⟨⟩
  have hset : ∀ (i : ℕ) other, (s.workers.set w { worker with phase := phase })[i]? = some other →
      (other.stopRequested = true → s.closed = true) ∧
      (other.phase = .stopped ∨ (∃ tasks, other.phase = .draining tasks) →
        other.stopRequested = true) ∧ (other.phase.HasLoop → loop ≠ none) := by
    intro i other hi
    rcases List.mem_or_eq_of_mem_set (List.mem_of_getElem? hi) with hold | rfl
    · obtain ⟨j, hj⟩ := List.mem_iff_getElem?.mp hold
      exact ⟨(h.worker j other hj).closed, (h.worker j other hj).stopping,
        fun hhas => hkeep ((h.worker j other hj).loop hhas)⟩
    · exact ⟨(h.worker w worker hw).closed, hstop, hmade⟩
  refine ⟨h.mutex, h.holder, h.state, ?_, ?_, ?_, ?_, hready, ?_⟩
  · intro k call hk
    have hcall := h.call k call hk
    unfold CallOk at hcall ⊢
    split at hcall
    · exact hcall
    · exact hcall
    · exact hcall
    · obtain ⟨hcreated, hstate, hclosed, hwait⟩ := hcall
      refine ⟨hcreated, hstate, hclosed, ?_⟩
      rcases hwait with hset | ⟨i, other, hi, hphase⟩
      · exact .inl (hkept hset)
      · by_cases hiw : w = i
        · subst hiw
          rw [hw] at hi
          cases hi
          rcases hwaited hphase with hset | hcreated'
          · exact .inl hset
          · exact .inr ⟨w, _, hself, .inr hcreated'⟩
        · exact .inr ⟨i, other, (List.getElem?_set_ne hiw).trans hi, hphase⟩
    · exact ⟨hcall.1, hcall.2.1, hcall.2.2.of_worker hw hhas rfl⟩
    · exact ⟨hcall.1, hcall.2.1, hcall.2.2.of_worker hw hhas rfl⟩
    · exact ⟨hcall.1, hcall.2.1, hcall.2.2.1, hcall.2.2.2.of_worker hw hhas rfl⟩
    · obtain ⟨hkind, hcleaned, hclosed, hread, hrunning⟩ := hcall
      refine ⟨hkind, hcleaned, hclosed, hread.of_worker hw hhas rfl, ?_⟩
      intro i other hi
      rcases List.mem_or_eq_of_mem_set (List.mem_of_getElem? hi) with hold | rfl
      · obtain ⟨j, hj⟩ := List.mem_iff_getElem?.mp hold
        exact hrunning j other hj
      · exact hrunning w worker hw
    · obtain ⟨hkind, hcleaned, hclosed, hlt⟩ := hcall
      refine ⟨hkind, hcleaned, hclosed, ?_⟩
      change _ < (s.workers.set _ _).length
      rwa [List.length_set]
    · exact hcall
  · exact fun i other hi => ⟨(hset i other hi).1, (hset i other hi).2.1, (hset i other hi).2.2⟩
  · intro i hi
    rcases hloop with heq | ⟨heq, hmade⟩
    · exact exists_of_set hw hhas (h.loop i (heq.symm.trans hi))
    · cases heq.symm.trans hi
      exact ⟨_, hself, hmade⟩
  · intro _
    obtain ⟨t, ht, hlt⟩ := h.thread (List.ne_nil_of_mem (List.mem_of_getElem? hw))
    refine ⟨t, ht, ?_⟩
    change t < (s.workers.set _ _).length
    rwa [List.length_set]
  · intro k call i hk hscheduled
    obtain ⟨other, hother, hserves'⟩ := h.task k call i hk hscheduled
    by_cases hiw : w = i
    · subst hiw
      rw [hw] at hother
      cases hother
      exact ⟨_, hself, hserves k call hk hscheduled hserves'⟩
    · exact ⟨other, (List.getElem?_set_ne hiw).trans hother, hserves'⟩

theorem mem_pending {w : ℕ} (hk : s.calls[k]? = some call)
    (hscheduled : call.coroutine = .scheduled w) : k ∈ s.pending w := by
  obtain ⟨kind, place, coroutine⟩ := call
  cases hscheduled
  rw [pending, List.mem_filter]
  refine ⟨List.mem_range.mpr (List.getElem?_eq_some_iff.mp hk).1, ?_⟩
  rw [hk]
  exact beq_self_eq_true w

theorem not_finished_of_scheduled {w : ℕ} (hk : s.calls[k]? = some call)
    (hscheduled : call.coroutine = .scheduled w) : s.isFinished k = false := by
  obtain ⟨kind, place, coroutine⟩ := call
  cases hscheduled
  rw [isFinished, hk]

theorem Invariant.runLoop (h : Invariant s) {w : ℕ} {worker : Worker}
    (hw : s.workers[w]? = some worker) (hs : s.runLoop w worker = some s') : Invariant s' := by
  have hok := h.worker w worker hw
  unfold Runner.runLoop at hs
  split at hs
  · cases hs
  · next hphase =>
    cases hs
    refine h.of_worker hw .created (some w) s.ready (.inr ⟨rfl, nofun, nofun⟩)
      (fun _ => nofun) (fun _ => nofun) id
      (fun _ => .inr rfl) (fun _ => ⟨nofun, nofun⟩) (fun k call _ _ _ => .inl rfl) ?_
    simp
  · next hphase =>
    cases hs
    have hloop : s.loop ≠ none := hok.loop (by rw [hphase]; exact ⟨nofun, nofun⟩)
    refine h.of_worker hw .running s.loop true (.inl rfl) (fun _ => hloop) (fun _ => hloop)
      (fun _ => rfl)
      (fun _ => .inl rfl) (fun _ => ⟨nofun, nofun⟩) (fun k call _ _ _ => .inr (.inl rfl)) ?_
    simp
  · next hphase =>
    split at hs
    · next hstop =>
      cases hs
      have hloop : s.loop ≠ none := hok.loop (by rw [hphase]; exact ⟨nofun, nofun⟩)
      refine h.of_worker hw (.draining (s.pending w)) s.loop s.ready (.inl rfl) (fun _ => hloop)
        h.ready id ?_
        (fun _ => ⟨nofun, nofun⟩) ?_ (fun _ => hstop)
      · rw [hphase]
        simp
      · intro k call hk hscheduled _
        exact .inr (.inr ⟨_, rfl, mem_pending hk hscheduled⟩)
    · cases hs
  · next tasks hphase =>
    split at hs
    · next hdone =>
      cases hs
      have hloop : s.loop ≠ none := hok.loop (by rw [hphase]; exact ⟨nofun, nofun⟩)
      refine h.of_worker hw .stopped s.loop s.ready (.inl rfl) (fun _ => hloop) h.ready id ?_
        (fun _ => ⟨nofun, nofun⟩) ?_ (fun _ => hok.stopping (.inr ⟨tasks, hphase⟩))
      · rw [hphase]
        simp
      · intro k call hk hscheduled hserves
        -- a task that is not done is not on the loop that it is pending on
        rw [hphase] at hserves
        rcases hserves with hp | hp | ⟨_, hp, hmem⟩
        · cases hp
        · cases hp
        · cases hp
          have := List.all_eq_true.mp hdone k hmem
          rw [not_finished_of_scheduled hk hscheduled] at this
          cases this
    · cases hs
  · cases hs

theorem CallOk.finish {loop : ℕ} (h : s.CallOk k call)
    (hscheduled : call.coroutine = .scheduled loop) (outcome : Except ε α) :
    s.CallOk k { call with coroutine := .finished outcome } := by
  have hcreated : call.coroutine ≠ .created := by
    rw [hscheduled]
    exact nofun
  obtain ⟨kind, place, coroutine⟩ := call
  cases place with
  | submissionLock => exact absurd h hcreated
  | stateLock => exact absurd h hcreated
  | starting => exact absurd h.1 hcreated
  | ready => exact absurd h.1 hcreated
  | submitting loop thread => exact absurd h.1 hcreated
  | result loop thread => exact ⟨.inr ⟨outcome, rfl⟩, h.2⟩
  | marking loop thread cleanupError =>
    exact ⟨h.1, Cleaned.of_scheduled h.2.1 hscheduled outcome, h.2.2⟩
  | stopping loop thread cleanupError =>
    exact ⟨h.1, Cleaned.of_scheduled h.2.1 hscheduled outcome, h.2.2⟩
  | joining thread cleanupError =>
    exact ⟨h.1, Cleaned.of_scheduled h.2.1 hscheduled outcome, h.2.2⟩
  | ended answer =>
    change Answered s.closed kind (.finished outcome) answer
    change Answered s.closed kind coroutine answer at h
    cases h with
    | returned value => cases hscheduled
    | raised error => cases hscheduled
    | interrupted h => exact .interrupted (.inr ⟨outcome, rfl⟩)
    | refused h => cases hscheduled
    | notStarted h => cases hscheduled
    | closedBefore h => cases hscheduled
    | notClosed h => cases hscheduled
    | cleaned h hcleaned => exact .cleaned h (Cleaned.of_scheduled hcleaned hscheduled outcome)
    | notStopped h hcoroutine hmessage => exact .notStopped h (.inr ⟨outcome, rfl⟩) hmessage

/-- What a call asks of the state is the same where no lock and no worker has changed. -/
theorem CallOk.of_same (h : s.CallOk k call) (hclosed : s'.closed = s.closed)
    (hready : s'.ready = s.ready) (hstate : s'.stateLock = s.stateLock)
    (hworkers : s'.workers = s.workers) : s'.CallOk k call := by
  unfold CallOk Read at h ⊢
  rw [hclosed, hready, hstate, hworkers]
  exact h

theorem finish_eq {outcome : Except ε α} (hs : s.finish k call outcome = some s') :
    (∃ loop, call.coroutine = .scheduled loop) ∧
      s' = s.put k { call with coroutine := .finished outcome } := by
  unfold Runner.finish at hs
  split at hs
  · next loop hscheduled =>
    obtain ⟨worker, -, hworker⟩ := Option.bind_eq_some_iff.mp hs
    refine ⟨⟨loop, hscheduled⟩, ?_⟩
    split at hworker
    · exact (Option.some.inj hworker).symm
    · exact (Option.some.inj hworker).symm
    · cases hworker
  · cases hs

theorem Invariant.finish (h : Invariant s) (hk : s.calls[k]? = some call) {outcome : Except ε α}
    (hs : s.finish k call outcome = some s') : Invariant s' := by
  obtain ⟨⟨loop, hscheduled⟩, rfl⟩ := finish_eq hs
  have hlt : k < s.calls.length := (List.getElem?_eq_some_iff.mp hk).1
  -- the calls of the new state: this one with its coroutine ended, and the others
  have hcalls : ∀ j callj,
      (s.put k { call with coroutine := .finished outcome }).calls[j]? = some callj →
      (j = k ∧ callj = { call with coroutine := .finished outcome }) ∨
        (j ≠ k ∧ s.calls[j]? = some callj) := by
    intro j callj hj
    by_cases hjk : j = k
    · subst hjk
      rw [Runner.put, List.getElem?_set_self hlt] at hj
      exact .inl ⟨rfl, (Option.some.inj hj).symm⟩
    · rw [Runner.put, List.getElem?_set_ne (Ne.symm hjk)] at hj
      exact .inr ⟨hjk, hj⟩
  refine ⟨?_, ?_, ?_, ?_, fun w worker hw => (h.worker w worker hw).mono id id, h.loop, h.thread,
    h.ready, ?_⟩
  · intro j callj hj
    rcases hcalls j callj hj with ⟨rfl, rfl⟩ | ⟨-, hj⟩
    · exact h.mutex j call hk
    · exact h.mutex j callj hj
  · intro j hj
    rw [Runner.put, List.length_set]
    exact h.holder j hj
  · intro j hj
    obtain ⟨other, hother, hholds⟩ := h.state j hj
    by_cases hjk : j = k
    · subst hjk
      rw [hk] at hother
      cases hother
      exact ⟨_, List.getElem?_set_self hlt, hholds⟩
    · exact ⟨other, (List.getElem?_set_ne (Ne.symm hjk)).trans hother, hholds⟩
  · intro j callj hj
    rcases hcalls j callj hj with ⟨rfl, rfl⟩ | ⟨-, hj⟩
    · exact ((h.call j call hk).finish hscheduled outcome).of_same rfl rfl rfl rfl
    · exact (h.call j callj hj).of_same rfl rfl rfl rfl
  · intro j callj w hj hw
    rcases hcalls j callj hj with ⟨rfl, rfl⟩ | ⟨-, hj⟩
    · cases hw
    · exact h.task j callj w hj hw

theorem getElem?_append_call {calls : List (Call ε α)} {new : Call ε α}
    (h : (calls ++ [new])[k]? = some call) :
    calls[k]? = some call ∨ k = calls.length ∧ call = new := by
  by_cases hk : k < calls.length
  · rw [List.getElem?_append_left hk] at h
    exact .inl h
  · have hlt := (List.getElem?_eq_some_iff.mp h).1
    rw [List.length_append, List.length_singleton] at hlt
    obtain rfl : k = calls.length := Nat.le_antisymm (Nat.le_of_lt_succ hlt) (Nat.le_of_not_lt hk)
    rw [List.getElem?_concat_length] at h
    exact .inr ⟨rfl, (Option.some.inj h).symm⟩

theorem Invariant.arrive (h : Invariant s) (kind : Kind) :
    Invariant { s with calls := s.calls ++ [⟨kind, .submissionLock, .created⟩] } := by
  refine ⟨?_, ?_, ?_, ?_, fun w worker hw => (h.worker w worker hw).mono id id, h.loop, h.thread,
    h.ready, ?_⟩
  · intro j callj hj
    rcases getElem?_append_call hj with hj | ⟨rfl, rfl⟩
    · exact h.mutex j callj hj
    · exact iff_of_false Bool.false_ne_true fun hlock =>
        absurd (h.holder _ hlock) (Nat.lt_irrefl _)
  · intro j hj
    exact Nat.lt_of_lt_of_le (h.holder j hj) (by simp)
  · intro j hj
    obtain ⟨other, hother, hholds⟩ := h.state j hj
    exact ⟨other, (List.getElem?_append_left (List.getElem?_eq_some_iff.mp hother).1).trans hother,
      hholds⟩
  · intro j callj hj
    rcases getElem?_append_call hj with hj | ⟨rfl, rfl⟩
    · exact (h.call j callj hj).of_same rfl rfl rfl rfl
    · rfl
  · intro j callj w hj hw
    rcases getElem?_append_call hj with hj | ⟨rfl, rfl⟩
    · exact h.task j callj w hj hw
    · cases hw

theorem Invariant.next (h : Invariant s) {move : Move ε α} (hs : s.next move = some s') :
    Invariant s' := by
  cases move with
  | call kind =>
    cases hs
    exact h.arrive kind
  | caller k fault =>
    obtain ⟨call, hk, hs⟩ := Option.bind_eq_some_iff.mp hs
    exact h.advance hk hs
  | worker w =>
    obtain ⟨worker, hw, hs⟩ := Option.bind_eq_some_iff.mp hs
    exact h.runLoop hw hs
  | coroutine k outcome =>
    obtain ⟨call, hk, hs⟩ := Option.bind_eq_some_iff.mp hs
    exact h.finish hk hs

theorem invariant_after (moves : List (Move ε α)) : Invariant (after moves) :=
  Runs.run_invariant Invariant invariant_fresh fun _ _ _ _ h hs => h.next hs

/-! ## What stays -/

/-- Calls and workers stay, with their answers and their ends, and a closed runner is never
opened again. -/
structure Later (s s' : Runner ε α) : Prop where
  call : ∀ (k : ℕ) call, s.calls[k]? = some call → ∃ call', s'.calls[k]? = some call' ∧
    call'.kind = call.kind ∧ (∀ answer, call.place = .ended answer → call'.place = .ended answer) ∧
    Coroutine.Later call.coroutine call'.coroutine
  worker : ∀ (w : ℕ) worker, s.workers[w]? = some worker → ∃ worker',
    s'.workers[w]? = some worker' ∧ (worker.stopRequested = true → worker'.stopRequested = true) ∧
    (worker.phase = .stopped → worker'.phase = .stopped)
  closed : s.closed = true → s'.closed = true

theorem Later.refl (s : Runner ε α) : Later s s where
  call _ call hk := ⟨call, hk, rfl, fun _ h => h, .refl _⟩
  worker _ worker hw := ⟨worker, hw, id, id⟩
  closed := id

theorem Later.trans {s s' s'' : Runner ε α} (h : Later s s') (h' : Later s' s'') :
    Later s s'' where
  call k call hk := by
    obtain ⟨call', hk', hkind, hended, hlater⟩ := h.call k call hk
    obtain ⟨call'', hk'', hkind', hended', hlater'⟩ := h'.call k call' hk'
    exact ⟨call'', hk'', hkind'.trans hkind, fun answer ha => hended' answer (hended answer ha),
      hlater.trans hlater'⟩
  worker w worker hw := by
    obtain ⟨worker', hw', hstop, hgone⟩ := h.worker w worker hw
    obtain ⟨worker'', hw'', hstop', hgone'⟩ := h'.worker w worker' hw'
    exact ⟨worker'', hw'', hstop' ∘ hstop, hgone' ∘ hgone⟩
  closed := h'.closed ∘ h.closed

/-- Where one call changes and the workers do not. -/
theorem Later.of_set (hk : s.calls[k]? = some call) {call' : Call ε α}
    (hcalls : s'.calls = s.calls.set k call') (hkind : call'.kind = call.kind)
    (hplace : ∀ answer, call.place ≠ .ended answer)
    (hlater : Coroutine.Later call.coroutine call'.coroutine)
    (hworker : ∀ (w : ℕ) worker, s.workers[w]? = some worker →
      ∃ worker', s'.workers[w]? = some worker' ∧
      (worker.stopRequested = true → worker'.stopRequested = true) ∧
      (worker.phase = .stopped → worker'.phase = .stopped))
    (hclosed : s.closed = true → s'.closed = true) : Later s s' where
  call j callj hj := by
    rw [hcalls]
    by_cases hjk : k = j
    · subst hjk
      rw [hk] at hj
      cases hj
      exact ⟨call', List.getElem?_set_self (List.getElem?_eq_some_iff.mp hk).1, hkind,
        fun answer ha => absurd ha (hplace answer), hlater⟩
    · exact ⟨callj, (List.getElem?_set_ne hjk).trans hj, rfl, fun _ h => h, .refl _⟩
  worker := hworker
  closed := hclosed

theorem worker_same (s : Runner ε α) (w : ℕ) (worker : Worker)
    (hw : s.workers[w]? = some worker) :
    ∃ worker', s.workers[w]? = some worker' ∧
      (worker.stopRequested = true → worker'.stopRequested = true) ∧
      (worker.phase = .stopped → worker'.phase = .stopped) := ⟨worker, hw, id, id⟩

theorem worker_spawned (s : Runner ε α) (new : Worker) (w : ℕ) (worker : Worker)
    (hw : s.workers[w]? = some worker) :
    ∃ worker', (s.workers ++ [new])[w]? = some worker' ∧
      (worker.stopRequested = true → worker'.stopRequested = true) ∧
      (worker.phase = .stopped → worker'.phase = .stopped) :=
  ⟨worker, getElem?_append_of_some new hw, id, id⟩

theorem worker_changed {i : ℕ} {old : Worker} (new : Worker) (hi : s.workers[i]? = some old)
    (hstop : old.stopRequested = true → new.stopRequested = true)
    (hgone : old.phase = .stopped → new.phase = .stopped) (w : ℕ) (worker : Worker)
    (hw : s.workers[w]? = some worker) :
    ∃ worker', (s.workers.set i new)[w]? = some worker' ∧
      (worker.stopRequested = true → worker'.stopRequested = true) ∧
      (worker.phase = .stopped → worker'.phase = .stopped) := by
  by_cases hiw : i = w
  · subst hiw
    rw [hi] at hw
    cases hw
    exact ⟨new, List.getElem?_set_self (List.getElem?_eq_some_iff.mp hi).1, hstop, hgone⟩
  · exact ⟨worker, (List.getElem?_set_ne hiw).trans hw, id, id⟩

theorem later_of_created {coroutine : Coroutine ε α} (h : call.coroutine = .created) :
    Coroutine.Later call.coroutine coroutine := by
  rw [h]
  trivial

theorem later_refused (hk : s.calls[k]? = some call) (hcreated : call.coroutine = .created)
    (hplace : ∀ answer, call.place ≠ .ended answer) (message : String) :
    Later s (s.refused k call message) := by
  unfold refused
  split
  · exact .of_set hk rfl rfl hplace (later_of_created hcreated) s.worker_same id
  · exact .of_set hk rfl rfl hplace (later_of_created hcreated) s.worker_same id

theorem later_start (h : Invariant s) (hk : s.calls[k]? = some call)
    (hplace : call.place = .starting) {fault : Bool} (hs : s.start k call fault = some s') :
    Later s s' := by
  have hcall := h.call k call hk
  simp only [CallOk, hplace] at hcall
  have hended : ∀ answer, call.place ≠ .ended answer := by
    rw [hplace]
    rintro answer ⟨⟩
  unfold Runner.start at hs
  split at hs
  · split at hs
    · cases hs
      exact .of_set hk rfl rfl hended (later_of_created hcall.1) s.worker_same id
    · cases hs
      exact .of_set hk rfl rfl hended (later_of_created hcall.1) s.worker_same id
  · cases hs
  · cases hs
    exact .of_set hk rfl rfl hended (.refl _) s.worker_same id
  · cases hs
  · cases hs
    exact .of_set hk rfl rfl hended (.refl _) (s.worker_spawned _) id
  · cases hs
    have hrefused := later_refused hk hcall.1 hended "can't start new thread"
    exact ⟨hrefused.call, s.worker_spawned _, id⟩

theorem later_resume (hk : s.calls[k]? = some call) (hplace : ∀ answer, call.place ≠ .ended answer)
    (loop : ℕ) (thread : Option ℕ) (result : Except (Failure ε) α) :
    Later s (s.resume k call loop thread result) := by
  unfold resume
  split
  · exact .of_set hk rfl rfl hplace (.refl _) s.worker_same id
  · exact .of_set hk rfl rfl hplace (.refl _) s.worker_same id

theorem not_ended_of_advance {fault : Bool} (hs : s.advance k call fault = some s')
    (answer : Answer ε α) : call.place ≠ .ended answer := by
  intro hanswer
  cases advanced_of_advance hs <;> simp_all

theorem later_advance (h : Invariant s) (hk : s.calls[k]? = some call) {fault : Bool}
    (hs : s.advance k call fault = some s') : Later s s' := by
  have hcall := h.call k call hk
  have hended := not_ended_of_advance hs
  cases advanced_of_advance hs with
  | enter hplace hfree => exact .of_set hk rfl rfl hended (.refl _) s.worker_same id
  | enterState hplace hfree => exact .of_set hk rfl rfl hended (.refl _) s.worker_same id
  | start hplace hs => exact later_start h hk hplace hs
  | found hplace hready hloop => exact .of_set hk rfl rfl hended (.refl _) s.worker_same id
  | uninitialized hplace hready hloop => exact absurd hloop (h.ready hready)
  | expired hplace hready =>
    simp only [CallOk, hplace] at hcall
    exact later_refused hk hcall.1 hended _
  | submit hplace hs =>
    simp only [CallOk, hplace] at hcall
    obtain ⟨worker, -, hmap⟩ := Option.map_eq_some_iff.mp hs
    split at hmap
    · subst hmap
      exact later_resume hk hended _ _ _
    · subst hmap
      exact .of_set hk rfl rfl hended (later_of_created hcall.1) s.worker_same id
  | returned hplace houtcome => exact later_resume hk hended _ _ _
  | interrupted hplace => exact later_resume hk hended _ _ _
  | mark hplace hfree => exact .of_set hk rfl rfl hended (.refl _) s.worker_same fun _ => rfl
  | stop hplace hs =>
    obtain ⟨worker, hworker, hmap⟩ := Option.map_eq_some_iff.mp hs
    split at hmap
    · subst hmap
      exact .of_set hk rfl rfl hended (.refl _) s.worker_same id
    · subst hmap
      have hworkers := worker_changed { worker with stopRequested := true } hworker
        (fun _ => rfl) id
      split
      · exact .of_set hk rfl rfl hended (.refl _) hworkers id
      · exact .of_set hk rfl rfl hended (.refl _) hworkers id
  | join hplace hs =>
    obtain ⟨worker, -, hworker⟩ := Option.bind_eq_some_iff.mp hs
    split at hworker
    · cases hworker
      exact .of_set hk rfl rfl hended (.refl _) s.worker_same id
    · cases hworker
    · cases hworker
      exact .of_set hk rfl rfl hended (.refl _) s.worker_same id
    · cases hworker
    · cases hworker
    · cases hworker
      exact .of_set hk rfl rfl hended (.refl _) s.worker_same id

theorem later_runLoop {w : ℕ} {worker : Worker} (hw : s.workers[w]? = some worker)
    (hs : s.runLoop w worker = some s') : Later s s' := by
  have hset : ∀ (phase : Phase), worker.phase ≠ .stopped → ∀ t : Runner ε α, t.calls = s.calls →
      t.closed = s.closed → t.workers = s.workers.set w { worker with phase := phase } →
      Later s t := by
    intro phase hphase t hcalls hclosed hworkers
    refine ⟨fun k call hk => ?_, ?_, fun hc => hclosed.trans hc⟩
    · exact ⟨call, by rw [hcalls]; exact hk, rfl, fun _ ha => ha, .refl _⟩
    · rw [hworkers]
      exact worker_changed _ hw id fun hgone => absurd hgone hphase
  unfold runLoop at hs
  cases hphase : worker.phase with
  | unstarted => simp [hphase] at hs
  | starting =>
    simp only [hphase, Option.some.injEq] at hs
    subst hs
    exact hset .created (by simp [hphase]) _ rfl rfl rfl
  | created =>
    simp only [hphase, Option.some.injEq] at hs
    subst hs
    exact hset .running (by simp [hphase]) _ rfl rfl rfl
  | running =>
    simp only [hphase, Option.ite_none_right_eq_some, Option.some.injEq] at hs
    obtain ⟨-, rfl⟩ := hs
    exact hset (.draining _) (by simp [hphase]) _ rfl rfl rfl
  | draining tasks =>
    simp only [hphase, Option.ite_none_right_eq_some, Option.some.injEq] at hs
    obtain ⟨-, rfl⟩ := hs
    exact hset .stopped (by simp [hphase]) _ rfl rfl rfl
  | stopped => simp [hphase] at hs

theorem later_next (h : Invariant s) {move : Move ε α} (hs : s.next move = some s') :
    Later s s' := by
  cases move with
  | call kind =>
    cases hs
    refine ⟨fun k call hk => ?_, s.worker_same, id⟩
    exact ⟨call, (List.getElem?_append_left (List.getElem?_eq_some_iff.mp hk).1).trans hk, rfl,
      fun _ ha => ha, .refl _⟩
  | caller k fault =>
    obtain ⟨call, hk, hs⟩ := Option.bind_eq_some_iff.mp hs
    exact later_advance h hk hs
  | worker w =>
    obtain ⟨worker, hw, hs⟩ := Option.bind_eq_some_iff.mp hs
    exact later_runLoop hw hs
  | coroutine k outcome =>
    obtain ⟨call, hk, hs⟩ := Option.bind_eq_some_iff.mp hs
    obtain ⟨⟨loop, hscheduled⟩, rfl⟩ := finish_eq hs
    refine ⟨fun j callj hj => ?_, s.worker_same, id⟩
    by_cases hjk : k = j
    · subst hjk
      rw [hk] at hj
      cases hj
      refine ⟨{ call with coroutine := .finished outcome },
        List.getElem?_set_self (List.getElem?_eq_some_iff.mp hk).1, rfl, fun _ ha => ha, ?_⟩
      rw [hscheduled]
      exact .inr ⟨outcome, rfl⟩
    · exact ⟨callj, (List.getElem?_set_ne hjk).trans hj, rfl, fun _ ha => ha, .refl _⟩

/-! ## One call after the other -/

end Runner

end OpenJobSpec.SyncRunner
