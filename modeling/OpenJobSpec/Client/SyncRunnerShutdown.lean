import OpenJobSpec.Client.SyncRunnerThreads

/-! # The end of the synchronous client

Where no start has failed, a `close` that returns has stopped the only event loop
with every coroutine on it. Nothing is handed to a loop afterwards: each later
`run` raises that the client is closed.
-/
namespace OpenJobSpec.SyncRunner
variable {ε α : Type*}

namespace Runner
variable {s s' : Runner ε α} {k j : ℕ} {call : Call ε α}

/-- What is left to do of the end, once the runner is closed. -/
structure Ending (s : Runner ε α) : Prop where
  told : s.closed = true →
    (∃ call ∈ s.calls, ∃ loop thread cleanupError,
      call.place = .stopping loop thread cleanupError) ∨
    ∃ worker ∈ s.workers, worker.stopRequested = true
  gone : s.closed = true → (∃ call ∈ s.calls, call.place.closing = true) ∨
    (∃ call ∈ s.calls, call.notStopped = true) ∨ ∃ worker ∈ s.workers, worker.phase = .stopped
  last : ∀ call ∈ s.calls, call.kind = .close → (∃ answer, call.place = .ended answer) →
    call.startFailed = false → ∀ other ∈ s.calls, other.place.closing = false

theorem ending_fresh : Ending (fresh : Runner ε α) where
  told := by simp [fresh]
  gone := by simp [fresh]
  last := by simp [fresh]

/-- While a call takes a step, no other call is within the submission lock. -/
theorem outside_of_advance (h : Invariant s) (hk : s.calls[k]? = some call) {fault : Bool}
    (hs : s.advance k call fault = some s') {other : Call ε α} (hj : s.calls[j]? = some other)
    (hne : j ≠ k) : other.place.inside = false := by
  rw [Bool.eq_false_iff]
  intro hinside
  have hlock := h.lock_of_inside hj hinside
  have hin : call.place ≠ .submissionLock → False := by
    intro hplace
    have hinside : call.place.inside = true := by
      have hended := not_ended_of_advance hs
      cases hp : call.place with
      | submissionLock => exact absurd hp hplace
      | ended answer => exact absurd hp (hended answer)
      | _ => rfl
    exact hne (Option.some.inj (hlock.symm.trans (h.lock_of_inside hk hinside)))
  cases advanced_of_advance hs with
  | enter hplace hfree =>
    rw [hfree] at hlock
    cases hlock
  | enterState hplace hfree => exact hin (by rw [hplace]; nofun)
  | start hplace hs => exact hin (by rw [hplace]; nofun)
  | found hplace hready hloop => exact hin (by rw [hplace]; nofun)
  | uninitialized hplace hready hloop => exact hin (by rw [hplace]; nofun)
  | expired hplace hready => exact hin (by rw [hplace]; nofun)
  | submit hplace hs => exact hin (by rw [hplace]; nofun)
  | returned hplace houtcome => exact hin (by rw [hplace]; nofun)
  | interrupted hplace => exact hin (by rw [hplace]; nofun)
  | mark hplace hfree => exact hin (by rw [hplace]; nofun)
  | stop hplace hs => exact hin (by rw [hplace]; nofun)
  | join hplace hs => exact hin (by rw [hplace]; nofun)

theorem Later.told (h : Later s s') (ht : ∃ worker ∈ s.workers, worker.stopRequested = true) :
    ∃ worker ∈ s'.workers, worker.stopRequested = true := by
  obtain ⟨worker, hmem, hstop⟩ := ht
  obtain ⟨w, hw⟩ := List.mem_iff_getElem?.mp hmem
  obtain ⟨worker', hw', hstop', -⟩ := h.worker w worker hw
  exact ⟨worker', List.mem_of_getElem? hw', hstop' hstop⟩

theorem Later.gone (h : Later s s') (hg : ∃ worker ∈ s.workers, worker.phase = .stopped) :
    ∃ worker ∈ s'.workers, worker.phase = .stopped := by
  obtain ⟨worker, hmem, hgone⟩ := hg
  obtain ⟨w, hw⟩ := List.mem_iff_getElem?.mp hmem
  obtain ⟨worker', hw', -, hgone'⟩ := h.worker w worker hw
  exact ⟨worker', List.mem_of_getElem? hw', hgone' hgone⟩

theorem notStopped_ended (h : call.notStopped = true) : ∃ answer, call.place = .ended answer := by
  unfold Call.notStopped at h
  split at h
  · next hplace => exact ⟨_, hplace⟩
  · cases h

theorem notStopped_of_place {call' : Call ε α} (h : call'.place = call.place) :
    call'.notStopped = call.notStopped := by
  unfold Call.notStopped
  rw [h]

theorem startFailed_of_place {call' : Call ε α} (h : call'.place = call.place) :
    call'.startFailed = call.startFailed := by
  unfold Call.startFailed
  rw [h]

theorem Later.notStopped (h : Later s s') (hn : ∃ call ∈ s.calls, call.notStopped = true) :
    ∃ call ∈ s'.calls, call.notStopped = true := by
  obtain ⟨call, hmem, hnot⟩ := hn
  obtain ⟨k, hk⟩ := List.mem_iff_getElem?.mp hmem
  obtain ⟨answer, hplace⟩ := notStopped_ended hnot
  obtain ⟨call', hk', -, hended, -⟩ := h.call k call hk
  refine ⟨call', List.mem_of_getElem? hk', ?_⟩
  rwa [notStopped_of_place ((hended answer hplace).trans hplace.symm)]

/-- A step that leaves every call at its place keeps what is left to do. -/
theorem Ending.of_places (h : Ending s) (hlater : Later s s') (hclosed : s'.closed = s.closed)
    (hplaces : ∀ call ∈ s.calls, ∃ call' ∈ s'.calls, call'.place = call.place)
    (hback : ∀ call' ∈ s'.calls, call'.place = .submissionLock ∨
      ∃ call ∈ s.calls, call'.place = call.place ∧ call'.kind = call.kind) : Ending s' where
  told hc := by
    rcases h.told (hclosed.symm.trans hc) with ⟨call, hmem, loop, thread, error, hplace⟩ | ht
    · obtain ⟨call', hmem', hsame⟩ := hplaces call hmem
      exact .inl ⟨call', hmem', loop, thread, error, hsame.trans hplace⟩
    · exact .inr (hlater.told ht)
  gone hc := by
    rcases h.gone (hclosed.symm.trans hc) with ⟨call, hmem, hclosing⟩ | hn | hg
    · obtain ⟨call', hmem', hsame⟩ := hplaces call hmem
      exact .inl ⟨call', hmem', by rw [hsame, hclosing]⟩
    · exact .inr (.inl (hlater.notStopped hn))
    · exact .inr (.inr (hlater.gone hg))
  last call' hmem' hkind hended hstarted other' hother' := by
    obtain ⟨answer, hplace'⟩ := hended
    rcases hback other' hother' with hp | ⟨other, hother, hsame, -⟩
    · rw [hp]
      rfl
    · rw [hsame]
      rcases hback call' hmem' with hp | ⟨call, hmem, hsamec, hkindc⟩
      · rw [hp] at hplace'
        cases hplace'
      · refine h.last call hmem (hkindc.symm.trans hkind) ⟨answer, hsamec.symm.trans hplace'⟩
          ?_ other
          hother
        rwa [← startFailed_of_place hsamec]

/-- A `close` that has ended, and not since its start failed, has found or left the runner
closed. -/
theorem closed_of_ended (h : Invariant s) (hk : s.calls[k]? = some call)
    (hkind : call.kind = .close) (hended : ∃ answer, call.place = .ended answer)
    (hstarted : call.startFailed = false) : s.closed = true := by
  obtain ⟨answer, hplace⟩ := hended
  have hcall := h.call k call hk
  simp only [CallOk, hplace] at hcall
  rw [hkind] at hcall
  generalize call.coroutine = coroutine at hcall
  cases hcall with
  | closedBefore hclosed => exact hclosed
  | notClosed hfailure =>
    rw [Call.startFailed, hplace] at hstarted
    rcases hfailure with rfl | rfl <;> cases hstarted
  | cleaned hclosed hcleaned => exact hclosed
  | notStopped hclosed hcoroutine hmessage => exact hclosed

theorem ending_advance (h : Invariant s) (hending : Ending s) (hk : s.calls[k]? = some call)
    {fault : Bool} (hs : s.advance k call fault = some s') : Ending s' := by
  obtain ⟨call', hshape⟩ := shape_advance h hk hs
  have hlater := later_advance h hk hs
  have hlt : k < s.calls.length := (List.getElem?_eq_some_iff.mp hk).1
  have hself : call' ∈ s'.calls := by
    rw [hshape.calls]
    exact List.mem_set hlt _
  have hmem : ∀ other ∈ s'.calls, other = call' ∨
      ∃ j, j ≠ k ∧ s.calls[j]? = some other := by
    intro other hother
    obtain ⟨j, hj⟩ := List.mem_iff_getElem?.mp hother
    rw [hshape.calls] at hj
    by_cases hjk : k = j
    · subst hjk
      rw [List.getElem?_set_self hlt] at hj
      exact .inl (Option.some.inj hj).symm
    · exact .inr ⟨j, Ne.symm hjk, (List.getElem?_set_ne hjk).symm.trans hj⟩
  -- only the call that takes the step can be at the end of a `close`
  have honly : ∀ other ∈ s.calls, other.place.closing = true → call.place.closing = true ∧
      other = call := by
    intro other hother hclosing
    obtain ⟨j, hj⟩ := List.mem_iff_getElem?.mp hother
    by_cases hjk : j = k
    · subst hjk
      rw [hk] at hj
      cases hj
      exact ⟨hclosing, rfl⟩
    · have houtside := outside_of_advance h hk hs hj hjk
      cases hp : other.place <;> simp_all [Place.closing, Place.inside]
  constructor
  · intro hc
    rcases hshape.closed with heq | ⟨loop, thread, error, hplace⟩
    · rcases hending.told (heq.symm.trans hc) with ⟨other, hother, loop, thread, error, hp⟩ | ht
      · obtain ⟨-, rfl⟩ := honly other hother (by rw [hp]; rfl)
        exact .inr (hshape.told ⟨loop, thread, error, hp⟩)
      · exact .inr (hlater.told ht)
    · exact .inl ⟨call', hself, loop, thread, error, hplace⟩
  · intro hc
    rcases hshape.closed with heq | ⟨loop, thread, error, hplace⟩
    · rcases hending.gone (heq.symm.trans hc) with ⟨other, hother, hclosing⟩ | hn | hg
      · rcases hshape.closing (honly other hother hclosing).1 with hcl | hnot | hgone
        · exact .inl ⟨call', hself, hcl⟩
        · exact .inr (.inl ⟨call', hself, hnot⟩)
        · exact .inr (.inr hgone)
      · exact .inr (.inl (hlater.notStopped hn))
      · exact .inr (.inr (hlater.gone hg))
    · refine .inl ⟨call', hself, ?_⟩
      rw [hplace]
      rfl
  · intro ended hended hkind hanswer hstarted other hother
    rw [Bool.eq_false_iff]
    intro hclosing
    rcases hmem other hother with rfl | ⟨j, hjk, hj⟩
    · rcases hmem ended hended with rfl | ⟨i, hik, hi⟩
      · obtain ⟨answer, hanswer⟩ := hanswer
        rw [hanswer] at hclosing
        cases hclosing
      · rcases hshape.opened hclosing with hbefore | hopen
        · have hlast := hending.last ended (List.mem_of_getElem? hi) hkind hanswer hstarted call
            (List.mem_of_getElem? hk)
          rw [hbefore] at hlast
          cases hlast
        · have hclosed := closed_of_ended h hi hkind hanswer hstarted
          rw [hopen] at hclosed
          cases hclosed
    · have hout := outside_of_advance h hk hs hj hjk
      cases hp : other.place <;> simp_all [Place.closing, Place.inside]

theorem runLoop_same {w : ℕ} {worker : Worker} (hs : s.runLoop w worker = some s') :
    s'.calls = s.calls ∧ s'.closed = s.closed ∧ s'.workers.length = s.workers.length := by
  unfold runLoop at hs
  split at hs
  · cases hs
  · cases hs
    exact ⟨rfl, rfl, List.length_set⟩
  · cases hs
    exact ⟨rfl, rfl, List.length_set⟩
  · split at hs
    · cases hs
      exact ⟨rfl, rfl, List.length_set⟩
    · cases hs
  · split at hs
    · cases hs
      exact ⟨rfl, rfl, List.length_set⟩
    · cases hs
  · cases hs

theorem ending_next (h : Invariant s) (hending : Ending s) {move : Move ε α}
    (hs : s.next move = some s') : Ending s' := by
  have hlater := later_next h hs
  cases move with
  | call kind =>
    cases hs
    refine hending.of_places hlater rfl ?_ ?_
    · exact fun call hmem => ⟨call, List.mem_append_left _ hmem, rfl⟩
    · intro call' hmem'
      rcases List.mem_append.mp hmem' with hmem | hnew
      · exact .inr ⟨call', hmem, rfl, rfl⟩
      · rw [List.mem_singleton.mp hnew]
        exact .inl rfl
  | caller k fault =>
    obtain ⟨call, hk, hs⟩ := Option.bind_eq_some_iff.mp hs
    exact ending_advance h hending hk hs
  | worker w =>
    obtain ⟨worker, -, hs⟩ := Option.bind_eq_some_iff.mp hs
    obtain ⟨hcalls, hclosed, -⟩ := runLoop_same hs
    refine hending.of_places hlater hclosed ?_ ?_
    · exact fun call hmem => ⟨call, by rwa [hcalls], rfl⟩
    · exact fun call' hmem' => .inr ⟨call', by rwa [← hcalls], rfl, rfl⟩
  | coroutine k outcome =>
    obtain ⟨call, hk, hs⟩ := Option.bind_eq_some_iff.mp hs
    obtain ⟨-, rfl⟩ := finish_eq hs
    refine hending.of_places hlater rfl ?_ ?_
    · intro other hmem
      obtain ⟨j, hj⟩ := List.mem_iff_getElem?.mp hmem
      by_cases hjk : k = j
      · subst hjk
        rw [hk] at hj
        cases hj
        exact ⟨_, List.mem_set (List.getElem?_eq_some_iff.mp hk).1 _, rfl⟩
      · exact ⟨other, List.mem_of_getElem? ((List.getElem?_set_ne hjk).trans hj), rfl⟩
    · intro call' hmem'
      rcases List.mem_or_eq_of_mem_set hmem' with hold | rfl
      · exact .inr ⟨call', hold, rfl, rfl⟩
      · exact .inr ⟨call, List.mem_of_getElem? hk, rfl, rfl⟩

theorem ending_after (moves : List (Move ε α)) : Ending (after moves) := by
  have hrun : Invariant (after moves) ∧ Ending (after moves) :=
    Runs.run_invariant (fun s => Invariant s ∧ Ending s) ⟨invariant_fresh, ending_fresh⟩
      fun s move t _ hs ht => ⟨hs.1.next ht, ending_next hs.1 hs.2 ht⟩
  exact hrun.2

/-! ## After the end -/

/-- Every worker is stopped, and the runner is closed. -/
def Quiet (s : Runner ε α) : Prop :=
  s.closed = true ∧ ∀ worker ∈ s.workers, worker.phase = .stopped

theorem quiet_of_stopped (hclosed : s.closed = true)
    (hlength : s.workers.length ≤ 1) (hgone : ∃ worker ∈ s.workers, worker.phase = .stopped) :
    s.Quiet := by
  refine ⟨hclosed, ?_⟩
  obtain ⟨worker, hmem, hphase⟩ := hgone
  obtain ⟨first, hworkers⟩ : ∃ first, s.workers = [first] := by
    cases hw : s.workers with
    | nil =>
      rw [hw] at hmem
      cases hmem
    | cons first rest =>
      rw [hw, List.length_cons] at hlength
      exact ⟨first, by rw [List.eq_nil_of_length_eq_zero (by omega : rest.length = 0)]⟩
  rw [hworkers] at hmem ⊢
  intro other hother
  rw [List.mem_singleton.mp hother, ← List.mem_singleton.mp hmem]
  exact hphase

/-- No coroutine is on a stopped loop. -/
theorem not_scheduled_of_quiet (h : Invariant s) (hquiet : s.Quiet) (hmem : call ∈ s.calls)
    (w : ℕ) : call.coroutine ≠ .scheduled w := by
  intro hscheduled
  obtain ⟨k, hk⟩ := List.mem_iff_getElem?.mp hmem
  obtain ⟨worker, hw, hserves⟩ := h.task k call w hk hscheduled
  have hphase := hquiet.2 worker (List.mem_of_getElem? hw)
  rcases hserves with hp | hp | ⟨tasks, hp, -⟩ <;> rw [hphase] at hp <;> cases hp

theorem length_next (h : Invariant s) (hclosed : s.closed = true) {move : Move ε α}
    (hs : s.next move = some s') : s'.workers.length = s.workers.length := by
  cases move with
  | call kind =>
    cases hs
    rfl
  | caller k fault =>
    obtain ⟨call, hk, hs⟩ := Option.bind_eq_some_iff.mp hs
    obtain ⟨call', hshape⟩ := shape_advance h hk hs
    rcases hshape.threads with ⟨hlength, -⟩ | ⟨-, hopen, -⟩
    · exact hlength
    · rw [hclosed] at hopen
      cases hopen
  | worker w =>
    obtain ⟨worker, -, hs⟩ := Option.bind_eq_some_iff.mp hs
    exact (runLoop_same hs).2.2
  | coroutine k outcome =>
    obtain ⟨call, -, hs⟩ := Option.bind_eq_some_iff.mp hs
    rw [(finish_eq hs).2]
    rfl

theorem Quiet.next (h : Invariant s) (hquiet : s.Quiet) {move : Move ε α}
    (hs : s.next move = some s') : s'.Quiet := by
  have hlater := later_next h hs
  refine ⟨hlater.closed hquiet.1, ?_⟩
  intro worker' hmem'
  obtain ⟨w, hw'⟩ := List.mem_iff_getElem?.mp hmem'
  have hlt : w < s.workers.length := by
    rw [← length_next h hquiet.1 hs]
    exact (List.getElem?_eq_some_iff.mp hw').1
  obtain ⟨worker'', hw'', -, hgone⟩ := hlater.worker w _ (List.getElem?_eq_getElem hlt)
  rw [hw'] at hw''
  cases hw''
  exact hgone (hquiet.2 _ (List.getElem_mem hlt))

/-- A call of a closed runner is on its way to its refusal. -/
def Refused (call : Call ε α) : Prop :=
  (call.place = .submissionLock ∨ call.place = .stateLock ∨ call.place = .starting) ∧
    call.coroutine = .created ∨
  call.place = .ended (match call.kind with
    | .run => .error (.runtimeError "SyncClient is closed")
    | .close => .ok none) ∧ call.coroutine = .discarded

theorem Refused.advance (hclosed : s.closed = true) (hrefused : Refused call) {fault : Bool}
    (hs : s.advance k call fault = some s') :
    ∃ call', s'.calls = s.calls.set k call' ∧ Refused call' := by
  have hended := not_ended_of_advance hs
  obtain ⟨hplaces, hcreated⟩ : (call.place = .submissionLock ∨ call.place = .stateLock ∨
      call.place = .starting) ∧ call.coroutine = .created := by
    rcases hrefused with h | ⟨hplace, -⟩
    · exact h
    · exact absurd hplace (hended _)
  have hnot : ∀ place, call.place = place → place ≠ .submissionLock → place ≠ .stateLock →
      place ≠ .starting → False := by
    rintro place rfl hn1 hn2 hn3
    rcases hplaces with hp | hp | hp
    · exact hn1 hp
    · exact hn2 hp
    · exact hn3 hp
  cases advanced_of_advance hs with
  | enter hplace hfree => exact ⟨_, rfl, .inl ⟨.inr (.inl rfl), hcreated⟩⟩
  | enterState hplace hfree => exact ⟨_, rfl, .inl ⟨.inr (.inr rfl), hcreated⟩⟩
  | start hplace hs =>
    simp only [Runner.start, hclosed] at hs
    cases fault with
    | true => cases hs
    | false =>
      cases hkind : call.kind with
      | run =>
        simp only [hkind, Option.some.injEq] at hs
        subst hs
        refine ⟨_, rfl, .inr ⟨?_, rfl⟩⟩
        rw [hkind]
      | close =>
        simp only [hkind, Option.some.injEq] at hs
        subst hs
        refine ⟨_, rfl, .inr ⟨?_, rfl⟩⟩
        rw [hkind]
  | found hplace hready hloop => exact (hnot _ hplace nofun nofun nofun).elim
  | uninitialized hplace hready hloop => exact (hnot _ hplace nofun nofun nofun).elim
  | expired hplace hready => exact (hnot _ hplace nofun nofun nofun).elim
  | submit hplace hs => exact (hnot _ hplace nofun nofun nofun).elim
  | returned hplace houtcome => exact (hnot _ hplace nofun nofun nofun).elim
  | interrupted hplace => exact (hnot _ hplace nofun nofun nofun).elim
  | mark hplace hfree => exact (hnot _ hplace nofun nofun nofun).elim
  | stop hplace hs => exact (hnot _ hplace nofun nofun nofun).elim
  | join hplace hs => exact (hnot _ hplace nofun nofun nofun).elim

/-- The calls from a number on are on their way to their refusal. -/
def RefusedFrom (n : ℕ) (s : Runner ε α) : Prop :=
  n ≤ s.calls.length ∧ ∀ (k : ℕ) call, n ≤ k → s.calls[k]? = some call → Refused call

theorem RefusedFrom.next {n : ℕ} (h : Invariant s) (hclosed : s.closed = true)
    (hrefused : RefusedFrom n s) {move : Move ε α} (hs : s.next move = some s') :
    RefusedFrom n s' := by
  obtain ⟨hlength, heach⟩ := hrefused
  cases move with
  | call kind =>
    cases hs
    refine ⟨Nat.le_trans hlength (by simp), ?_⟩
    intro k call hk hcall
    rcases getElem?_append_call hcall with hold | ⟨-, rfl⟩
    · exact heach k call hk hold
    · exact .inl ⟨.inl rfl, rfl⟩
  | caller i fault =>
    obtain ⟨calli, hi, hs⟩ := Option.bind_eq_some_iff.mp hs
    have hlt := (List.getElem?_eq_some_iff.mp hi).1
    by_cases hn : n ≤ i
    · obtain ⟨call', hcalls, hnew⟩ := (heach i calli hn hi).advance hclosed hs
      rw [RefusedFrom, hcalls, List.length_set]
      refine ⟨hlength, ?_⟩
      intro k call hk hcall
      by_cases hik : i = k
      · subst hik
        rw [List.getElem?_set_self hlt] at hcall
        cases hcall
        exact hnew
      · rw [List.getElem?_set_ne hik] at hcall
        exact heach k call hk hcall
    · obtain ⟨call', hshape⟩ := shape_advance h hi hs
      rw [RefusedFrom, hshape.calls, List.length_set]
      refine ⟨hlength, ?_⟩
      intro k call hk hcall
      rw [List.getElem?_set_ne (by omega)] at hcall
      exact heach k call hk hcall
  | worker w =>
    obtain ⟨worker, -, hs⟩ := Option.bind_eq_some_iff.mp hs
    rw [RefusedFrom, (runLoop_same hs).1]
    exact ⟨hlength, heach⟩
  | coroutine i outcome =>
    obtain ⟨calli, hi, hs⟩ := Option.bind_eq_some_iff.mp hs
    obtain ⟨⟨loop, hscheduled⟩, rfl⟩ := finish_eq hs
    rw [RefusedFrom, put, List.length_set]
    refine ⟨hlength, ?_⟩
    intro k call hk hcall
    by_cases hik : i = k
    · subst hik
      rcases heach i calli hk hi with ⟨-, hc⟩ | ⟨-, hc⟩ <;> rw [hscheduled] at hc <;> cases hc
    · rw [List.getElem?_set_ne hik] at hcall
      exact heach k call hk hcall

/-- Once a `close` has returned, where no start has failed and every thread was joined: no coroutine
is on an event loop and every event loop is stopped, however it goes on, and each call that comes
later is refused without its coroutine being handed over. -/
theorem close_is_final (moves more : List (Move ε α))
    (hstarted : ∀ call ∈ (after moves).calls, call.startFailed = false)
    (hjoined : ∀ call ∈ (after moves).calls, call.notStopped = false)
    (hclosed : ∃ call ∈ (after moves).calls, call.kind = .close ∧
      ∃ answer, call.place = .ended answer) :
    (∀ call ∈ (after (moves ++ more)).calls, ∀ w, call.coroutine ≠ .scheduled w) ∧
    (∀ worker ∈ (after (moves ++ more)).workers, worker.phase = .stopped) ∧
    ∀ (k : ℕ) call answer, (after moves).calls.length ≤ k →
      (after (moves ++ more)).calls[k]? = some call → call.place = .ended answer →
      call.coroutine = .discarded ∧ answer = match call.kind with
        | .run => .error (.runtimeError "SyncClient is closed")
        | .close => .ok none := by
  have h := invariant_after moves
  obtain ⟨call, hmem, hkind, hended⟩ := hclosed
  obtain ⟨k, hk⟩ := List.mem_iff_getElem?.mp hmem
  have hclosed := closed_of_ended h hk hkind hended (hstarted call hmem)
  have hending := ending_after moves
  have hgone : ∃ worker ∈ (after moves).workers, worker.phase = .stopped := by
    rcases hending.gone hclosed with ⟨other, hother, hclosing⟩ | ⟨other, hother, hnot⟩ | hgone
    · have hlast := hending.last call hmem hkind hended (hstarted call hmem) other hother
      rw [hclosing] at hlast
      cases hlast
    · rw [hjoined other hother] at hnot
      cases hnot
    · exact hgone
  have hquiet := quiet_of_stopped hclosed (workers_le_one hstarted) hgone
  have hrefused : RefusedFrom (after moves).calls.length (after moves) := by
    refine ⟨Nat.le_refl _, ?_⟩
    intro i other hi hother
    exact absurd (List.getElem?_eq_some_iff.mp hother).1 (Nat.not_lt_of_le hi)
  have hafter : after (moves ++ more) = Runs.run next (after moves) more := Runs.run_append _ _ _
  have hrun : Invariant (after (moves ++ more)) ∧ (after (moves ++ more)).Quiet ∧
      RefusedFrom (after moves).calls.length (after (moves ++ more)) := by
    rw [hafter]
    exact Runs.run_invariant
      (fun s => Invariant s ∧ s.Quiet ∧ RefusedFrom (after moves).calls.length s)
      ⟨h, hquiet, hrefused⟩ fun s move t _ hs ht =>
        ⟨hs.1.next ht, hs.2.1.next hs.1 ht, hs.2.2.next hs.1 hs.2.1.1 ht⟩
  obtain ⟨h', hquiet', -, hrefused'⟩ := hrun
  refine ⟨fun call hmem => not_scheduled_of_quiet h' hquiet' hmem, hquiet'.2, ?_⟩
  intro i other answer hi hother hplace
  rcases hrefused' i other hi hother with ⟨hp, -⟩ | ⟨hp, hcoroutine⟩
  · rw [hplace] at hp
    rcases hp with hp | hp | hp <;> cases hp
  · rw [hplace] at hp
    exact ⟨hcoroutine, Place.ended.inj hp⟩

/-- A `run` that starts the loop, a `close` and a `run` that comes after it. -/
theorem close_is_final_of_run :
    let caller : ℕ → Move Unit Unit := fun k => .caller k false
    let served : List (Move Unit Unit) := [.call .run, caller 0, caller 0, caller 0, .worker 0,
      .worker 0, caller 0, caller 0, .coroutine 0 (.ok ()), caller 0]
    let closed : List (Move Unit Unit) := [.call .close, caller 1, caller 1, caller 1, caller 1,
      .coroutine 1 (.ok ()), caller 1, caller 1, caller 1, .worker 0, .worker 0, caller 1]
    let later : List (Move Unit Unit) := [.call .run, caller 2, caller 2, caller 2]
    (after (served ++ closed)).calls =
        [⟨.run, .ended (.ok (some ())), .finished (.ok ())⟩,
          ⟨.close, .ended (.ok none), .finished (.ok ())⟩] ∧
      ∀ worker ∈ (after (served ++ closed ++ later)).workers, worker.phase = .stopped := by
  intro caller served closed later
  have hcalls : (after (served ++ closed)).calls =
      [⟨.run, .ended (.ok (some ())), .finished (.ok ())⟩,
        ⟨.close, .ended (.ok none), .finished (.ok ())⟩] := by
    decide +kernel
  refine ⟨hcalls, ?_⟩
  have hfinal := close_is_final (served ++ closed) later
    (by rw [hcalls]; decide) (by rw [hcalls]; decide)
    ⟨⟨.close, .ended (.ok none), .finished (.ok ())⟩, by rw [hcalls]; decide, rfl, .ok none, rfl⟩
  exact hfinal.2.1

end Runner

end OpenJobSpec.SyncRunner
