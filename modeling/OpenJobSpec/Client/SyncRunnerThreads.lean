import OpenJobSpec.Client.SyncRunnerRuns

/-! # The event-loop threads of the synchronous client

Each step of a call is described once by what it means for the start and the end
of an event loop. A thread is made for every start that failed and for at most
one that did not.
-/
namespace OpenJobSpec.SyncRunner
variable {ε α : Type*}

/-- The call has ended since it could not start an event loop. -/
def Call.startFailed (call : Call ε α) : Bool :=
  match call.place with
  | .ended (.error (.runtimeError message)) =>
    message == "can't start new thread" ||
      message == "SyncClient event-loop thread failed to start"
  | _ => false

/-- The `close` has ended without the thread that it was to join. -/
def Call.notStopped (call : Call ε α) : Bool :=
  match call.place with
  | .ended (.error (.runtimeError message)) =>
    message == "SyncClient event-loop thread did not stop" ||
      message == "cannot join thread before it is started"
  | _ => false

/-- The `close` has marked the runner as closed and has not ended. -/
def Place.closing : Place ε α → Bool
  | .stopping .. | .joining .. => true
  | _ => false

namespace Runner
variable {s s' : Runner ε α} {k j : ℕ} {call : Call ε α}

/-- What the step of a call means for the start and the end of the event loop. -/
structure Shape (s s' : Runner ε α) (k : ℕ) (call call' : Call ε α) : Prop where
  calls : s'.calls = s.calls.set k call'
  loop : s'.loop = s.loop
  told : (∃ loop thread cleanupError, call.place = .stopping loop thread cleanupError) →
    ∃ worker ∈ s'.workers, worker.stopRequested = true
  closing : call.place.closing = true → call'.place.closing = true ∨ call'.notStopped = true ∨
    ∃ worker ∈ s'.workers, worker.phase = .stopped
  closed : s'.closed = s.closed ∨
    ∃ loop thread cleanupError, call'.place = .stopping loop thread cleanupError
  opened : call'.place.closing = true → call.place.closing = true ∨ s.closed = false
  drained : ∀ (w : ℕ) worker tasks, s'.workers[w]? = some worker →
    worker.phase = .draining tasks →
    ∃ old, s.workers[w]? = some old ∧ old.phase = .draining tasks
  threads : s'.workers.length = s.workers.length ∧
      (call.place = .ready → s.loop ≠ none ∨ call'.startFailed = true) ∨
    s'.workers.length = s.workers.length + 1 ∧ s.closed = false ∧ call.place = .starting ∧
      s.loop = none ∧ (call'.place = .ready ∨ call'.startFailed = true)

/-- A step that neither starts nor ends an event loop. -/
theorem Shape.of_same {call' : Call ε α} (hcalls : s'.calls = s.calls.set k call')
    (hloop : s'.loop = s.loop) (hworkers : s'.workers = s.workers) (hclosed : s'.closed = s.closed)
    (hclosing : call.place.closing = false) (hclosing' : call'.place.closing = false)
    (hready : call.place = .ready → s.loop ≠ none ∨ call'.startFailed = true) :
    Shape s s' k call call' where
  calls := hcalls
  loop := hloop
  told := by
    rintro ⟨loop, thread, cleanupError, hplace⟩
    rw [hplace] at hclosing
    cases hclosing
  closing h := by
    rw [hclosing] at h
    cases h
  closed := .inl hclosed
  opened h := by
    rw [hclosing'] at h
    cases h
  drained w worker tasks hw hphase := ⟨worker, by rwa [← hworkers], hphase⟩
  threads := .inl ⟨by rw [hworkers], hready⟩

theorem drained_spawned {workers : List Worker} {new : Worker}
    (hnew : ∀ tasks, new.phase ≠ .draining tasks) (w : ℕ) (worker : Worker) (tasks : List ℕ)
    (hw : (workers ++ [new])[w]? = some worker) (hphase : worker.phase = .draining tasks) :
    ∃ old, workers[w]? = some old ∧ old.phase = .draining tasks := by
  rcases getElem?_append_worker hw with hold | rfl
  · exact ⟨worker, hold, hphase⟩
  · exact absurd hphase (hnew tasks)

theorem shape_start (hplace : call.place = .starting) {fault : Bool}
    (hs : s.start k call fault = some s') : ∃ call', Shape s s' k call call' := by
  have hclosing : call.place.closing = false := by
    rw [hplace]
    rfl
  have hready : ∀ call' : Call ε α, call.place = .ready →
      s.loop ≠ none ∨ call'.startFailed = true := by
    rw [hplace]
    rintro _ ⟨⟩
  unfold Runner.start at hs
  split at hs
  · split at hs
    · cases hs
      exact ⟨_, .of_same rfl rfl rfl rfl hclosing rfl (hready _)⟩
    · cases hs
      exact ⟨_, .of_same rfl rfl rfl rfl hclosing rfl (hready _)⟩
  · cases hs
  · cases hs
    exact ⟨_, .of_same rfl rfl rfl rfl hclosing rfl (hready _)⟩
  · cases hs
  · next hclosed hloop =>
    cases hs
    refine ⟨{ call with place := .ready }, rfl, rfl, ?_, ?_, .inl rfl, nofun,
      drained_spawned fun _ => nofun, .inr ⟨?_, hclosed, hplace, hloop, ?_⟩⟩
    · rw [hplace]
      rintro ⟨_, _, _, ⟨⟩⟩
    · rw [hplace]
      rintro ⟨_, _, _, ⟨⟩⟩
    · exact List.length_append
    · exact .inl rfl
  · next hclosed hloop =>
    cases hs
    refine ⟨_, rfl, rfl, ?_, ?_, .inl rfl, nofun, drained_spawned fun _ => nofun,
      .inr ⟨?_, hclosed, hplace, hloop, ?_⟩⟩
    · rw [hplace]
      rintro ⟨_, _, _, ⟨⟩⟩
    · rw [hplace]
      rintro ⟨_, _, _, ⟨⟩⟩
    · exact List.length_append
    · exact .inr rfl

theorem shape_resume {loop : ℕ} {thread : Option ℕ} (hplace : call.place = .result loop thread ∨
      call.place = .submitting loop thread) (result : Except (Failure ε) α) :
    ∃ call', Shape s (s.resume k call loop thread result) k call call' := by
  have hclosing : call.place.closing = false := by
    rcases hplace with hp | hp <;> rw [hp] <;> rfl
  have hready : ∀ call' : Call ε α, call.place = .ready →
      s.loop ≠ none ∨ call'.startFailed = true := by
    intro call' hready
    rcases hplace with hp | hp <;> rw [hp] at hready <;> cases hready
  unfold resume
  split
  · exact ⟨_, .of_same rfl rfl rfl rfl hclosing rfl (hready _)⟩
  · exact ⟨_, .of_same rfl rfl rfl rfl hclosing rfl (hready _)⟩

theorem shape_stop (h : Invariant s) (hk : s.calls[k]? = some call) {loop : ℕ}
    {thread : Option ℕ} {cleanupError : Option (Failure ε)}
    (hplace : call.place = .stopping loop thread cleanupError)
    (hs : s.stop k call loop thread cleanupError = some s') :
    ∃ call', Shape s s' k call call' := by
  have hcall := h.call k call hk
  simp only [CallOk, hplace] at hcall
  obtain ⟨hkind, -, -, ⟨-, hthread⟩, hrunning⟩ := hcall
  obtain ⟨t, rfl, -⟩ := hthread hkind
  obtain ⟨worker, hworker, hmap⟩ := Option.map_eq_some_iff.mp hs
  have hready : call.place ≠ .ready := by
    rw [hplace]
    rintro ⟨⟩
  split at hmap
  · next hphase =>
    have hstopped := (h.worker loop worker hworker).stopping (.inl hphase)
    rw [hrunning loop worker hworker] at hstopped
    cases hstopped
  · subst hmap
    refine ⟨_, rfl, rfl, ?_, fun _ => .inl rfl, .inl rfl, fun _ => .inl ?_, ?_,
      .inl ⟨List.length_set, ?_⟩⟩
    · intro _
      exact ⟨{ worker with stopRequested := true },
        List.mem_set (List.getElem?_eq_some_iff.mp hworker).1 _, rfl⟩
    · rw [hplace]
      rfl
    · intro w other tasks hw hphase
      by_cases hlw : loop = w
      · subst hlw
        change (s.workers.set _ _)[_]? = _ at hw
        rw [List.getElem?_set_self (List.getElem?_eq_some_iff.mp hworker).1] at hw
        cases hw
        exact ⟨worker, hworker, hphase⟩
      · exact ⟨other, (List.getElem?_set_ne hlw).symm.trans hw, hphase⟩
    · exact fun hp => absurd hp hready

theorem shape_join {thread : ℕ} {cleanupError : Option (Failure ε)} {fault : Bool}
    (hplace : call.place = .joining thread cleanupError)
    (hs : s.join k call thread cleanupError fault = some s') :
    ∃ call', Shape s s' k call call' := by
  have hnot : ¬∃ loop thread cleanupError, call.place = .stopping loop thread cleanupError := by
    rw [hplace]
    rintro ⟨_, _, _, ⟨⟩⟩
  have hready : call.place ≠ .ready := by
    rw [hplace]
    rintro ⟨⟩
  obtain ⟨worker, hworker, hphase⟩ := Option.bind_eq_some_iff.mp hs
  have hleave : ∀ answer : Answer ε α,
      (Call.notStopped ⟨call.kind, .ended answer, call.coroutine⟩ = true ∨
        worker.phase = .stopped) →
      ∃ call', Shape s (s.leave k call call.coroutine answer) k call call' := by
    intro answer hanswer
    refine ⟨_, rfl, rfl, fun h => absurd h hnot, ?_, .inl rfl, nofun,
      fun w other tasks hw hphase => ⟨other, hw, hphase⟩, .inl ⟨rfl, ?_⟩⟩
    · intro _
      rcases hanswer with hmessage | hgone
      · exact .inr (.inl hmessage)
      · exact .inr (.inr ⟨worker, List.mem_of_getElem? hworker, hgone⟩)
    · exact fun hp => absurd hp hready
  split at hphase
  · next hgone =>
    cases hphase
    exact hleave _ (.inr hgone)
  · cases hphase
  · cases hphase
    exact hleave _ (.inl rfl)
  · cases hphase
  · cases hphase
  · cases hphase
    exact hleave _ (.inl rfl)

theorem shape_advance (h : Invariant s) (hk : s.calls[k]? = some call) {fault : Bool}
    (hs : s.advance k call fault = some s') : ∃ call', Shape s s' k call call' := by
  have hsame : call.place.closing = false → call.place ≠ .ready → ∀ (t : Runner ε α) call',
      t.calls = s.calls.set k call' → call'.place.closing = false → t.loop = s.loop →
      t.workers = s.workers → t.closed = s.closed → ∃ call', Shape s t k call call' :=
    fun hclosing hready t call' hcalls hclosing' hloop hworkers hclosed =>
      ⟨call', .of_same hcalls hloop hworkers hclosed hclosing hclosing' fun hp => absurd hp hready⟩
  cases advanced_of_advance hs with
  | enter hplace hfree =>
    exact hsame (by rw [hplace]; rfl) (by rw [hplace]; rintro ⟨⟩) _ _ rfl rfl rfl rfl rfl
  | enterState hplace hfree =>
    exact hsame (by rw [hplace]; rfl) (by rw [hplace]; rintro ⟨⟩) _ _ rfl rfl rfl rfl rfl
  | start hplace hs => exact shape_start hplace hs
  | found hplace hready hloop =>
    refine ⟨_, .of_same rfl rfl rfl rfl (by rw [hplace]; rfl) rfl fun _ => .inl ?_⟩
    rw [hloop]
    rintro ⟨⟩
  | uninitialized hplace hready hloop => exact absurd hloop (h.ready hready)
  | expired hplace hready =>
    exact ⟨_, .of_same rfl rfl rfl rfl (by rw [hplace]; rfl) rfl fun _ => .inr rfl⟩
  | submit hplace hs =>
    obtain ⟨worker, -, hmap⟩ := Option.map_eq_some_iff.mp hs
    split at hmap
    · subst hmap
      exact shape_resume (.inr hplace) _
    · subst hmap
      exact hsame (by rw [hplace]; rfl) (by rw [hplace]; rintro ⟨⟩) _ _ rfl rfl rfl rfl rfl
  | returned hplace houtcome => exact shape_resume (.inl hplace) _
  | interrupted hplace => exact shape_resume (.inl hplace) _
  | mark hplace hfree =>
    have hcall := h.call k call hk
    simp only [CallOk, hplace] at hcall
    refine ⟨_, rfl, rfl, ?_, ?_, .inr ⟨_, _, _, rfl⟩, fun _ => .inr hcall.2.2.1,
      fun w other tasks hw hphase => ⟨other, hw, hphase⟩, .inl ⟨rfl, ?_⟩⟩
    · rw [hplace]
      rintro ⟨_, _, _, ⟨⟩⟩
    · rw [hplace]
      rintro ⟨_, _, _, ⟨⟩⟩
    · rw [hplace]
      rintro ⟨_, _, _, ⟨⟩⟩
  | stop hplace hs => exact shape_stop h hk hplace hs
  | join hplace hs => exact shape_join hplace hs

/-! ## How many threads are made -/

/-- A loop is there, or a call waits for one. -/
def Starting (s : Runner ε α) : Prop :=
  s.loop ≠ none ∨ ∃ call ∈ s.calls, call.place = .ready

/-- One thread for each failed start, and one more for a loop that is there or awaited. -/
def Counted (s : Runner ε α) : Prop :=
  s.workers.length ≤ s.calls.countP Call.startFailed ∨
    s.workers.length = s.calls.countP Call.startFailed + 1 ∧ s.Starting

theorem not_startFailed {fault : Bool} (hs : s.advance k call fault = some s') :
    call.startFailed = false := by
  unfold Call.startFailed
  split
  · next hplace => exact absurd hplace (not_ended_of_advance hs _)
  · rfl

theorem countP_set_call {calls : List (Call ε α)} (hk : calls[k]? = some call)
    (hcall : call.startFailed = false) (call' : Call ε α) :
    (calls.set k call').countP Call.startFailed =
      calls.countP Call.startFailed + if call'.startFailed then 1 else 0 := by
  obtain ⟨hlt, heq⟩ := List.getElem?_eq_some_iff.mp hk
  rw [List.countP_set hlt, heq, hcall]
  rfl

theorem Shape.starting {call' : Call ε α} (h : Shape s s' k call call')
    (hk : s.calls[k]? = some call) (hstarting : s.Starting)
    (hthreads : call.place = .ready → s.loop ≠ none ∨ call'.startFailed = true) :
    s'.Starting ∨ call'.startFailed = true := by
  rcases hstarting with hloop | ⟨other, hmem, hready⟩
  · exact .inl (.inl (by rwa [h.loop]))
  · obtain ⟨j, hj⟩ := List.mem_iff_getElem?.mp hmem
    by_cases hjk : k = j
    · subst hjk
      rw [hk] at hj
      cases hj
      rcases hthreads hready with hloop | hfailed
      · exact .inl (.inl (by rwa [h.loop]))
      · exact .inr hfailed
    · refine .inl (.inr ⟨other, ?_, hready⟩)
      rw [h.calls]
      exact List.mem_of_getElem? ((List.getElem?_set_ne hjk).trans hj)

/-- While a call is about to make a thread, no loop is there or awaited. -/
theorem not_starting (h : Invariant s) (hk : s.calls[k]? = some call)
    (hplace : call.place = .starting) (hloop : s.loop = none) : ¬s.Starting := by
  rintro (hne | ⟨other, hmem, hready⟩)
  · exact hne hloop
  · obtain ⟨j, hj⟩ := List.mem_iff_getElem?.mp hmem
    have hlockj := h.lock_of_inside hj (by rw [hready]; rfl)
    have hlockk := h.lock_of_inside hk (by rw [hplace]; rfl)
    obtain rfl := Option.some.inj (hlockj.symm.trans hlockk)
    rw [hk] at hj
    cases hj
    rw [hplace] at hready
    cases hready

theorem counted_advance (h : Invariant s) (hcounted : s.Counted) (hk : s.calls[k]? = some call)
    {fault : Bool} (hs : s.advance k call fault = some s') : s'.Counted := by
  obtain ⟨call', hshape⟩ := shape_advance h hk hs
  have hcount : s'.calls.countP Call.startFailed =
      s.calls.countP Call.startFailed + if call'.startFailed then 1 else 0 := by
    rw [hshape.calls]
    exact countP_set_call hk (not_startFailed hs) call'
  rcases hshape.threads with ⟨hlength, hthreads⟩ | ⟨hlength, -, hplace, hloop, hnew⟩
  · rcases hcounted with hle | ⟨heq, hstarting⟩
    · left
      omega
    · rcases hshape.starting hk hstarting hthreads with hstarting' | hfailed
      · cases hfailed : call'.startFailed with
        | false =>
          right
          rw [hfailed] at hcount
          exact ⟨by simpa [hlength, hcount] using heq, hstarting'⟩
        | true =>
          left
          rw [hfailed] at hcount
          simp only [if_true] at hcount
          omega
      · left
        rw [if_pos hfailed] at hcount
        omega
  · have hle : s.workers.length ≤ s.calls.countP Call.startFailed := by
      rcases hcounted with hle | ⟨-, hstarting⟩
      · exact hle
      · exact absurd hstarting (not_starting h hk hplace hloop)
    rcases hnew with hready | hfailed
    · have hstarting' : s'.Starting := by
        refine .inr ⟨call', ?_, hready⟩
        rw [hshape.calls]
        exact List.mem_set (List.getElem?_eq_some_iff.mp hk).1 _
      have hnot : call'.startFailed = false := by rw [Call.startFailed, hready]
      rw [hnot] at hcount
      rcases Nat.lt_or_ge s.workers.length (s.calls.countP Call.startFailed) with hlt | hge
      · left
        omega
      · right
        refine ⟨?_, hstarting'⟩
        simp only [Bool.false_eq_true, if_false] at hcount
        omega
    · left
      rw [if_pos hfailed] at hcount
      omega

theorem Counted.of_same (h : s.Counted) (hworkers : s'.workers.length = s.workers.length)
    (hcount : s'.calls.countP Call.startFailed = s.calls.countP Call.startFailed)
    (hstarting : s.Starting → s'.Starting) : s'.Counted := by
  unfold Counted
  rw [hworkers, hcount]
  exact h.imp_right fun hc => ⟨hc.1, hstarting hc.2⟩

theorem counted_runLoop (hcounted : s.Counted) {w : ℕ} {worker : Worker}
    (hs : s.runLoop w worker = some s') : s'.Counted := by
  unfold runLoop at hs
  split at hs
  · cases hs
  · cases hs
    exact hcounted.of_same List.length_set rfl fun _ => .inl nofun
  · cases hs
    exact hcounted.of_same List.length_set rfl id
  · split at hs
    · cases hs
      exact hcounted.of_same List.length_set rfl id
    · cases hs
  · split at hs
    · cases hs
      exact hcounted.of_same List.length_set rfl id
    · cases hs
  · cases hs

theorem counted_next (h : Invariant s) (hcounted : s.Counted) {move : Move ε α}
    (hs : s.next move = some s') : s'.Counted := by
  cases move with
  | call kind =>
    cases hs
    refine hcounted.of_same rfl (by simp [List.countP_append, Call.startFailed]) ?_
    rintro (hloop | ⟨call, hmem, hready⟩)
    · exact .inl hloop
    · exact .inr ⟨call, List.mem_append_left _ hmem, hready⟩
  | caller k fault =>
    obtain ⟨call, hk, hs⟩ := Option.bind_eq_some_iff.mp hs
    exact counted_advance h hcounted hk hs
  | worker w =>
    obtain ⟨worker, -, hs⟩ := Option.bind_eq_some_iff.mp hs
    exact counted_runLoop hcounted hs
  | coroutine k outcome =>
    obtain ⟨call, hk, hs⟩ := Option.bind_eq_some_iff.mp hs
    obtain ⟨-, rfl⟩ := finish_eq hs
    obtain ⟨hlt, heq⟩ := List.getElem?_eq_some_iff.mp hk
    refine hcounted.of_same rfl ?_ ?_
    · change (s.calls.set k _).countP _ = _
      rw [List.countP_set hlt, heq]
      change _ - (if call.startFailed = true then 1 else 0) +
        (if call.startFailed = true then 1 else 0) = _
      refine Nat.sub_add_cancel ?_
      split
      · next hfailed => exact List.countP_pos_iff.mpr ⟨call, List.mem_of_getElem? hk, hfailed⟩
      · exact Nat.zero_le _
    · rintro (hloop | ⟨other, hmem, hready⟩)
      · exact .inl hloop
      · obtain ⟨j, hj⟩ := List.mem_iff_getElem?.mp hmem
        by_cases hjk : k = j
        · subst hjk
          rw [hk] at hj
          cases hj
          exact .inr ⟨_, List.mem_set hlt _, hready⟩
        · exact .inr ⟨other, List.mem_of_getElem? ((List.getElem?_set_ne hjk).trans hj), hready⟩

theorem counted_after (moves : List (Move ε α)) : (after moves).Counted := by
  have hrun : Invariant (after moves) ∧ (after moves).Counted :=
    Runs.run_invariant (fun s => Invariant s ∧ s.Counted) ⟨invariant_fresh, .inl (Nat.le_refl 0)⟩
      fun s move t _ hs ht => ⟨hs.1.next ht, counted_next hs.1 hs.2 ht⟩
  exact hrun.2

theorem Counted.le (h : s.Counted) : s.workers.length ≤ s.calls.countP Call.startFailed + 1 := by
  rcases h with hle | ⟨heq, -⟩
  · exact Nat.le_succ_of_le hle
  · exact Nat.le_of_eq heq

theorem workers_le_one {moves : List (Move ε α)}
    (hstarted : ∀ call ∈ (after moves).calls, call.startFailed = false) :
    (after moves).workers.length ≤ 1 := by
  have hnone : (after moves).calls.countP Call.startFailed = 0 :=
    List.countP_eq_zero.mpr fun call hmem => by simp [hstarted call hmem]
  have hle := (counted_after moves).le
  rwa [hnone] at hle

/-- After every interleaving there are at most as many event-loop threads as starts that failed,
and one more. -/
theorem threads_le (moves : List (Move ε α)) :
    (after moves).workers.length ≤ (after moves).calls.countP Call.startFailed + 1 :=
  (counted_after moves).le

end Runner

end OpenJobSpec.SyncRunner
