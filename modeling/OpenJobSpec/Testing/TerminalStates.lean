import OpenJobSpec.Testing.FakeTransport

/-! # Terminal states of the fake backend

An acknowledgement, a failure report and a cancellation assign a state to the
job whatever its state is. A run of operations keeps the terminal states
exactly when each of these finds a job that is not in another terminal state.
-/
namespace OpenJobSpec.Testing
open Runs Serving

/-- `JobState(job.state).is_terminal`. -/
def FakeJob.IsTerminal (job : FakeJob) : Prop :=
  (JobState.ofValue job.state).any JobState.isTerminal = true

theorem FakeJob.not_terminal_of_state {job : FakeJob}
    (h : job.state = "available" ∨ job.state = "retryable") : ¬job.IsTerminal := by
  rw [IsTerminal]
  rcases h with h | h
  all_goals
    rw [h]
    decide

/-- Every terminal job keeps its place and its state. -/
def Absorbs (jobs jobs' : List FakeJob) : Prop :=
  ∀ (i : ℕ) (job : FakeJob), jobs[i]? = some job → job.IsTerminal →
    ∃ job', jobs'[i]? = some job' ∧ job'.state = job.state

namespace Absorbs
variable {jobs jobs' jobs'' : List FakeJob}

theorem refl (jobs : List FakeJob) : Absorbs jobs jobs := fun _ job hjob _ => ⟨job, hjob, rfl⟩

theorem trans (h : Absorbs jobs jobs') (h' : Absorbs jobs' jobs'') : Absorbs jobs jobs'' := by
  intro i job hjob hterminal
  obtain ⟨job', hjob', hstate⟩ := h i job hjob hterminal
  obtain ⟨job'', hjob'', hstate'⟩ := h' i job' hjob' (by rwa [FakeJob.IsTerminal, hstate])
  exact ⟨job'', hjob'', hstate'.trans hstate⟩

theorem of_extends (h : jobs <+: jobs') : Absorbs jobs jobs' := by
  obtain ⟨later, rfl⟩ := h
  intro i job hjob _
  exact ⟨job, (List.getElem?_append_left (List.getElem?_eq_some_iff.mp hjob).1).trans hjob, rfl⟩

/-- No terminal job is at one of the places where the lists differ. -/
theorem of_others {places : List ℕ} (hothers : ∀ i ∉ places, jobs'[i]? = jobs[i]?)
    (hplaces : ∀ i ∈ places, ∀ job, jobs[i]? = some job → ¬job.IsTerminal) :
    Absorbs jobs jobs' := by
  intro i job hjob hterminal
  refine ⟨job, (hothers i ?_).trans hjob, rfl⟩
  intro hi
  exact hplaces i hi job hjob hterminal

theorem set_iff {place : ℕ} {job job' : FakeJob} (hjob : jobs[place]? = some job) :
    Absorbs jobs (jobs.set place job') ↔ (job.IsTerminal → job'.state = job.state) := by
  obtain ⟨hlt, -⟩ := List.getElem?_eq_some_iff.mp hjob
  constructor
  · intro h hterminal
    obtain ⟨job'', hjob'', hstate⟩ := h place job hjob hterminal
    rw [List.getElem?_set_self hlt] at hjob''
    cases hjob''
    exact hstate
  · intro h i other hother hterminal
    by_cases hi : place = i
    · subst hi
      rw [hjob] at hother
      cases hother
      exact ⟨job', List.getElem?_set_self hlt, h hterminal⟩
    · exact ⟨other, (List.getElem?_set_ne hi).trans hother, rfl⟩

end Absorbs

/-! ## What a fetch selects -/

/-- The selected jobs, with their places, are copies of jobs that were taken in the order of the
list, and no other job changes. -/
structure Fetched (queues : List String) (count : ℤ) (jobs jobs' : List FakeJob)
    (selected : List (ℕ × Job)) : Prop where
  in_order : (selected.map Prod.fst).Pairwise (· < ·)
  bounded : selected.length ≤ count.toNat
  taken : ∀ p ∈ selected, ∃ job, jobs[p.1]? = some job ∧ FakeStore.Fetchable queues job ∧
    jobs'[p.1]? = some job.started ∧ p.2 = job.started.toJob .active
  others : ∀ i ∉ selected.map Prod.fst, jobs'[i]? = jobs[i]?

namespace FakeStore
variable {queues : List String} {count : ℤ}

theorem fetchLoop_places (place selected : ℕ) (jobs : List FakeJob) :
    ((fetchLoop queues count place selected jobs).2.map Prod.fst).Pairwise (· < ·) ∧
      ∀ p ∈ (fetchLoop queues count place selected jobs).2, place ≤ p.1 := by
  fun_induction fetchLoop queues count place selected jobs with
  | case1 => exact ⟨.nil, List.forall_mem_nil _⟩
  | case2 => exact ⟨.nil, List.forall_mem_nil _⟩
  | case3 place selected job rest _ _ ih =>
    refine ⟨List.pairwise_cons.mpr ⟨?_, ih.1⟩, List.forall_mem_cons.mpr ⟨le_rfl, ?_⟩⟩
    · intro i hi
      obtain ⟨p, hp, rfl⟩ := List.mem_map.mp hi
      exact ih.2 p hp
    · exact fun p hp => Nat.le_of_succ_le (ih.2 p hp)
  | case4 place selected job rest _ _ ih =>
    exact ⟨ih.1, fun p hp => Nat.le_of_succ_le (ih.2 p hp)⟩

variable (queues count) in
theorem fetchLoop_length (place selected : ℕ) (jobs : List FakeJob) :
    (fetchLoop queues count place selected jobs).2.length ≤ (count - selected).toNat := by
  fun_induction fetchLoop queues count place selected jobs with
  | case1 => exact Nat.zero_le _
  | case2 => exact Nat.zero_le _
  | case3 place selected job rest hcount _ ih =>
    rw [List.length_cons]
    omega
  | case4 place selected job rest _ _ ih => exact ih

/-- The loop works on the jobs from its place on, so their places in the list are behind it. -/
theorem fetchLoop_taken (place selected : ℕ) (jobs : List FakeJob) :
    ∀ p ∈ (fetchLoop queues count place selected jobs).2, ∃ i job, p.1 = place + i ∧
      jobs[i]? = some job ∧ Fetchable queues job ∧
      (fetchLoop queues count place selected jobs).1[i]? = some job.started ∧
      p.2 = job.started.toJob .active := by
  fun_induction fetchLoop queues count place selected jobs with
  | case1 => exact List.forall_mem_nil _
  | case2 => exact List.forall_mem_nil _
  | case3 place selected job rest _ hfetchable ih =>
    refine List.forall_mem_cons.mpr ⟨⟨0, job, rfl, rfl, hfetchable, rfl, rfl⟩, ?_⟩
    intro p hp
    obtain ⟨i, job', hplace, htaken⟩ := ih p hp
    exact ⟨i + 1, job', by omega, htaken⟩
  | case4 place selected job rest _ _ ih =>
    intro p hp
    obtain ⟨i, job', hplace, htaken⟩ := ih p hp
    exact ⟨i + 1, job', by omega, htaken⟩

theorem fetchLoop_others (place selected : ℕ) (jobs : List FakeJob) (i : ℕ)
    (hi : place + i ∉ (fetchLoop queues count place selected jobs).2.map Prod.fst) :
    (fetchLoop queues count place selected jobs).1[i]? = jobs[i]? := by
  fun_induction fetchLoop queues count place selected jobs generalizing i with
  | case1 => rfl
  | case2 => rfl
  | case3 place selected job rest _ _ ih =>
    rw [List.map_cons, List.mem_cons, not_or] at hi
    cases i with
    | zero => exact absurd rfl hi.1
    | succ i =>
      apply ih i
      rw [Nat.add_right_comm]
      exact hi.2
  | case4 place selected job rest _ _ ih =>
    cases i with
    | zero => rfl
    | succ i =>
      apply ih i
      rw [Nat.add_right_comm]
      exact hi

theorem fetch_fetched (store : FakeStore) (queues : List String) (count : ℤ) :
    Fetched queues count store.enqueued (store.fetch queues count).1.enqueued
      (store.fetch queues count).2 where
  in_order := (fetchLoop_places 0 0 store.enqueued).1
  bounded := by
    have hlength := fetchLoop_length queues count 0 0 store.enqueued
    rwa [Int.natCast_zero, Int.sub_zero] at hlength
  taken := by
    intro p hp
    obtain ⟨i, job, hplace, htaken⟩ := fetchLoop_taken 0 0 store.enqueued p hp
    rw [Nat.zero_add] at hplace
    rw [hplace]
    exact ⟨job, htaken⟩
  others := by
    intro i hi
    apply fetchLoop_others 0 0 store.enqueued i
    rwa [Nat.zero_add]

end FakeStore

theorem Fetched.not_terminal {queues : List String} {count : ℤ} {jobs jobs' : List FakeJob}
    {selected : List (ℕ × Job)} (h : Fetched queues count jobs jobs' selected) :
    ∀ i ∈ selected.map Prod.fst, ∀ job, jobs[i]? = some job → ¬job.IsTerminal := by
  intro i hi job hjob
  obtain ⟨p, hp, rfl⟩ := List.mem_map.mp hi
  obtain ⟨job', hjob', hfetchable, -⟩ := h.taken p hp
  rw [hjob] at hjob'
  cases hjob'
  exact FakeJob.not_terminal_of_state hfetchable.2

/-! ## What one operation does to the terminal jobs -/

namespace FakeStore

theorem getElem_of_find {store : FakeStore} {jobId : String} {place : ℕ} {job : FakeJob}
    (h : store.find jobId = .ok (place, job)) : store.enqueued[place]? = some job := by
  unfold find at h
  split at h
  next => cases h
  next =>
    split at h
    next => cases h
    next hjob =>
      cases h
      exact hjob

variable (conversions : Conversions)

theorem push_extends (store : FakeStore) (body : Fields) :
    store.enqueued <+: (store.push conversions body).1.enqueued := by
  unfold push
  split
  next => exact List.prefix_rfl
  next => exact List.prefix_append _ _

theorem pushBatch_extends (store : FakeStore) (jobs : List Fields) :
    store.enqueued <+: (store.pushBatch conversions jobs).1.enqueued := by
  fun_induction pushBatch conversions store jobs with
  | case1 => exact List.prefix_rfl
  | case2 store body rest pushed e hpush =>
    have hstart := push_extends conversions store body
    rwa [hpush] at hstart
  | case3 store body rest pushed job hpush ih =>
    have hstart := push_extends conversions store body
    rw [hpush] at hstart
    exact hstart.trans ih

end FakeStore

/-- The job that an operation names, and the state that it assigns to the job. -/
def FakeOperation.assigns : FakeOperation → Option (String × String)
  | .ack jobId _ => some (jobId, "completed")
  | .nack jobId error =>
    some (jobId, if FakeStore.retryable error then "retryable" else "discarded")
  | .cancel jobId => some (jobId, "cancelled")
  | .push _ | .pushBatch _ | .fetch _ _ | .drain _ => none

namespace FakeBackend
variable {W : Type} {conversions : Conversions} {handlers : Handlers W} {b c : FakeBackend W}
  {operation : FakeOperation}

/-- The operation assigns no other state to a job in a terminal state. -/
def Respects (b : FakeBackend W) (operation : FakeOperation) : Prop :=
  ∀ jobId state, operation.assigns = some (jobId, state) →
    ∀ place job, b.store.find jobId = .ok (place, job) → job.IsTerminal → state = job.state

variable (conversions handlers) in
theorem after_of_assigns {jobId state : String} (h : operation.assigns = some (jobId, state)) :
    (∃ e, b.store.find jobId = .error e ∧
      (b.after conversions handlers operation).store = b.store) ∨
    ∃ place job job', b.store.find jobId = .ok (place, job) ∧ job'.state = state ∧
      (b.after conversions handlers operation).store = b.store.put place job' := by
  cases operation with
  | push _ | pushBatch _ | fetch _ _ | drain _ => cases h
  | ack _ _ | nack _ _ | cancel _ =>
    cases h
    simp only [after, FakeStore.ack, FakeStore.nack, FakeStore.cancel]
    cases b.store.find _ with
    | error e => exact .inl ⟨e, rfl, rfl⟩
    | ok found => exact .inr ⟨found.1, found.2, _, rfl, rfl, rfl⟩

theorem Served.not_terminal {later : List FakeJob} {served : List (ℕ × Bool)}
    (h : Served b later served c) :
    ∀ i ∈ served.map Prod.fst, ∀ job, (b.store.enqueued ++ later)[i]? = some job →
      ¬job.IsTerminal := by
  intro i hi job hjob
  obtain ⟨p, hp, rfl⟩ := List.mem_map.mp hi
  obtain ⟨job', hjob', havailable, -⟩ := h.taken p hp
  rw [hjob] at hjob'
  cases hjob'
  exact FakeJob.not_terminal_of_state (.inl havailable)

theorem absorbs_of_not_assigns (h : operation.assigns = none) :
    Absorbs b.store.enqueued (b.after conversions handlers operation).store.enqueued := by
  cases operation with
  | push body => exact .of_extends (FakeStore.push_extends conversions b.store body)
  | pushBatch jobs => exact .of_extends (FakeStore.pushBatch_extends conversions b.store jobs)
  | fetch queues count =>
    have hfetched := b.store.fetch_fetched queues count
    exact .of_others hfetched.others hfetched.not_terminal
  | drain maxJobs =>
    obtain ⟨served, later, -, hserved, -⟩ := drain_served handlers b maxJobs
    exact (Absorbs.of_extends (List.prefix_append _ later)).trans
      (.of_others hserved.others hserved.not_terminal)
  | ack _ _ | nack _ _ | cancel _ => cases h

/-- An operation keeps the terminal states exactly when it respects them. -/
theorem absorbs_after_iff :
    Absorbs b.store.enqueued (b.after conversions handlers operation).store.enqueued ↔
      b.Respects operation := by
  cases hassigns : operation.assigns with
  | none =>
    refine iff_of_true (absorbs_of_not_assigns hassigns) ?_
    intro jobId state h
    rw [hassigns] at h
    cases h
  | some assigned =>
    obtain ⟨jobId, state⟩ := assigned
    have hrespects : b.Respects operation ↔ ∀ place job, b.store.find jobId = .ok (place, job) →
        job.IsTerminal → state = job.state := by
      constructor
      · exact fun h => h jobId state hassigns
      · intro h jobId' state' hassigns'
        rw [hassigns] at hassigns'
        cases hassigns'
        exact h
    rw [hrespects]
    rcases after_of_assigns (b := b) conversions handlers hassigns with
      ⟨e, hfind, hstore⟩ | ⟨place, job, job', hfind, hstate, hstore⟩
    · rw [hstore, hfind]
      refine iff_of_true (.refl _) ?_
      intro place job h
      cases h
    · rw [hstore, FakeStore.put_enqueued, Absorbs.set_iff (FakeStore.getElem_of_find hfind), hstate]
      constructor
      · intro h place' job' hfind'
        rw [hfind] at hfind'
        cases hfind'
        exact h
      · exact fun h => h place job hfind

/-! ## Runs of operations -/

/-- The places of the jobs that the operation returns to a worker or calls handlers with. -/
def taken (handlers : Handlers W) (b : FakeBackend W) : FakeOperation → List ℕ
  | .fetch queues count => (b.store.fetch queues count).2.map Prod.fst
  | .drain maxJobs =>
    (b.drain handlers maxJobs).1.store.performed.drop b.store.performed.length
  | .push _ | .pushBatch _ | .ack _ _ | .nack _ _ | .cancel _ => []

theorem not_terminal_of_taken {i : ℕ} {job : FakeJob} (hi : i ∈ b.taken handlers operation)
    (hjob : b.store.enqueued[i]? = some job) : ¬job.IsTerminal := by
  cases operation with
  | fetch queues count => exact (b.store.fetch_fetched queues count).not_terminal i hi job hjob
  | drain maxJobs =>
    obtain ⟨served, later, -, hserved, -⟩ := drain_served handlers b maxJobs
    rw [taken, hserved.performed, List.drop_left] at hi
    apply hserved.not_terminal i hi job
    rw [List.getElem?_append_left (List.getElem?_eq_some_iff.mp hjob).1, hjob]
  | push _ | pushBatch _ | ack _ _ | nack _ _ | cancel _ => cases hi

/-- The law of a run: a job in a terminal state stays in it and is not taken any more, and every
fetch takes what it should. -/
structure TerminalLaw (conversions : Conversions) (handlers : Handlers W) (b : FakeBackend W)
    (operations : List FakeOperation) : Prop where
  absorbing : ∀ earlier later, earlier ++ later <+: operations →
    Absorbs (run (next conversions handlers) b earlier).store.enqueued
      (run (next conversions handlers) b (earlier ++ later)).store.enqueued
  untaken : ∀ earlier later operation, earlier ++ later ++ [operation] <+: operations →
    ∀ (i : ℕ) (job : FakeJob),
      (run (next conversions handlers) b earlier).store.enqueued[i]? = some job →
      job.IsTerminal →
      i ∉ (run (next conversions handlers) b (earlier ++ later)).taken handlers operation
  fetched : ∀ earlier queues count, earlier ++ [.fetch queues count] <+: operations →
    Fetched queues count (run (next conversions handlers) b earlier).store.enqueued
      (run (next conversions handlers) b (earlier ++ [.fetch queues count])).store.enqueued
      ((run (next conversions handlers) b earlier).store.fetch queues count).2

theorem run_concat (operations : List FakeOperation) :
    run (next conversions handlers) b (operations ++ [operation]) =
      (run (next conversions handlers) b operations).after conversions handlers operation := by
  rw [run_append]
  rfl

theorem absorbs_run {operations : List FakeOperation}
    (h : Along Respects (next conversions handlers) b operations) :
    Absorbs b.store.enqueued (run (next conversions handlers) b operations).store.enqueued := by
  refine run_invariant_along (fun u => Absorbs b.store.enqueued u.store.enqueued) ?_ h (.refl _)
  rintro s operation _ hrespects habsorbs ⟨⟩
  exact habsorbs.trans (absorbs_after_iff.mpr hrespects)

/-- A run keeps the law exactly when each of its operations respects the terminal states. -/
theorem terminal_law_iff (conversions : Conversions) (handlers : Handlers W) (b : FakeBackend W)
    (operations : List FakeOperation) : TerminalLaw conversions handlers b operations ↔
      Along Respects (next conversions handlers) b operations := by
  rw [along_iff_each]
  constructor
  · intro hlaw earlier operation hstart
    have habsorbs := hlaw.absorbing earlier [operation] hstart
    rw [run_concat] at habsorbs
    exact absorbs_after_iff.mp habsorbs
  · intro hrespects
    have habsorbing : ∀ earlier later, earlier ++ later <+: operations →
        Absorbs (run (next conversions handlers) b earlier).store.enqueued
          (run (next conversions handlers) b (earlier ++ later)).store.enqueued := by
      intro earlier later hstart
      rw [run_append]
      refine absorbs_run (along_iff_each.mpr ?_)
      intro before operation hbefore
      rw [← run_append]
      refine hrespects _ _ (.trans ?_ hstart)
      rw [List.append_assoc]
      exact (List.prefix_append_right_inj earlier).mpr hbefore
    refine ⟨habsorbing, ?_, ?_⟩
    · intro earlier later operation hstart i job hjob hterminal hi
      obtain ⟨job', hjob', hstate⟩ :=
        habsorbing earlier later ((List.prefix_append _ _).trans hstart) i job hjob hterminal
      apply not_terminal_of_taken hi hjob'
      rwa [FakeJob.IsTerminal, hstate]
    · intro earlier queues count _
      rw [run_concat]
      exact FakeStore.fetch_fetched _ queues count

/-- Conversions for bodies of texts and integers, which call none of them. -/
def plainConversions : Conversions := ⟨fun value => .ok value.typeName, fun _ => none⟩

def enqueueOne : FakeOperation := .push [("type", .str "email.send")]

/-- The operations on the one job of a new transport. -/
def statesAfter (operations : List FakeOperation) : List String :=
  (run (next plainConversions fun _ => none) ⟨.empty, ()⟩ operations).store.enqueued.map
    FakeJob.state

/-- A late failure report makes a completed job retryable, so that it is fetched once more, and an
acknowledgement completes a cancelled job. -/
theorem terminal_states_left :
    statesAfter [enqueueOne, .fetch ["default"] 1, .ack "fake-000001" .null] = ["completed"] ∧
    statesAfter [enqueueOne, .fetch ["default"] 1, .ack "fake-000001" .null,
      .nack "fake-000001" []] = ["retryable"] ∧
    statesAfter [enqueueOne, .cancel "fake-000001"] = ["cancelled"] ∧
    statesAfter [enqueueOne, .cancel "fake-000001", .ack "fake-000001" .null] = ["completed"] ∧
    ¬TerminalLaw plainConversions (fun _ => none) ⟨.empty, ()⟩
      [enqueueOne, .fetch ["default"] 1, .ack "fake-000001" .null, .nack "fake-000001" []] := by
  refine ⟨rfl, rfl, rfl, rfl, ?_⟩
  intro hlaw
  obtain ⟨job, hjob, hstate⟩ :=
    hlaw.absorbing [enqueueOne, .fetch ["default"] 1, .ack "fake-000001" .null]
      [.nack "fake-000001" []] List.prefix_rfl 0 _ rfl rfl
  cases hjob
  exact absurd hstate (by decide)

end FakeBackend

end OpenJobSpec.Testing
