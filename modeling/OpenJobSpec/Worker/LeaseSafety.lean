import OpenJobSpec.Foundation.ExceptRules
import OpenJobSpec.Worker.LeasedRun
import OpenJobSpec.Worker.PermitConservation
import Mathlib.Tactic.NormNum

/-! # The local lease against the backend's

The local deadline counts from the instant at which a response is handled, the
backend's from the instant at which it processed the request. The two agree
where these are the same instant; a response that took any time leaves the local
lease alive when the backend's has run out.
-/
namespace OpenJobSpec.Worker
open Runs LeasedRun

variable {s t : LeasedRun}

/-! ## What the worker's steps do to its executions -/

section Frames
variable {w w' : WorkerRun}

/-- Nothing is registered. -/
structure Unregistered (w w' : WorkerRun) : Prop where
  executions : w'.registry.executions ⊆ w.registry.executions
  registered : w'.registered = w.registered

theorem Unregistered.of_same (hr : w'.registry = w.registry) (h : w'.registered = w.registered) :
    Unregistered w w' :=
  ⟨by rw [hr]; exact List.Subset.refl _, h⟩

theorem fetchLoop_same (w : WorkerRun) :
    w.fetchLoop.registry = w.registry ∧ w.fetchLoop.registered = w.registered := by
  unfold WorkerRun.fetchLoop
  split
  · exact ⟨rfl, rfl⟩
  split
  · exact ⟨rfl, rfl⟩
  split <;> exact ⟨rfl, rfl⟩

theorem pause_same (w : WorkerRun) :
    w.pause.registry = w.registry ∧ w.pause.registered = w.registered := by
  unfold WorkerRun.pause
  split
  · exact fetchLoop_same w
  · exact ⟨rfl, rfl⟩

theorem cancelFetch_same (w : WorkerRun) :
    w.cancelFetch.registry = w.registry ∧ w.cancelFetch.registered = w.registered := by
  unfold WorkerRun.cancelFetch
  split <;> exact ⟨rfl, rfl⟩

theorem complete_subset (r : ExecutionRegistry) (a : LeaseAdmission) (token : ℕ) :
    (r.complete a token).1.executions ⊆ r.executions := by
  unfold ExecutionRegistry.complete
  split
  · exact List.Subset.refl _
  · exact List.erase_subset

/-- Only the response to a fetch registers executions. -/
theorem unregistered_of_next {step : Step}
    (hstep : ∀ jobs failure, step ≠ .fetchReturns jobs failure)
    (hn : w.next step = some w') : Unregistered w w' := by
  unfold WorkerRun.next at hn
  split at hn
  next =>
    cases hn
    exact .of_same (fetchLoop_same w).1 (fetchLoop_same w).2
  next => cases hn
  next =>
    cases hn
    exact .of_same (cancelFetch_same w).1 (cancelFetch_same w).2
  next =>
    cases hn
    exact .of_same (fetchLoop_same w).1 (fetchLoop_same w).2
  next jobs failure _ _ _ => exact absurd rfl (hstep jobs failure)
  next permits _ _ =>
    cases hn
    exact .of_same (pause_same _).1 (pause_same _).2
  next =>
    cases hn
    exact .of_same rfl rfl
  next unused _ _ _ =>
    cases hn
    exact .of_same (fetchLoop_same (w.releaseUnused unused)).1
      (fetchLoop_same (w.releaseUnused unused)).2
  next unused _ _ =>
    cases hn
    exact .of_same (fetchLoop_same (w.releaseUnused unused)).1
      (fetchLoop_same (w.releaseUnused unused)).2
  next token =>
    split at hn
    · cases hn
      exact ⟨complete_subset _ _ token, rfl⟩
    · cases hn
  next token =>
    split at hn
    · cases hn
      exact .of_same rfl rfl
    · cases hn
  next directive =>
    split at hn
    · cases hn
    · cases hn
      refine .of_same ?_ (handleDirective_kept directive).2
      cases directive <;> unfold WorkerRun.handleDirective <;> dsimp only
      · split <;> rfl
      · split <;> rfl
      · rfl
  -- the coordinator's steps leave both as they are
  all_goals try split at hn
  all_goals cases hn
  all_goals exact .of_same rfl rfl

/-- Executions that were there before, or were registered for one of the jobs. -/
structure Registers (jobs : List Job) (w w' : WorkerRun) (fresh : List ℕ) : Prop where
  registered : w'.registered = w.registered ++ fresh
  executions : ∀ e ∈ w'.registry.executions,
    (e ∈ w.registry.executions ∧ e.token ∉ fresh) ∨
      (e.token ∈ fresh ∧ ∃ job ∈ jobs, e.jobId = job.id)

theorem Registers.none (jobs : List Job) (hr : w'.registry = w.registry)
    (h : w'.registered = w.registered) : Registers jobs w w' [] :=
  ⟨by rw [h, List.append_nil], fun e he => Or.inl ⟨hr ▸ he, List.not_mem_nil⟩⟩

theorem Registers.trans {u : WorkerRun} {jobs jobs' : List Job} {fresh fresh' : List ℕ}
    (h : Registers jobs w u fresh) (h' : Registers jobs' u w' fresh') :
    Registers (jobs ++ jobs') w w' (fresh ++ fresh') := by
  refine ⟨by rw [h'.registered, h.registered, List.append_assoc], fun e he => ?_⟩
  rcases h'.executions e he with ⟨hu, hnot'⟩ | ⟨hfresh, job, hjob, hid⟩
  · rcases h.executions e hu with ⟨hw, hnot⟩ | ⟨hfresh, job, hjob, hid⟩
    · exact Or.inl ⟨hw, fun hmem => (List.mem_append.mp hmem).elim hnot hnot'⟩
    · exact Or.inr ⟨List.mem_append_left _ hfresh, job, List.mem_append_left _ hjob, hid⟩
  · exact Or.inr ⟨List.mem_append_right _ hfresh, job, List.mem_append_right _ hjob, hid⟩

theorem Registers.of_same {jobs : List Job} {u : WorkerRun} {fresh : List ℕ}
    (h : Registers jobs w u fresh) (hr : w'.registry = u.registry)
    (hreg : w'.registered = u.registered) : Registers jobs w w' fresh :=
  ⟨hreg.trans h.registered, fun e he => h.executions e (hr ▸ he)⟩

theorem registers_startExecution (w : WorkerRun) (job : Job) (permit : ℕ) :
    ∃ fresh, Registers [job] w (w.startExecution job permit).1 fresh := by
  unfold WorkerRun.startExecution ExecutionRegistry.register
  dsimp only
  by_cases htoken : permit ∈ w.registry.tokens
  · rw [if_pos htoken]
    exact ⟨[], .none _ rfl rfl⟩
  · rw [if_neg htoken]
    refine ⟨[permit], rfl, fun e he => ?_⟩
    rcases List.mem_append.mp he with hold | hnew
    · refine Or.inl ⟨hold, fun hmem => htoken ?_⟩
      rw [← List.mem_singleton.mp hmem]
      exact List.mem_map_of_mem hold
    · rw [List.mem_singleton.mp hnew]
      exact Or.inr ⟨List.mem_singleton_self _, job, List.mem_singleton_self _, rfl⟩

theorem registers_startExecutions (pairs : List (Job × ℕ)) (failure : Option StartFailure)
    (w : WorkerRun) :
    ∃ fresh, Registers (pairs.map Prod.fst) w
      (WorkerRun.startExecutions pairs failure w).1 fresh := by
  fun_induction WorkerRun.startExecutions pairs failure w with
  | case1 failure w => exact ⟨[], .none _ rfl rfl⟩
  | case2 job permit rest taskCreated w =>
    cases taskCreated <;> exact ⟨[], .none _ rfl rfl⟩
  | case3 job permit rest failure w _ t hfailed =>
    obtain ⟨fresh, hfresh⟩ := registers_startExecution w job permit
    rw [hfailed] at hfresh
    exact ⟨fresh ++ [], hfresh.trans (.none (rest.map Prod.fst) rfl rfl)⟩
  | case4 job permit rest failure w _ t hstart u used ok hrun ih =>
    obtain ⟨fresh, hfresh⟩ := registers_startExecution w job permit
    rw [hstart] at hfresh
    rw [hrun] at ih
    obtain ⟨more, hmore⟩ := ih
    exact ⟨fresh ++ more, hfresh.trans hmore⟩

theorem handleJobs_registers (w : WorkerRun) (permits : List ℕ) (jobs : List Job)
    (failure : Option StartFailure) :
    ∃ fresh, Registers jobs w (w.handleJobs permits jobs failure) fresh := by
  obtain ⟨fresh, hfresh⟩ := registers_startExecutions (jobs.zip permits) failure w
  have hjobs : ∀ job ∈ (jobs.zip permits).map Prod.fst, job ∈ jobs := by
    intro job hjob
    obtain ⟨pair, hpair, rfl⟩ := List.mem_map.mp hjob
    exact (List.of_mem_zip hpair).1
  have hall :
      Registers jobs w (WorkerRun.startExecutions (jobs.zip permits) failure w).1 fresh := by
    refine ⟨hfresh.registered, fun e he => (hfresh.executions e he).imp_right ?_⟩
    rintro ⟨htoken, job, hjob, hid⟩
    exact ⟨htoken, job, hjobs job hjob, hid⟩
  refine ⟨fresh, ?_⟩
  unfold WorkerRun.handleJobs
  generalize WorkerRun.startExecutions (jobs.zip permits) failure w = result at hall
  obtain ⟨u, used, ok⟩ := result
  dsimp only
  split
  · exact hall.of_same rfl rfl
  split
  · exact hall.of_same (pause_same _).1 (pause_same _).2
  · exact hall.of_same (fetchLoop_same _).1 (fetchLoop_same _).2

/-- The response to a fetch registers executions of its jobs. -/
theorem registers_of_fetchReturns {jobs : List Job} {failure : Option StartFailure}
    (hn : w.next (.fetchReturns jobs failure) = some w') :
    ∃ fresh, Registers jobs w w' fresh := by
  cases hf : w.fetch with
  | fetching permits count =>
    simp only [WorkerRun.next, hf, Option.some.injEq] at hn
    subst hn
    exact handleJobs_registers w permits jobs failure
  | _ => simp [WorkerRun.next, hf] at hn

end Frames

/-! ## The invariant and its steps -/

/-- The claim on a state: an execution whose local lease lasts is still leased by the backend, and
so was every job whose retry sleep returned. -/
structure LeaseKept (s : LeasedRun) : Prop where
  registered : ∀ e ∈ s.executions, ∀ lease, s.leases e.token = some lease →
    0 < lease.remaining s.now → s.Held e.jobId
  continued : ∀ c ∈ s.continued, HeldAt s.visibility c.time c.grantedAt

/-- Responses take no time, and no retry sleep returns once its lease has run out. -/
def Prompt (s : LeasedRun) : LeasedStep → Prop
  | .fetchHandled response _ =>
    ∀ jobs, s.fetched[response]? = some jobs → ∀ job ∈ jobs, s.grantedAt job.id = some s.now
  | .heartbeatHandled response _ =>
    ∀ jobsExtended, s.beats[response]? = some jobsExtended → ∀ e ∈ s.executions,
      e.jobId ∈ extendedJobIds jobsExtended → s.grantedAt e.jobId = some s.now
  | .sleepStarts token delay =>
    ∀ lease, s.leases token = some lease → delay ≤ 0 → 0 < lease.remaining s.now
  | .sleepWakes token _ =>
    ∀ lease sleep, s.leases token = some lease → s.sleeps token = some sleep →
      sleep.target ≤ s.now → 0 < lease.remaining s.now
  | _ => True

/-- No local deadline is later than the end of the backend's lease. -/
structure Covered (s : LeasedRun) : Prop where
  sound : ∃ c, Sound c s.worker
  granted_le : ∀ jobId granted, s.grantedAt jobId = some granted → granted ≤ s.now
  deadline : ∀ e ∈ s.executions, ∀ lease, s.leases e.token = some lease →
    ∃ granted, s.grantedAt e.jobId = some granted ∧ lease.deadline ≤ granted + s.visibility.seconds
  continued : ∀ c ∈ s.continued, HeldAt s.visibility c.time c.grantedAt

theorem Covered.held (h : Covered s) {e : ActiveExecution} (he : e ∈ s.executions)
    {lease : ExecutionLease} (hlease : s.leases e.token = some lease)
    (hpos : 0 < lease.remaining s.now) : s.Held e.jobId := by
  obtain ⟨granted, hgranted, hle⟩ := h.deadline e he lease hlease
  exact ⟨granted, hgranted, (ExecutionLease.remaining_pos_iff.mp hpos).trans_le hle⟩

theorem Covered.kept (h : Covered s) : LeaseKept s :=
  ⟨fun _ he _ hlease hpos => h.held he hlease hpos, h.continued⟩

theorem Sound.tokens_nodup {c : ℕ} {w : WorkerRun} (h : Sound c w) : w.registry.tokens.Nodup :=
  (List.nodup_append.mp (h.owned.nodup_iff.mp h.valid.permits_nodup)).2.1

/-- An execution is known by its token. -/
theorem Covered.eq_of_token (h : Covered s) {e e' : ActiveExecution} (he : e ∈ s.executions)
    (he' : e' ∈ s.executions) (htoken : e.token = e'.token) : e = e' := by
  obtain ⟨c, hsound⟩ := h.sound
  exact List.inj_on_of_nodup_map hsound.tokens_nodup he he' htoken

theorem find_eq_some {token : ℕ} {e : ActiveExecution} (h : s.find token = some e) :
    e ∈ s.executions ∧ e.token = token :=
  ⟨List.mem_of_find?_eq_some h, by simpa using List.find?_some h⟩

theorem Covered.grant (h : Covered s) (jobIds : List String) :
    Covered { s with grantedAt := s.grant jobIds } := by
  refine ⟨h.sound, fun jobId granted hgranted => ?_, fun e he lease hlease => ?_, h.continued⟩
  · change (if jobId ∈ jobIds then some s.now else s.grantedAt jobId) = some granted at hgranted
    split at hgranted
    · cases hgranted
      exact le_rfl
    · exact h.granted_le jobId granted hgranted
  · obtain ⟨granted, hgranted, hle⟩ := h.deadline e he lease hlease
    by_cases hmem : e.jobId ∈ jobIds
    · refine ⟨s.now, if_pos hmem, hle.trans ?_⟩
      exact add_le_add_left (h.granted_le _ _ hgranted) _
    · exact ⟨granted, (if_neg hmem).trans hgranted, hle⟩

theorem Covered.wait (h : Covered s) {duration : ℚ} (hd : 0 ≤ duration) :
    Covered { s with now := s.now + duration } :=
  ⟨h.sound, fun jobId granted hgranted =>
    (h.granted_le jobId granted hgranted).trans (le_add_of_nonneg_right hd),
    h.deadline, h.continued⟩

theorem create_visibility (v : VisibilityTimeout) (clock : ℚ) :
    ExecutionLease.create v.ms clock = .ok ⟨v.seconds, clock + v.seconds, false⟩ := by
  rw [ExecutionLease.create, if_neg (not_lt.mpr v.at_least_one)]
  rfl

/-- A response to a fetch that is handled at once starts leases that end with the backend's. -/
theorem Covered.startLeases (h : Covered s) {jobs : List Job} {failure : Option StartFailure}
    {worker : WorkerRun} (hn : s.worker.next (.fetchReturns jobs failure) = some worker)
    (hprompt : ∀ job ∈ jobs, s.grantedAt job.id = some s.now) : Covered (s.startLeases worker) := by
  obtain ⟨c, hsound⟩ := h.sound
  obtain ⟨fresh, hreg⟩ := registers_of_fetchReturns hn
  have hfresh : worker.registered.drop s.worker.registered.length = fresh := by
    rw [hreg.registered, List.drop_left]
  refine ⟨⟨c, hsound.next hn⟩, h.granted_le, fun e he lease hlease => ?_, h.continued⟩
  simp only [LeasedRun.startLeases, hfresh, create_visibility] at hlease
  rcases hreg.executions e he with ⟨hold, hnot⟩ | ⟨htoken, job, hjob, hid⟩
  · rw [if_neg hnot] at hlease
    exact h.deadline e hold lease hlease
  · rw [if_pos htoken] at hlease
    cases hlease
    exact ⟨s.now, hid ▸ hprompt job hjob, le_rfl⟩

/-- A heartbeat's response that is handled at once moves deadlines no further than the backend. -/
theorem Covered.extendLeases (h : Covered s) {worker : WorkerRun} {directive : Directive}
    {ids : List String} (hn : s.worker.next (.heartbeat directive) = some worker)
    (hprompt : ∀ e ∈ s.executions, e.jobId ∈ ids → s.grantedAt e.jobId = some s.now) :
    Covered { s with worker, leases := s.extendLease ids } := by
  obtain ⟨c, hsound⟩ := h.sound
  have hsub := (unregistered_of_next (fun _ _ heq => by cases heq) hn).executions
  refine ⟨⟨c, hsound.next hn⟩, h.granted_le, fun e he lease hlease => ?_, h.continued⟩
  have he : e ∈ s.executions := hsub he
  dsimp only at hlease
  unfold LeasedRun.extendLease at hlease
  split at hlease
  next hany =>
    obtain ⟨before, hbefore, rfl⟩ := Option.map_eq_some_iff.mp hlease
    obtain ⟨granted, hgranted, hle⟩ := h.deadline e he before hbefore
    obtain ⟨e', he', hmatch⟩ := List.any_eq_true.mp hany
    simp only [Bool.decide_and, Bool.and_eq_true, decide_eq_true_eq] at hmatch
    have hsame : e' = e := h.eq_of_token he' he hmatch.1
    subst hsame
    have hnow := hprompt e' he' hmatch.2
    refine ⟨s.now, hnow, max_le (hle.trans ?_) le_rfl⟩
    exact add_le_add_left (h.granted_le _ _ hgranted) _
  next => exact h.deadline e he lease hlease

theorem Covered.moveSleep (h : Covered s) {e : ActiveExecution} (he : e ∈ s.executions)
    {lease : ExecutionLease} (hlease : s.leases e.token = some lease) {move : SleepMove}
    (hreturns : move = .returns → 0 < lease.remaining s.now) :
    Covered (s.moveSleep e lease move) := by
  cases move with
  | returns =>
    refine ⟨h.sound, h.granted_le, h.deadline, fun c hc => ?_⟩
    rcases List.mem_append.mp hc with hold | hnew
    · exact h.continued c hold
    · rw [List.mem_singleton.mp hnew]
      exact h.held he hlease (hreturns rfl)
  | exceeded => exact ⟨h.sound, h.granted_le, h.deadline, h.continued⟩
  | sleeps sleep =>
    refine ⟨h.sound, h.granted_le, fun e' he' lease' hlease' => ?_, h.continued⟩
    dsimp only [LeasedRun.moveSleep] at hlease'
    by_cases htoken : e'.token = e.token
    · rw [htoken, Function.update_self] at hlease'
      cases hlease'
      rw [h.eq_of_token he' he htoken]
      exact h.deadline e he lease hlease
    · rw [Function.update_of_ne htoken] at hlease'
      exact h.deadline e' he' lease' hlease'

theorem Covered.next {step : LeasedStep} (hprompt : Prompt s step) (h : Covered s)
    (hn : s.next step = some t) : Covered t := by
  cases step with
  | wait duration =>
    simp only [LeasedRun.next] at hn
    split at hn
    next hd =>
      cases hn
      exact h.wait hd
    next => cases hn
  | fetchProcessed jobs =>
    cases hn
    exact ⟨h.sound, (h.grant _).granted_le, (h.grant _).deadline, h.continued⟩
  | heartbeatProcessed jobIds =>
    cases hn
    exact ⟨h.sound, (h.grant _).granted_le, (h.grant _).deadline, h.continued⟩
  | fetchHandled response failure =>
    simp only [LeasedRun.next, Option.bind_eq_bind, Option.bind_eq_some_iff] at hn
    obtain ⟨jobs, hjobs, worker, hworker, ht⟩ := hn
    cases ht
    have hstarted := h.startLeases hworker (hprompt jobs hjobs)
    exact ⟨hstarted.sound, hstarted.granted_le, hstarted.deadline, hstarted.continued⟩
  | heartbeatHandled response directive =>
    simp only [LeasedRun.next, Option.bind_eq_bind, Option.bind_eq_some_iff] at hn
    obtain ⟨jobsExtended, hbeat, worker, hworker, ht⟩ := hn
    cases ht
    have hextended := h.extendLeases hworker (hprompt jobsExtended hbeat)
    exact ⟨hextended.sound, hextended.granted_le, hextended.deadline, hextended.continued⟩
  | sleepStarts token delay =>
    simp only [LeasedRun.next, Option.bind_eq_bind, Option.bind_eq_some_iff] at hn
    obtain ⟨e, hfind, lease, hlease, ht⟩ := hn
    obtain ⟨he, htoken⟩ := find_eq_some hfind
    split at ht
    next move _ hmove =>
      cases ht
      refine h.moveSleep he (htoken ▸ hlease) fun hreturns => hprompt lease hlease ?_
      subst hreturns
      unfold ExecutionLease.sleepForRetry at hmove
      split at hmove
      · cases hmove
      · have htarget := ExecutionLease.sleepLoop_returns_iff.mp (Except.ok.inj hmove)
        exact (add_le_iff_nonpos_right s.now).mp htarget
    next =>
      cases ht
      exact h
    next => cases ht
  | sleepWakes token byExtension =>
    simp only [LeasedRun.next, Option.bind_eq_bind, Option.bind_eq_some_iff] at hn
    obtain ⟨e, hfind, lease, hlease, sleep, hsleep, ht⟩ := hn
    obtain ⟨he, htoken⟩ := find_eq_some hfind
    split at ht
    · cases ht
      refine h.moveSleep he (htoken ▸ hlease) fun hreturns => ?_
      exact hprompt lease sleep hlease hsleep (ExecutionLease.wake_returns hreturns)
    · cases ht
  | sleepCancelled token =>
    cases hn
    exact ⟨h.sound, h.granted_le, h.deadline, h.continued⟩
  | worker step =>
    simp only [LeasedRun.next] at hn
    split at hn
    next => cases hn
    next hresponse =>
      simp only [Option.bind_eq_bind, Option.bind_eq_some_iff] at hn
      obtain ⟨worker, hworker, ht⟩ := hn
      cases ht
      obtain ⟨c, hsound⟩ := h.sound
      have hnot : ∀ jobs failure, step ≠ .fetchReturns jobs failure := by
        rintro jobs failure rfl
        exact hresponse rfl
      have hsub := (unregistered_of_next hnot hworker).executions
      exact ⟨⟨c, hsound.next hworker⟩, h.granted_le,
        fun e he lease hlease => h.deadline e (hsub he) lease hlease, h.continued⟩

/-! ## Whole runs -/

theorem Covered.new {concurrency : ℤ} {visibility : VisibilityTimeout}
    (h : LeasedRun.new concurrency visibility = .ok s) : Covered s := by
  unfold LeasedRun.new at h
  obtain ⟨worker, hworker, hs⟩ := ExceptRules.bind_eq_ok.mp h
  cases hs
  exact ⟨⟨_, Sound.new hworker⟩, fun _ _ hg => by simp at hg, fun _ _ _ hl => by simp at hl,
    fun _ hc => absurd hc List.not_mem_nil⟩

/-- In every state of a run in which responses take no time and no retry sleep returns on a lease
that has run out, no local lease outlives the backend's. -/
theorem lease_kept {concurrency : ℤ} {visibility : VisibilityTimeout} {start : LeasedRun}
    (h : LeasedRun.new concurrency visibility = .ok start) (steps : List LeasedStep)
    (hprompt : Along Prompt LeasedRun.next start steps) :
    ∀ reached, reached <+: steps → LeaseKept (run LeasedRun.next start reached) :=
  fun _ hreached => (run_invariant_along Covered (fun _ _ _ hC hI hn => hI.next hC hn)
    (hprompt.of_prefix hreached) (Covered.new h)).kept

/-- A deadline later than the end of the backend's lease is enough for the claim to fail after some
wait. -/
theorem exists_wait_not_kept {e : ActiveExecution} (he : e ∈ s.executions)
    {lease : ExecutionLease} (hlease : s.leases e.token = some lease)
    (hlive : s.now < lease.deadline)
    (hlate : ∀ granted, s.grantedAt e.jobId = some granted →
      granted + s.visibility.seconds < lease.deadline) :
    ∃ duration t, s.next (.wait duration) = some t ∧ ¬ LeaseKept t := by
  obtain ⟨time, hle, hexpired, hlt⟩ : ∃ time, s.now ≤ time ∧
      (∀ granted, s.grantedAt e.jobId = some granted → granted + s.visibility.seconds ≤ time) ∧
      time < lease.deadline := by
    rcases hg : s.grantedAt e.jobId with _ | granted
    · exact ⟨s.now, le_rfl, fun _ h => (by cases h), hlive⟩
    · refine ⟨max s.now (granted + s.visibility.seconds), le_max_left _ _, fun g h => ?_,
        max_lt hlive (hlate granted hg)⟩
      cases h
      exact le_max_right _ _
  refine ⟨time - s.now, { s with now := time }, ?_, fun hkept => ?_⟩
  · simp only [LeasedRun.next, sub_nonneg, hle, if_true, add_sub_cancel]
  · have hpos : 0 < lease.remaining time := ExecutionLease.remaining_pos_iff.mpr hlt
    obtain ⟨granted, hgranted, hheld⟩ := hkept.registered e he lease hlease hpos
    exact absurd hheld (not_lt.mpr (hexpired granted hgranted))

/-- A fetch whose response took any time starts a lease that can outlive the backend's. -/
theorem late_fetch_outlives (h : Covered s) {worker : WorkerRun} {e : ActiveExecution}
    (he : e ∈ worker.registry.executions)
    (hnew : e.token ∈ worker.registered.drop s.worker.registered.length)
    (hlate : s.grantedAt e.jobId ≠ some s.now) :
    ∃ duration t, (s.startLeases worker).next (.wait duration) = some t ∧ ¬ LeaseKept t := by
  have hpos : 0 < s.visibility.seconds := by
    have hms : (0 : ℚ) < s.visibility.ms := by exact_mod_cast s.visibility.at_least_one
    exact div_pos hms (by norm_num)
  have hlease : (s.startLeases worker).leases e.token =
      some ⟨s.visibility.seconds, s.now + s.visibility.seconds, false⟩ := by
    simp only [LeasedRun.startLeases, create_visibility, if_pos hnew]
    rfl
  refine exists_wait_not_kept he hlease (lt_add_of_pos_right _ hpos) fun granted hgranted => ?_
  have hne : granted ≠ s.now := by
    rintro rfl
    exact hlate hgranted
  have hlt : granted < s.now := lt_of_le_of_ne (h.granted_le _ _ hgranted) hne
  exact add_lt_add_left hlt _

section Examples

def twoSeconds : VisibilityTimeout := ⟨2000, by decide⟩

def singleWorker : LeasedRun where
  worker := { admission := ⟨1, 1, [], 0, [], false⟩ }
  visibility := twoSeconds

def fetchedJob : Job := { id := "j", type := "a", state := .active }

/-- Each response is handled at the instant at which its request was processed. -/
def promptRun : List LeasedStep := [.worker .fetchStarts, .fetchProcessed [fetchedJob],
  .fetchHandled 0 none, .wait 1, .heartbeatProcessed ["j"], .heartbeatHandled 0 .none]

theorem prompt_run_kept : LeaseKept (run LeasedRun.next singleWorker promptRun) := by
  refine @lease_kept 1 twoSeconds singleWorker rfl promptRun
    ⟨trivial, trivial, ?_, trivial, trivial, ?_, trivial⟩ promptRun List.prefix_rfl
  · intro jobs hjobs job hjob
    cases hjobs
    rw [List.mem_singleton.mp hjob]
    rfl
  · intro jobsExtended hbeat e he hid
    cases hbeat
    rw [List.mem_singleton.mp he]
    rfl

/-- The response to the fetch takes one second. -/
def lateRun : List LeasedStep :=
  [.worker .fetchStarts, .fetchProcessed [fetchedJob], .wait 1, .fetchHandled 0 none, .wait 1]

theorem late_run_not_kept : ¬ LeaseKept (run LeasedRun.next singleWorker lateRun) := by
  intro h
  have hlease : (run LeasedRun.next singleWorker lateRun).leases 0 =
    some ⟨2000 / 1000, 0 + 1 + 2000 / 1000, false⟩ := rfl
  have hnow : (run LeasedRun.next singleWorker lateRun).now = 0 + 1 + 1 := rfl
  have hpos : (0 : ℚ) < ExecutionLease.remaining ⟨2000 / 1000, 0 + 1 + 2000 / 1000, false⟩
      (run LeasedRun.next singleWorker lateRun).now := by
    rw [hnow, ExecutionLease.remaining_pos_iff]
    norm_num
  obtain ⟨granted, hgranted, hheld⟩ :=
    h.registered ⟨0, "j"⟩ List.mem_cons_self _ hlease hpos
  have hzero : granted = 0 := (Option.some.inj hgranted).symm
  have hvisibility : (run LeasedRun.next singleWorker lateRun).visibility = twoSeconds := rfl
  rw [hnow, hzero, hvisibility] at hheld
  norm_num [VisibilityTimeout.seconds, twoSeconds] at hheld

end Examples

end OpenJobSpec.Worker
