import OpenJobSpec.Foundation.SpacedGrants
import OpenJobSpec.Worker.LeaseSafety

/-! # Workers that share a backend

A response takes time, so a local lease can outlive the backend's, but by no more than that time.
Several workers on one clock share a backend that hands a job to another worker only once the lease
of the one before, and that much time, has passed. Then no two of them have live leases on one job.
-/
namespace OpenJobSpec.Worker
open Runs LeasedRun SpacedGrants

/-! ## How far a local lease outlives the backend's -/

section Skew
variable {s t : LeasedRun} {latency : ℚ}

/-- When a response is handled, its jobs were granted or extended no longer ago than the latency. -/
def Timely (latency : ℚ) (s : LeasedRun) : LeasedStep → Prop
  | .fetchHandled response _ => ∀ jobs, s.fetched[response]? = some jobs → ∀ job ∈ jobs,
    ∃ granted, s.grantedAt job.id = some granted ∧ s.now ≤ granted + latency
  | .heartbeatHandled response _ => ∀ jobsExtended, s.beats[response]? = some jobsExtended →
    ∀ e ∈ s.executions, e.jobId ∈ extendedJobIds jobsExtended →
      ∃ granted, s.grantedAt e.jobId = some granted ∧ s.now ≤ granted + latency
  | _ => True

/-- No local deadline is later than the end of the backend's lease by more than the latency. -/
structure Skewed (latency : ℚ) (s : LeasedRun) : Prop where
  sound : ∃ c, Sound c s.worker
  granted_le : ∀ jobId granted, s.grantedAt jobId = some granted → granted ≤ s.now
  deadline : ∀ e ∈ s.executions, ∀ lease, s.leases e.token = some lease →
    ∃ granted, s.grantedAt e.jobId = some granted ∧
      lease.deadline ≤ granted + s.visibility.seconds + latency

theorem Sound.eq_of_token {c : ℕ} (h : Sound c s.worker) {e e' : ActiveExecution}
    (he : e ∈ s.executions) (he' : e' ∈ s.executions) (htoken : e.token = e'.token) : e = e' :=
  List.inj_on_of_nodup_map h.tokens_nodup he he' htoken

/-- The jobs that the backend grants or extends in a step. -/
def granting : LeasedStep → List String
  | .fetchProcessed jobs => jobs.map (·.id)
  | .heartbeatProcessed jobIds => jobIds
  | _ => []

theorem grant_eq_some {jobIds : List String} {jobId : String} {granted : ℚ}
    (h : s.grant jobIds jobId = some granted) :
    jobId ∈ jobIds ∧ granted = s.now ∨ s.grantedAt jobId = some granted := by
  unfold LeasedRun.grant at h
  split at h
  next hmem =>
    cases h
    exact .inl ⟨hmem, rfl⟩
  next => exact .inr h

theorem Skewed.grant (h : Skewed latency s) (jobIds : List String) :
    Skewed latency { s with grantedAt := s.grant jobIds } := by
  refine ⟨h.sound, fun jobId granted hgranted => ?_, fun e he lease hlease => ?_⟩
  · rcases grant_eq_some hgranted with ⟨-, rfl⟩ | hold
    · exact le_rfl
    · exact h.granted_le jobId granted hold
  · obtain ⟨granted, hgranted, hle⟩ := h.deadline e he lease hlease
    by_cases hmem : e.jobId ∈ jobIds
    · refine ⟨s.now, if_pos hmem, hle.trans ?_⟩
      exact add_le_add_left (add_le_add_left (h.granted_le _ _ hgranted) _) _
    · exact ⟨granted, (if_neg hmem).trans hgranted, hle⟩

/-- A lease that starts or is extended now ends within the latency of the backend's. -/
theorem deadline_of_timely {granted : ℚ} (h : s.now ≤ granted + latency) :
    s.now + s.visibility.seconds ≤ granted + s.visibility.seconds + latency := by
  rw [add_right_comm]
  exact add_le_add_left h _

theorem Skewed.wait (h : Skewed latency s) {duration : ℚ} (hd : 0 ≤ duration) :
    Skewed latency { s with now := s.now + duration } :=
  ⟨h.sound, fun jobId granted hgranted =>
    (h.granted_le jobId granted hgranted).trans (le_add_of_nonneg_right hd), h.deadline⟩

theorem Skewed.startLeases (h : Skewed latency s) {jobs : List Job} {failure : Option StartFailure}
    {worker : WorkerRun} (hn : s.worker.next (.fetchReturns jobs failure) = some worker)
    (htimely : ∀ job ∈ jobs,
      ∃ granted, s.grantedAt job.id = some granted ∧ s.now ≤ granted + latency) :
    Skewed latency (s.startLeases worker) := by
  obtain ⟨c, hsound⟩ := h.sound
  obtain ⟨fresh, hreg⟩ := registers_of_fetchReturns hn
  have hfresh : worker.registered.drop s.worker.registered.length = fresh := by
    rw [hreg.registered, List.drop_left]
  refine ⟨⟨c, hsound.next hn⟩, h.granted_le, fun e he lease hlease => ?_⟩
  simp only [LeasedRun.startLeases, hfresh, create_visibility] at hlease
  rcases hreg.executions e he with ⟨hold, hnot⟩ | ⟨htoken, job, hjob, hid⟩
  · rw [if_neg hnot] at hlease
    exact h.deadline e hold lease hlease
  · rw [if_pos htoken] at hlease
    cases hlease
    obtain ⟨granted, hgranted, hle⟩ := htimely job hjob
    rw [hid]
    exact ⟨granted, hgranted, deadline_of_timely hle⟩

theorem Skewed.extendLeases (h : Skewed latency s) {worker : WorkerRun} {directive : Directive}
    {ids : List String} (hn : s.worker.next (.heartbeat directive) = some worker)
    (htimely : ∀ e ∈ s.executions, e.jobId ∈ ids →
      ∃ granted, s.grantedAt e.jobId = some granted ∧ s.now ≤ granted + latency) :
    Skewed latency { s with worker, leases := s.extendLease ids } := by
  obtain ⟨c, hsound⟩ := h.sound
  have hsub := (unregistered_of_next (fun _ _ heq => by cases heq) hn).executions
  refine ⟨⟨c, hsound.next hn⟩, h.granted_le, fun e he lease hlease => ?_⟩
  have he : e ∈ s.executions := hsub he
  dsimp only at hlease
  unfold LeasedRun.extendLease at hlease
  split at hlease
  next hany =>
    obtain ⟨before, hbefore, rfl⟩ := Option.map_eq_some_iff.mp hlease
    obtain ⟨e', he', hmatch⟩ := List.any_eq_true.mp hany
    simp only [Bool.decide_and, Bool.and_eq_true, decide_eq_true_eq] at hmatch
    have hsame : e' = e := hsound.eq_of_token he' he hmatch.1
    subst hsame
    obtain ⟨granted, hgranted, hle⟩ := h.deadline e' he' before hbefore
    obtain ⟨now, hnow, hsoon⟩ := htimely e' he' hmatch.2
    rw [hgranted] at hnow
    cases hnow
    exact ⟨granted, hgranted, max_le hle (deadline_of_timely hsoon)⟩
  next => exact h.deadline e he lease hlease

theorem Skewed.moveSleep (h : Skewed latency s) {e : ActiveExecution} (he : e ∈ s.executions)
    {lease : ExecutionLease} (hlease : s.leases e.token = some lease) (move : SleepMove) :
    Skewed latency (s.moveSleep e lease move) := by
  cases move with
  | returns => exact ⟨h.sound, h.granted_le, h.deadline⟩
  | exceeded => exact ⟨h.sound, h.granted_le, h.deadline⟩
  | sleeps sleep =>
    refine ⟨h.sound, h.granted_le, fun e' he' lease' hlease' => ?_⟩
    obtain ⟨c, hsound⟩ := h.sound
    dsimp only [LeasedRun.moveSleep] at hlease'
    by_cases htoken : e'.token = e.token
    · rw [htoken, Function.update_self] at hlease'
      cases hlease'
      rw [hsound.eq_of_token he' he htoken]
      exact h.deadline e he lease hlease
    · rw [Function.update_of_ne htoken] at hlease'
      exact h.deadline e' he' lease' hlease'

theorem Skewed.next {step : LeasedStep} (htimely : Timely latency s step) (h : Skewed latency s)
    (hn : s.next step = some t) : Skewed latency t := by
  cases step with
  | wait duration =>
    simp only [LeasedRun.next] at hn
    split at hn
    next hd =>
      cases hn
      exact h.wait hd
    next => cases hn
  | fetchProcessed jobs =>
    cases hn
    have hgrant := h.grant (jobs.map (·.id))
    exact ⟨h.sound, hgrant.granted_le, hgrant.deadline⟩
  | heartbeatProcessed jobIds =>
    cases hn
    have hgrant := h.grant jobIds
    exact ⟨h.sound, hgrant.granted_le, hgrant.deadline⟩
  | fetchHandled response failure =>
    simp only [LeasedRun.next, Option.bind_eq_bind, Option.bind_eq_some_iff] at hn
    obtain ⟨jobs, hjobs, worker, hworker, ht⟩ := hn
    cases ht
    have hstarted := h.startLeases hworker (htimely jobs hjobs)
    exact ⟨hstarted.sound, hstarted.granted_le, hstarted.deadline⟩
  | heartbeatHandled response directive =>
    simp only [LeasedRun.next, Option.bind_eq_bind, Option.bind_eq_some_iff] at hn
    obtain ⟨jobsExtended, hbeat, worker, hworker, ht⟩ := hn
    cases ht
    have hextended := h.extendLeases hworker (htimely jobsExtended hbeat)
    exact ⟨hextended.sound, hextended.granted_le, hextended.deadline⟩
  | sleepStarts token delay =>
    simp only [LeasedRun.next, Option.bind_eq_bind, Option.bind_eq_some_iff] at hn
    obtain ⟨e, hfind, lease, hlease, ht⟩ := hn
    obtain ⟨he, htoken⟩ := find_eq_some hfind
    split at ht
    next move _ _ =>
      cases ht
      exact h.moveSleep he (htoken ▸ hlease) move
    next =>
      cases ht
      exact h
    next => cases ht
  | sleepWakes token byExtension =>
    simp only [LeasedRun.next, Option.bind_eq_bind, Option.bind_eq_some_iff] at hn
    obtain ⟨e, hfind, lease, hlease, sleep, hsleep, ht⟩ := hn
    obtain ⟨he, htoken⟩ := find_eq_some hfind
    split at ht
    · cases ht
      exact h.moveSleep he (htoken ▸ hlease) _
    · cases ht
  | sleepCancelled token =>
    cases hn
    exact ⟨h.sound, h.granted_le, h.deadline⟩
  | worker step =>
    simp only [LeasedRun.next] at hn
    split at hn
    next => cases hn
    next hresponse =>
      simp only [Option.bind_eq_bind, Option.bind_eq_some_iff] at hn
      obtain ⟨worker, hworker, ht⟩ := hn
      cases ht
      obtain ⟨c, hsound⟩ := h.sound
      have hnot : ∀ jobs failure, step ≠ .fetchReturns jobs failure := by
        rintro jobs failure rfl
        exact hresponse rfl
      have hsub := (unregistered_of_next hnot hworker).executions
      exact ⟨⟨c, hsound.next hworker⟩, h.granted_le,
        fun e he lease hlease => h.deadline e (hsub he) lease hlease⟩

theorem Skewed.new {concurrency : ℤ} {visibility : VisibilityTimeout}
    (h : LeasedRun.new concurrency visibility = .ok s) : Skewed latency s := by
  have hcovered := Covered.new h
  refine ⟨hcovered.sound, hcovered.granted_le, fun e he lease hlease => ?_⟩
  unfold LeasedRun.new at h
  obtain ⟨worker, -, hs⟩ := ExceptRules.bind_eq_ok.mp h
  cases hs
  cases hlease

/-- A live lease is one that the backend granted within the timeout and the latency. -/
theorem Skewed.within (h : Skewed latency s) {e : ActiveExecution} (he : e ∈ s.executions)
    {lease : ExecutionLease} (hlease : s.leases e.token = some lease)
    (hpos : 0 < lease.remaining s.now) : ∃ granted, s.grantedAt e.jobId = some granted ∧
      granted ≤ s.now ∧ s.now < granted + s.visibility.seconds + latency := by
  obtain ⟨granted, hgranted, hle⟩ := h.deadline e he lease hlease
  exact ⟨granted, hgranted, h.granted_le _ _ hgranted,
    (ExecutionLease.remaining_pos_iff.mp hpos).trans_le hle⟩

/-- In every run whose responses take at most the latency, a local lease outlives the backend's by
no more than it. -/
theorem live_lease_within_latency {concurrency : ℤ} {visibility : VisibilityTimeout}
    (hnew : LeasedRun.new concurrency visibility = .ok s) {steps : List LeasedStep}
    (hrun : Along (Timely latency) LeasedRun.next s steps) :
    ∀ e ∈ (run LeasedRun.next s steps).executions, ∀ lease,
      (run LeasedRun.next s steps).leases e.token = some lease →
      0 < lease.remaining (run LeasedRun.next s steps).now →
      ∃ granted, (run LeasedRun.next s steps).grantedAt e.jobId = some granted ∧
        (run LeasedRun.next s steps).now <
          granted + (run LeasedRun.next s steps).visibility.seconds + latency := by
  intro e he lease hlease hpos
  have hskewed : Skewed latency (run LeasedRun.next s steps) :=
    run_invariant_along (Skewed latency) (fun _ _ _ hC hI hn => hI.next hC hn) hrun (.new hnew)
  obtain ⟨granted, hgranted, -, hlt⟩ := hskewed.within he hlease hpos
  exact ⟨granted, hgranted, hlt⟩

/-- The lease of a response that took a second. -/
theorem late_lease_within_latency : ∃ granted,
    (run LeasedRun.next singleWorker lateRun).grantedAt "j" = some granted ∧
      (run LeasedRun.next singleWorker lateRun).now <
        granted + (run LeasedRun.next singleWorker lateRun).visibility.seconds + 1 := by
  have hrun : Along (Timely 1) LeasedRun.next singleWorker lateRun := by
    refine ⟨trivial, trivial, trivial, fun jobs hjobs job hjob => ?_, trivial, trivial⟩
    cases hjobs
    rw [List.mem_singleton.mp hjob]
    exact ⟨0, rfl, le_rfl⟩
  have hnow : (run LeasedRun.next singleWorker lateRun).now = 0 + 1 + 1 := rfl
  refine @live_lease_within_latency singleWorker 1 1 twoSeconds rfl lateRun hrun ⟨0, "j"⟩
    List.mem_cons_self ⟨2000 / 1000, 0 + 1 + 2000 / 1000, false⟩ rfl ?_
  rw [hnow, ExecutionLease.remaining_pos_iff]
  norm_num

/-- Only time and the backend change when a job was granted. -/
theorem grantedAt_of_next {step : LeasedStep} (hstep : ∀ duration, step ≠ .wait duration)
    (hn : s.next step = some t) : t.now = s.now ∧ t.visibility = s.visibility ∧
      t.grantedAt = s.grant (granting step) := by
  have hnone : s.grantedAt = s.grant [] := funext fun jobId => (if_neg List.not_mem_nil).symm
  have hmove (e : ActiveExecution) (lease : ExecutionLease) (move : SleepMove) :
      (s.moveSleep e lease move).now = s.now ∧
        (s.moveSleep e lease move).visibility = s.visibility ∧
        (s.moveSleep e lease move).grantedAt = s.grant [] := by
    cases move <;> exact ⟨rfl, rfl, hnone⟩
  cases step with
  | wait duration => exact absurd rfl (hstep duration)
  | fetchProcessed jobs | heartbeatProcessed jobIds =>
    cases hn
    exact ⟨rfl, rfl, rfl⟩
  | fetchHandled response failure =>
    simp only [LeasedRun.next, Option.bind_eq_bind, Option.bind_eq_some_iff] at hn
    obtain ⟨jobs, hjobs, worker, hworker, ht⟩ := hn
    cases ht
    exact ⟨rfl, rfl, hnone⟩
  | heartbeatHandled response directive =>
    simp only [LeasedRun.next, Option.bind_eq_bind, Option.bind_eq_some_iff] at hn
    obtain ⟨jobsExtended, hbeat, worker, hworker, ht⟩ := hn
    cases ht
    exact ⟨rfl, rfl, hnone⟩
  | sleepStarts token delay =>
    simp only [LeasedRun.next, Option.bind_eq_bind, Option.bind_eq_some_iff] at hn
    obtain ⟨e, hfind, lease, hlease, ht⟩ := hn
    split at ht
    · cases ht
      exact hmove e lease _
    · cases ht
      exact ⟨rfl, rfl, hnone⟩
    · cases ht
  | sleepWakes token byExtension =>
    simp only [LeasedRun.next, Option.bind_eq_bind, Option.bind_eq_some_iff] at hn
    obtain ⟨e, hfind, lease, hlease, sleep, hsleep, ht⟩ := hn
    split at ht
    · cases ht
      exact hmove e lease _
    · cases ht
  | sleepCancelled token =>
    cases hn
    exact ⟨rfl, rfl, hnone⟩
  | worker step =>
    simp only [LeasedRun.next] at hn
    split at hn
    · cases hn
    · simp only [Option.bind_eq_bind, Option.bind_eq_some_iff] at hn
      obtain ⟨worker, hworker, ht⟩ := hn
      cases ht
      exact ⟨rfl, rfl, hnone⟩

end Skew

/-! ## Workers on one clock -/

inductive FleetStep
  | wait (duration : ℚ)
  /-- any step of one worker but a wait -/
  | worker (index : ℕ) (step : LeasedStep)

/-- Workers with one visibility timeout, in the states that they are in at one instant. -/
structure Fleet where
  workers : List LeasedRun

namespace Fleet

def isWait : LeasedStep → Bool
  | .wait _ => true
  | _ => false

def next (s : Fleet) : FleetStep → Option Fleet
  | .wait duration => some ⟨s.workers.map fun w => apply LeasedRun.next w (.wait duration)⟩
  | .worker index step =>
    if isWait step then none
    else do
      let before ← s.workers[index]?
      let after ← before.next step
      return ⟨s.workers.set index after⟩

variable (s : Fleet)

/-- When the backend last granted or extended the lease of a worker on a job. -/
def granted (index : ℕ) (jobId : String) : Option ℚ :=
  s.workers[index]?.bind (·.grantedAt jobId)

/-- The worker runs the job, and its local lease has not run out. -/
def Leased (index : ℕ) (jobId : String) : Prop :=
  ∃ w, s.workers[index]? = some w ∧ ∃ e ∈ w.executions, e.jobId = jobId ∧
    ∃ lease, w.leases e.token = some lease ∧ 0 < lease.remaining w.now

/-- The backend grants a job once the lease of every other worker on it, and the latency of
responses, have passed; responses take no longer than that. -/
def Separated (latency : ℚ) (s : Fleet) : FleetStep → Prop
  | .wait _ => True
  | .worker index step => ∀ w, s.workers[index]? = some w → Timely latency w step ∧
    ∀ jobId ∈ granting step, Free (w.visibility.seconds + latency) s.granted index jobId w.now

variable {s} {t : Fleet} {latency : ℚ} {visibility : VisibilityTimeout}

structure Sound (latency : ℚ) (visibility : VisibilityTimeout) (s : Fleet) : Prop where
  skewed : ∀ w ∈ s.workers, Skewed latency w
  timeout : ∀ w ∈ s.workers, w.visibility = visibility
  clock : ∀ w ∈ s.workers, ∀ w' ∈ s.workers, w.now = w'.now
  spaced : Spaced (visibility.seconds + latency) s.granted

theorem wait_eq (w : LeasedRun) (duration : ℚ) :
    apply LeasedRun.next w (.wait duration) = { w with now := w.now + max 0 duration } := by
  simp only [apply, LeasedRun.next]
  by_cases hd : 0 ≤ duration
  · rw [if_pos hd, max_eq_right hd]
    rfl
  · rw [if_neg hd, max_eq_left (not_le.mp hd).le, add_zero]
    rfl

theorem granted_wait (duration : ℚ) :
    granted ⟨s.workers.map fun w => apply LeasedRun.next w (.wait duration)⟩ = s.granted := by
  funext index jobId
  unfold granted
  rw [List.getElem?_map]
  cases s.workers[index]? with
  | none => rfl
  | some w =>
    simp only [Option.map_some, Option.bind_some, wait_eq]

theorem Sound.wait (h : Sound latency visibility s) (duration : ℚ) : Sound latency visibility
    ⟨s.workers.map fun w => apply LeasedRun.next w (.wait duration)⟩ where
  skewed := by
    rintro _ hmem
    obtain ⟨w, hw, rfl⟩ := List.mem_map.mp hmem
    rw [wait_eq]
    exact (h.skewed w hw).wait (le_max_left 0 duration)
  timeout := by
    rintro _ hmem
    obtain ⟨w, hw, rfl⟩ := List.mem_map.mp hmem
    rw [wait_eq]
    exact h.timeout w hw
  clock := by
    rintro _ hmem _ hmem'
    obtain ⟨w, hw, rfl⟩ := List.mem_map.mp hmem
    obtain ⟨w', hw', rfl⟩ := List.mem_map.mp hmem'
    rw [wait_eq, wait_eq]
    exact congrArg (· + max 0 duration) (h.clock w hw w' hw')
  spaced := by
    rw [granted_wait]
    exact h.spaced

/-- A worker's step leaves the clock, and is granted at most what it names. -/
theorem Sound.worker (h : Sound latency visibility s) {index : ℕ} {step : LeasedStep}
    {before after : LeasedRun} (hbefore : s.workers[index]? = some before)
    (hstep : ∀ duration, step ≠ .wait duration) (hn : before.next step = some after)
    (hcond : Separated latency s (.worker index step)) :
    Sound latency visibility ⟨s.workers.set index after⟩ := by
  obtain ⟨htimely, hfree⟩ := hcond before hbefore
  obtain ⟨hnow, hvisibility, hgranted⟩ := grantedAt_of_next hstep hn
  have hmem : before ∈ s.workers := List.mem_of_getElem? hbefore
  -- each worker is one from before, or has the clock and the timeout of the one that moved
  have hsame (w : LeasedRun) (hw : w ∈ s.workers.set index after) :
      ∃ w' ∈ s.workers, w.now = w'.now ∧ w.visibility = w'.visibility := by
    rcases List.mem_or_eq_of_mem_set hw with hold | rfl
    · exact ⟨w, hold, rfl, rfl⟩
    · exact ⟨before, hmem, hnow, hvisibility⟩
  refine ⟨fun w hw => ?_, fun w hw => ?_, fun w hw w' hw' => ?_, ?_⟩
  · rcases List.mem_or_eq_of_mem_set hw with hold | rfl
    · exact h.skewed w hold
    · exact (h.skewed before hmem).next htimely hn
  · obtain ⟨w', hw', -, heq⟩ := hsame w hw
    exact heq.trans (h.timeout w' hw')
  · obtain ⟨v, hv, heq, -⟩ := hsame w hw
    obtain ⟨v', hv', heq', -⟩ := hsame w' hw'
    rw [heq, heq']
    exact h.clock v hv v' hv'
  · rw [h.timeout before hmem] at hfree
    refine h.spaced.grant hfree (fun jobId g hg => ?_)
      fun other hne => ?_
    · obtain ⟨hlt, -⟩ := List.getElem?_eq_some_iff.mp hbefore
      simp only [granted, List.getElem?_set_self hlt, Option.bind_some, hgranted] at hg
      simp only [granted, hbefore, Option.bind_some]
      exact grant_eq_some hg
    · funext jobId
      simp only [granted, List.getElem?_set_ne hne.symm]

theorem Sound.next {step : FleetStep} (hcond : Separated latency s step)
    (h : Sound latency visibility s) (hn : s.next step = some t) : Sound latency visibility t := by
  cases step with
  | wait duration =>
    cases hn
    exact h.wait duration
  | worker index step =>
    simp only [Fleet.next] at hn
    split at hn
    next => cases hn
    next hwait =>
      simp only [Option.bind_eq_bind, Option.bind_eq_some_iff] at hn
      obtain ⟨before, hbefore, after, hafter, ht⟩ := hn
      cases ht
      refine h.worker hbefore ?_ hafter hcond
      rintro duration rfl
      exact hwait rfl

theorem Sound.new {workers : List LeasedRun} (h : ∀ w ∈ workers,
    ∃ concurrency, LeasedRun.new concurrency visibility = .ok w) :
    Sound latency visibility ⟨workers⟩ := by
  have hstart (w : LeasedRun) (hw : w ∈ workers) :
      w.visibility = visibility ∧ w.now = 0 ∧ w.grantedAt = fun _ => none := by
    obtain ⟨concurrency, hnew⟩ := h w hw
    obtain ⟨worker, -, hw⟩ := ExceptRules.bind_eq_ok.mp hnew
    cases hw
    exact ⟨rfl, rfl, rfl⟩
  refine ⟨fun w hw => ?_, fun w hw => (hstart w hw).1, fun w hw w' hw' => ?_, ?_⟩
  · obtain ⟨concurrency, hnew⟩ := h w hw
    exact Skewed.new hnew
  · rw [(hstart w hw).2.1, (hstart w' hw').2.1]
  · intro index other jobId g g' hne hg hg'
    obtain ⟨w, hw, hgranted⟩ := Option.bind_eq_some_iff.mp hg
    rw [(hstart w (List.mem_of_getElem? hw)).2.2] at hgranted
    cases hgranted

/-- Two workers with a live lease on one job are one. -/
theorem Sound.exclusive (h : Sound latency visibility s) {index other : ℕ} {jobId : String}
    (hl : s.Leased index jobId) (hl' : s.Leased other jobId) : index = other := by
  -- a live local lease puts the backend's last grant within the period
  have hwithin {i : ℕ} {w : LeasedRun} (hi : s.workers[i]? = some w) {e : ActiveExecution}
      (he : e ∈ w.executions) {lease : ExecutionLease} (hlease : w.leases e.token = some lease)
      (hpos : 0 < lease.remaining w.now) : ∃ g, s.granted i e.jobId = some g ∧ g ≤ w.now ∧
        w.now < g + (visibility.seconds + latency) := by
    have hmem := List.mem_of_getElem? hi
    obtain ⟨g, hg, hle, hlt⟩ := (h.skewed w hmem).within he hlease hpos
    refine ⟨g, ?_, hle, ?_⟩
    · rw [granted, hi]
      exact hg
    · rw [← add_assoc, ← h.timeout w hmem]
      exact hlt
  obtain ⟨w, hw, e, he, rfl, lease, hlease, hpos⟩ := hl
  obtain ⟨w', hw', e', he', hid, lease', hlease', hpos'⟩ := hl'
  obtain ⟨g, hg, hle, hlt⟩ := hwithin hw he hlease hpos
  obtain ⟨g', hg', hle', hlt'⟩ := hwithin hw' he' hlease' hpos'
  rw [h.clock w' (List.mem_of_getElem? hw') w (List.mem_of_getElem? hw)] at hle' hlt'
  rw [hid] at hg'
  exact h.spaced.exclusive hg hg' hle hle' hlt hlt'

/-- Where responses take at most the latency, and the backend lets the visibility timeout and that
latency pass before it hands a job to another worker, no two workers ever have live leases on one
job. -/
theorem one_live_lease {workers : List LeasedRun} {steps : List FleetStep}
    (hnew : ∀ w ∈ workers, ∃ concurrency, LeasedRun.new concurrency visibility = .ok w)
    (hrun : Along (Separated latency) next ⟨workers⟩ steps) {index other : ℕ} {jobId : String}
    (h : (run next ⟨workers⟩ steps).Leased index jobId)
    (h' : (run next ⟨workers⟩ steps).Leased other jobId) : index = other :=
  (run_invariant_along (Sound latency visibility) (fun _ _ _ hC hI hn => hI.next hC hn)
    hrun (.new hnew)).exclusive h h'

section Examples

def pair : Fleet := ⟨[singleWorker, singleWorker]⟩

/-- The second worker is handed the job two seconds and the latency of one after the first. -/
def handover : List FleetStep := [.worker 0 (.worker .fetchStarts),
  .worker 0 (.fetchProcessed [fetchedJob]), .wait 1, .worker 0 (.fetchHandled 0 none), .wait 2,
  .worker 1 (.worker .fetchStarts), .worker 1 (.fetchProcessed [fetchedJob]),
  .worker 1 (.fetchHandled 0 none)]

theorem handover_separated : Along (Separated 1) next pair handover := by
  refine ⟨?_, ?_, trivial, ?_, trivial, ?_, ?_, ?_, trivial⟩
  all_goals
    intro w hw
    cases hw
  · exact ⟨trivial, fun _ h => absurd h List.not_mem_nil⟩
  · refine ⟨trivial, fun jobId _ other g hne hg => ?_⟩
    obtain _ | _ | other := other
    · exact absurd rfl hne
    · cases hg
    · cases hg
  · refine ⟨fun jobs hjobs job hjob => ?_, fun _ h => absurd h List.not_mem_nil⟩
    cases hjobs
    rw [List.mem_singleton.mp hjob]
    exact ⟨0, rfl, le_rfl⟩
  · exact ⟨trivial, fun _ h => absurd h List.not_mem_nil⟩
  · refine ⟨trivial, fun jobId hjob other g hne hg => ?_⟩
    obtain _ | _ | other := other
    · rw [List.mem_singleton.mp hjob] at hg
      cases hg
      change (0 : ℚ) + (2000 / 1000 + 1) ≤ 0 + max 0 1 + max 0 2
      norm_num
    · exact absurd rfl hne
    · cases hg
  · refine ⟨fun jobs hjobs job hjob => ?_, fun _ h => absurd h List.not_mem_nil⟩
    cases hjobs
    rw [List.mem_singleton.mp hjob]
    exact ⟨_, rfl, le_add_of_nonneg_right zero_le_one⟩

theorem handover_leased : (run next pair handover).Leased 1 "j" := by
  refine ⟨_, rfl, ⟨0, "j"⟩, List.mem_cons_self, rfl, _, rfl, ?_⟩
  refine ExecutionLease.remaining_pos_iff.mpr ?_
  change (0 : ℚ) + 1 + 2 < 0 + 1 + 2 + 2000 / 1000
  norm_num

/-- The first worker's lease has run out when the second one has the job. -/
theorem handover_exclusive : ¬ (run next pair handover).Leased 0 "j" := by
  intro hleased
  have hnew : ∀ w ∈ [singleWorker, singleWorker],
      ∃ concurrency, LeasedRun.new concurrency twoSeconds = .ok w := by
    intro w hw
    have heq : w = singleWorker := by simpa using hw
    exact ⟨1, heq ▸ rfl⟩
  have hone : 0 = 1 := one_live_lease hnew handover_separated hleased handover_leased
  cases hone

end Examples

end Fleet
end OpenJobSpec.Worker
