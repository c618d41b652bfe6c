import OpenJobSpec.Foundation.ExceptRules
import OpenJobSpec.Worker.CompletionReporter
import OpenJobSpec.Worker.PermitConservation

/-! # What becomes of the jobs of a fetch response

The first jobs of a response are started with the permits of the fetch, and each
job beyond them is refused with a NACK of its own, one after the other. The
state records beside the worker what was done with each response. It says of a
refused job how often its NACK was sent, and of an admitted one that it was
registered with its permit.
-/
namespace OpenJobSpec.Worker
open Runs

/-- What was done with a response, so far. -/
structure Handling where
  permits : List ℕ
  jobs : List Job
  /-- the executions registered for it, in order -/
  started : List ActiveExecution
  /-- the jobs refused, in order, with the number of NACKs sent for each -/
  refused : List (Job × ℕ)

def Handling.refuse (h : Handling) (job : Job) (attempts : ℕ) : Handling :=
  { h with refused := h.refused ++ [(job, attempts)] }

structure IntakeRun where
  worker : WorkerRun
  /-- the responses that the loop is done with, in order -/
  handled : List Handling := []
  /-- the response whose surplus jobs are being refused -/
  current : Option Handling := none

inductive IntakeStep
  /-- the refusal of a surplus job ends -/
  | refusalEnds (script : List DeliveryReply)
  /-- any other step of the worker -/
  | worker (step : Step)

def workerOverCapacity : Fields :=
  [("code", .str "worker_over_capacity"),
    ("message", .str "Backend returned more leases than requested"), ("retryable", .bool true)]

def rejectSurplusLease (job : Job) (script : List DeliveryReply) : Report Unit :=
  let reporter : CompletionReporter Unit := { jobId := job.id }
  reporter.report (.failed workerOverCapacity) script

/-- The step of the worker that the end of a refusal is. -/
def refusalStep : Except Raised Unit → Step
  | .ok () => .nackReturns
  | .error (.exception _) => .nackFails
  | .error .cancelled => .fetchCancelled

/-- The step is the end of a refusal, and is taken as such. -/
def FetchPhase.endsRefusal : FetchPhase → Step → Bool
  | _, .nackReturns | _, .nackFails | .rejecting .., .fetchCancelled => true
  | _, _ => false

def FetchPhase.isRejecting : FetchPhase → Bool
  | .rejecting .. => true
  | _ => false

namespace IntakeRun

/-- The worker has moved on; a response that it refuses no more jobs of is done with. -/
def advance (s : IntakeRun) (current : Option Handling) (worker : WorkerRun) : IntakeRun :=
  if worker.fetch.isRejecting then { s with worker, current }
  else { worker, handled := s.handled ++ current.toList, current := none }

/-- The response that a step brings, if it brings one. -/
def received (before after : WorkerRun) : Step → Option Handling
  | .fetchReturns jobs _ =>
    match before.fetch with
    | .fetching permits _ =>
      some ⟨permits, jobs, after.registry.executions.drop before.registry.executions.length, []⟩
    | _ => none
  | _ => none

def next (s : IntakeRun) : IntakeStep → Option IntakeRun
  | .refusalEnds script =>
    match s.worker.fetch with
    | .rejecting _ (job :: _) =>
      let delivery := (rejectSurplusLease job script).delivery
      match delivery.result with
      | none => none
      | some ended => do
        let worker ← s.worker.next (refusalStep ended)
        return s.advance (s.current.map (·.refuse job delivery.attempts)) worker
    | _ => none
  | .worker step =>
    if s.worker.fetch.endsRefusal step then none
    else do
      let worker ← s.worker.next step
      return s.advance ((received s.worker worker step).or s.current) worker

end IntakeRun

/-- The execution that an admitted job and its permit become. -/
def admitted (pair : Job × ℕ) : ActiveExecution := ⟨pair.2, pair.1.id⟩

/-- The first jobs were started, as many as there were permits, and a NACK was sent for each of
the others. -/
structure Handling.Accounted (h : Handling) : Prop where
  started : h.started = (h.jobs.zip h.permits).map admitted
  refused : h.refused.map Prod.fst = h.jobs.drop h.permits.length
  sent : ∀ refusal ∈ h.refused, 1 ≤ refusal.2

/-- No job of a response that the loop is done with was forgotten, and a refusal that failed left
the executions alone. -/
structure NoneForgotten (s : IntakeRun) (steps : List IntakeStep) : Prop where
  accounted : ∀ h ∈ (run IntakeRun.next s steps).handled, h.Accounted
  undisturbed : ∀ before script, before ++ [.refusalEnds script] <+: steps →
    (run IntakeRun.next s (before ++ [.refusalEnds script])).worker.registry =
        (run IntakeRun.next s before).worker.registry ∧
      (run IntakeRun.next s (before ++ [.refusalEnds script])).worker.tasks =
        (run IntakeRun.next s before).worker.tasks

/-- A refusal that more refusals are to follow does not raise, and no start of an execution
fails. -/
def GoesOn (s : IntakeRun) : IntakeStep → Prop
  | .refusalEnds script => ∀ unused job surplus,
    s.worker.fetch = .rejecting unused (job :: surplus) → surplus ≠ [] →
    ∀ raised, (rejectSurplusLease job script).delivery.result ≠ some (.error raised)
  | .worker (.fetchReturns jobs (some failure)) => ∀ permits count,
    s.worker.fetch = .fetching permits count → (jobs.zip permits).length ≤ failure.index
  | .worker _ => True

/-! ## Admission -/

variable {c : ℕ} {s t : WorkerRun}

def AllStart (pairs : List (Job × ℕ)) (failure : Option StartFailure) : Prop :=
  ∀ f, failure = some f → pairs.length ≤ f.index

theorem startExecution_fresh {permit : ℕ} (h : permit ∉ s.registry.tokens) (job : Job) :
    ∃ t, s.startExecution job permit = (t, true) ∧
      t.registry.executions = s.registry.executions ++ [⟨permit, job.id⟩] := by
  unfold WorkerRun.startExecution ExecutionRegistry.register
  rw [if_neg h]
  exact ⟨_, rfl, rfl⟩

/-- Jobs with fresh permits are registered in order, up to the first that cannot be started. -/
structure Admitted (pairs : List (Job × ℕ)) (failure : Option StartFailure) (s t : WorkerRun)
    (used : ℕ) (ok : Bool) : Prop where
  executions : t.registry.executions = s.registry.executions ++ (pairs.take used).map admitted
  ok_iff : ok = true ↔ AllStart pairs failure
  used_of_ok : ok = true → used = pairs.length
  used_of_failed : ok = false → used < pairs.length

theorem startExecutions_admitted (pairs : List (Job × ℕ)) (failure : Option StartFailure)
    (s : WorkerRun) (hfresh : (s.registry.tokens ++ pairs.map Prod.snd).Nodup) :
    Admitted pairs failure s (WorkerRun.startExecutions pairs failure s).1
      (WorkerRun.startExecutions pairs failure s).2.1
      (WorkerRun.startExecutions pairs failure s).2.2 := by
  fun_induction WorkerRun.startExecutions pairs failure s with
  | case1 failure s =>
    exact ⟨by simp, by simp [AllStart], fun _ => rfl, fun h => by cases h⟩
  | case2 job permit rest taskCreated s =>
    refine ⟨?_, ?_, (fun h => by cases h), fun _ => Nat.succ_pos _⟩
    · cases taskCreated <;> simp
    · simp [AllStart]
  | case3 job permit rest failure s _ t hfailed =>
    have hpermit : permit ∉ s.registry.tokens := fun hmem =>
      (List.nodup_append.mp hfresh).2.2 permit hmem permit List.mem_cons_self rfl
    obtain ⟨_, hstarts, _⟩ := startExecution_fresh hpermit job
    rw [hfailed] at hstarts
    cases hstarts
  | case4 job permit rest failure s hfailure t hstart u used ok hrun ih =>
    have hpermit : permit ∉ s.registry.tokens := fun hmem =>
      (List.nodup_append.mp hfresh).2.2 permit hmem permit List.mem_cons_self rfl
    obtain ⟨t', hstarts, hexecutions⟩ := startExecution_fresh hpermit job
    rw [hstart] at hstarts
    cases hstarts
    have htokens : t.registry.tokens = s.registry.tokens ++ [permit] := by
      simp [ExecutionRegistry.tokens, hexecutions]
    rw [hrun] at ih
    have hrest : Admitted rest _ t u used ok := ih (by simpa [htokens] using hfresh)
    refine ⟨?_, ?_, ?_, ?_⟩
    · rw [hrest.executions, hexecutions]
      simp [admitted]
    · rw [hrest.ok_iff]
      cases failure with
      | none => simp [AllStart]
      | some f =>
        -- the failing start is not this one
        have hindex : f.index ≠ 0 := fun h0 => hfailure f.taskCreated (by rw [← h0])
        simp only [AllStart, Option.map_some, Option.some.injEq, forall_eq', List.length_cons]
        omega
    · exact fun hok => congrArg (· + 1) (hrest.used_of_ok hok)
    · exact fun hfailed => Nat.succ_lt_succ (hrest.used_of_failed hfailed)

theorem isRejecting_fetchLoop (s : WorkerRun) : s.fetchLoop.fetch.isRejecting = false := by
  unfold WorkerRun.fetchLoop
  split
  · rfl
  split
  · rfl
  split <;> rfl

theorem isRejecting_pause (s : WorkerRun) : s.pause.fetch.isRejecting = false := by
  unfold WorkerRun.pause
  split
  · exact isRejecting_fetchLoop s
  · rfl

theorem registry_fetchLoop (s : WorkerRun) :
    s.fetchLoop.registry = s.registry ∧ s.fetchLoop.tasks = s.tasks := by
  unfold WorkerRun.fetchLoop
  split
  · exact ⟨rfl, rfl⟩
  split
  · exact ⟨rfl, rfl⟩
  split <;> exact ⟨rfl, rfl⟩

theorem registry_pause (s : WorkerRun) :
    s.pause.registry = s.registry ∧ s.pause.tasks = s.tasks := by
  unfold WorkerRun.pause
  split
  · exact registry_fetchLoop s
  · exact ⟨rfl, rfl⟩

theorem zip_permits_sublist (jobs : List Job) (permits : List ℕ) :
    ((jobs.zip permits).map Prod.snd).Sublist permits := by
  induction jobs generalizing permits with
  | nil => exact List.nil_sublist permits
  | cons job jobs ih =>
    cases permits with
    | nil => exact List.Sublist.slnil
    | cons permit permits => exact (ih permits).cons_cons permit

/-- What handling a response starts, and the surplus that it goes on to refuse. -/
theorem handleJobs_admits {permits : List ℕ} (jobs : List Job) (failure : Option StartFailure)
    (hfresh : (s.registry.tokens ++ permits).Nodup) :
    ∃ used ok, (s.handleJobs permits jobs failure).registry.executions =
        s.registry.executions ++ ((jobs.zip permits).take used).map admitted ∧
      (ok = true ↔ AllStart (jobs.zip permits) failure) ∧
      (ok = true → used = (jobs.zip permits).length) ∧
      (ok = false → used < (jobs.zip permits).length) ∧
      if ok = true ∧ jobs.drop permits.length ≠ [] then
        (s.handleJobs permits jobs failure).fetch =
          .rejecting (permits.drop used) (jobs.drop permits.length)
      else (s.handleJobs permits jobs failure).fetch.isRejecting = false := by
  have hpairs : (s.registry.tokens ++ (jobs.zip permits).map Prod.snd).Nodup := by
    refine hfresh.sublist (List.Sublist.append_left ?_ _)
    exact zip_permits_sublist jobs permits
  have hstart := startExecutions_admitted (jobs.zip permits) failure s hpairs
  unfold WorkerRun.handleJobs
  generalize WorkerRun.startExecutions (jobs.zip permits) failure s = started at hstart ⊢
  obtain ⟨t, used, ok⟩ := started
  dsimp only at hstart ⊢
  refine ⟨used, ok, ?_, hstart.ok_iff, hstart.used_of_ok, hstart.used_of_failed, ?_⟩
  · rw [← hstart.executions]
    split
    · rfl
    split
    · rw [(registry_pause _).1]
      rfl
    · rw [(registry_fetchLoop _).1]
      rfl
  · by_cases hrefuse : ok = true ∧ jobs.drop permits.length ≠ []
    · rw [if_pos hrefuse, if_pos hrefuse]
    · rw [if_neg hrefuse, if_neg hrefuse]
      split
      · exact isRejecting_pause _
      · exact isRejecting_fetchLoop _

/-! ## Refusal -/

theorem rejectSurplusLease_attempts (job : Job) (script : List DeliveryReply) :
    1 ≤ (rejectSurplusLease job script).delivery.attempts :=
  (deliver_attempts (by decide : (0 : ℤ) < 3) script).1

/-- However a refusal ends, the executions stay, and only a delivered NACK is followed by the
next one. -/
theorem refusal_next {unused : List ℕ} {job : Job} {surplus : List Job}
    (hf : s.fetch = .rejecting unused (job :: surplus)) (ended : Except Raised Unit) :
    ∃ t, s.next (refusalStep ended) = some t ∧ t.registry = s.registry ∧ t.tasks = s.tasks ∧
      if ended = .ok () ∧ surplus ≠ [] then t.fetch = .rejecting unused surplus
      else t.fetch.isRejecting = false := by
  obtain ⟨hregistry, htasks⟩ := registry_fetchLoop (s.releaseUnused unused)
  rcases ended with (e | _) | ⟨⟩
  · refine ⟨(s.releaseUnused unused).fetchLoop, ?_, hregistry, htasks, ?_⟩
    · simp [refusalStep, WorkerRun.next, hf]
    · rw [if_neg (by simp)]
      exact isRejecting_fetchLoop _
  · refine ⟨{ s.releaseUnused unused with fetch := .done }, ?_, rfl, rfl, ?_⟩
    · simp [refusalStep, WorkerRun.next, WorkerRun.cancelFetch, hf]
    · rw [if_neg (by simp)]
      rfl
  · cases surplus with
    | nil =>
      refine ⟨(s.releaseUnused unused).fetchLoop, ?_, hregistry, htasks, ?_⟩
      · simp [refusalStep, WorkerRun.next, hf]
      · rw [if_neg (by simp)]
        exact isRejecting_fetchLoop _
    | cons next surplus =>
      refine ⟨{ s with fetch := .rejecting unused (next :: surplus) }, ?_, rfl, rfl, ?_⟩
      · simp [refusalStep, WorkerRun.next, hf]
      · rw [if_pos ⟨rfl, List.cons_ne_nil _ _⟩]

/-- No other step moves the refusals on. -/
theorem fetch_of_next {step : Step} (hstep : s.fetch.endsRefusal step = false)
    (hreturns : ∀ jobs failure, step ≠ .fetchReturns jobs failure) (hn : s.next step = some t) :
    t.fetch = s.fetch ∨ s.fetch.isRejecting = false ∧ t.fetch.isRejecting = false := by
  unfold WorkerRun.next at hn
  split at hn
  next hf => -- the loop starts
    cases hn
    exact Or.inr ⟨by rw [hf]; rfl, isRejecting_fetchLoop s⟩
  next => cases hn
  next hf => -- the loop is cancelled while it refuses nothing
    cases hn
    right
    unfold WorkerRun.cancelFetch
    cases hphase : s.fetch with
    | rejecting unused surplus => simp [FetchPhase.endsRefusal, hphase] at hstep
    | _ => exact ⟨rfl, rfl⟩
  next hf => -- a pause ends
    cases hn
    exact Or.inr ⟨by rw [hf]; rfl, isRejecting_fetchLoop s⟩
  next jobs failure _ _ _ => exact absurd rfl (hreturns jobs failure)
  next permits count hf =>
    cases hn
    exact Or.inr ⟨by rw [hf]; rfl, isRejecting_pause _⟩
  next => simp [FetchPhase.endsRefusal] at hstep
  next => simp [FetchPhase.endsRefusal] at hstep
  next => simp [FetchPhase.endsRefusal] at hstep
  next token =>
    split at hn <;> cases hn
    exact Or.inl rfl
  next token =>
    split at hn <;> cases hn
    exact Or.inl rfl
  next directive =>
    split at hn <;> cases hn
    left
    unfold WorkerRun.handleDirective
    split
    · rfl
    · split <;> rfl
    · split <;> rfl
    · rfl
  next =>
    cases hn
    exact Or.inl rfl
  next =>
    cases hn
    exact Or.inl rfl
  next =>
    split at hn <;> cases hn
    exact Or.inl rfl
  next =>
    cases hn
    exact Or.inl rfl
  next => cases hn
  next =>
    cases hn
    exact Or.inl rfl
  next =>
    split at hn <;> cases hn
    exact Or.inl rfl
  next =>
    cases hn
    exact Or.inl rfl
  next =>
    cases hn
    exact Or.inl rfl
  next active _ =>
    split at hn <;> cases hn
    exact Or.inl rfl
  next =>
    cases hn
    exact Or.inl rfl
  next => cases hn

/-! ## One step of the record -/

/-- A response whose surplus is refused from here on. -/
structure Handling.Refusing (h : Handling) (surplus : List Job) : Prop where
  started : h.started = (h.jobs.zip h.permits).map admitted
  refused : h.refused.map Prod.fst ++ surplus = h.jobs.drop h.permits.length
  sent : ∀ refusal ∈ h.refused, 1 ≤ refusal.2

structure Tracks (c : ℕ) (s : IntakeRun) : Prop where
  sound : Sound c s.worker
  refusing : ∀ unused surplus, s.worker.fetch = .rejecting unused surplus →
    surplus ≠ [] ∧ ∃ h, s.current = some h ∧ h.Refusing surplus
  idle : s.worker.fetch.isRejecting = false → s.current = none

variable {r r' : IntakeRun} {worker : WorkerRun} {current : Option Handling}

def AllAccounted (s : IntakeRun) : Prop := ∀ h ∈ s.handled, h.Accounted

theorem advance_refusing {unused : List ℕ} {surplus : List Job} {h : Handling}
    (hsound : Sound c worker) (hf : worker.fetch = .rejecting unused surplus) (hne : surplus ≠ [])
    (hrefusing : h.Refusing surplus) :
    Tracks c (r.advance (some h) worker) ∧
      (AllAccounted (r.advance (some h) worker) ↔ AllAccounted r) := by
  have hrejecting : worker.fetch.isRejecting = true := by rw [hf]; rfl
  rw [IntakeRun.advance, if_pos hrejecting]
  refine ⟨⟨hsound, ?_, fun hidle => ?_⟩, Iff.rfl⟩
  · intro unused' surplus' hf'
    rw [show worker.fetch = _ from hf'] at hf
    cases hf
    exact ⟨hne, h, rfl, hrefusing⟩
  · rw [show worker.fetch.isRejecting = false from hidle] at hrejecting
    cases hrejecting

theorem advance_done (current : Option Handling) (hsound : Sound c worker)
    (hf : worker.fetch.isRejecting = false) :
    Tracks c (r.advance current worker) ∧
      (AllAccounted (r.advance current worker) ↔
        AllAccounted r ∧ ∀ h, current = some h → h.Accounted) := by
  rw [IntakeRun.advance, if_neg (by rw [hf]; exact Bool.false_ne_true)]
  refine ⟨⟨hsound, ?_, fun _ => rfl⟩, ?_⟩
  · intro unused surplus hrejecting
    rw [show worker.fetch = _ from hrejecting] at hf
    cases hf
  · simp only [AllAccounted, List.mem_append, or_imp, forall_and, Option.mem_toList]

theorem worker_advance : (r.advance current worker).worker = worker := by
  unfold IntakeRun.advance
  split <;> rfl

/-- The end of a refusal records it, and is the end of the response unless the next refusal
follows. -/
theorem Handling.Refusing.refuse {h : Handling} {job : Job} {surplus : List Job} {attempts : ℕ}
    (hr : h.Refusing (job :: surplus)) (hattempts : 1 ≤ attempts) :
    (h.refuse job attempts).Refusing surplus := by
  refine ⟨hr.started, ?_, ?_⟩
  · change (h.refused ++ [(job, attempts)]).map Prod.fst ++ surplus = _
    rw [List.map_append, List.append_assoc]
    exact hr.refused
  · intro refusal hmem
    rcases List.mem_append.mp hmem with hold | hnew
    · exact hr.sent refusal hold
    · rw [List.mem_singleton.mp hnew]
      exact hattempts

theorem Handling.Refusing.accounted_iff {h : Handling} {surplus : List Job}
    (hr : h.Refusing surplus) : h.Accounted ↔ surplus = [] := by
  constructor
  · intro ha
    have hrefused := hr.refused
    rw [← ha.refused] at hrefused
    exact List.append_right_eq_self.mp hrefused
  · rintro rfl
    exact ⟨hr.started, by rw [← hr.refused, List.append_nil], hr.sent⟩

theorem refusalEnds_spec {script : List DeliveryReply} (h : Tracks c r)
    (hn : r.next (.refusalEnds script) = some r') :
    Tracks c r' ∧ (AllAccounted r' ↔ AllAccounted r ∧ GoesOn r (.refusalEnds script)) ∧
      r'.worker.registry = r.worker.registry ∧ r'.worker.tasks = r.worker.tasks := by
  unfold IntakeRun.next at hn
  dsimp only at hn
  split at hn
  next unused job surplus hf =>
    obtain ⟨_, current, hcurrent, hrefusing⟩ := h.refusing _ _ hf
    split at hn
    next => cases hn
    next ended hended =>
      obtain ⟨t, ht, hregistry, htasks, hphase⟩ := refusal_next hf ended
      have hsound : Sound c t := h.sound.next ht
      have hrefused := hrefusing.refuse (rejectSurplusLease_attempts job script)
      have hgoes : GoesOn r (.refusalEnds script) ↔
          (surplus ≠ [] → ∀ raised, ended ≠ .error raised) := by
        simp only [GoesOn, hf, ne_eq, FetchPhase.rejecting.injEq, List.cons.injEq]
        constructor
        · exact fun hall hne => by simpa [hended] using hall unused job surplus ⟨rfl, rfl, rfl⟩ hne
        · rintro hall _ _ _ ⟨rfl, rfl, rfl⟩ hne
          simpa [hended] using hall hne
      rw [ht, hcurrent] at hn
      cases hn
      by_cases hon : ended = .ok () ∧ surplus ≠ []
      · rw [if_pos hon] at hphase
        obtain ⟨htracks, hall⟩ := advance_refusing (r := r) hsound hphase hon.2 hrefused
        refine ⟨htracks, ?_, ?_⟩
        · rw [hgoes, hon.1]
          simpa using hall
        · rw [worker_advance]
          exact ⟨hregistry, htasks⟩
      · rw [if_neg hon] at hphase
        obtain ⟨htracks, hall⟩ := advance_done (r := r)
          (some (current.refuse job _)) hsound hphase
        refine ⟨htracks, ?_, ?_⟩
        · simp only [Option.some.injEq, forall_eq'] at hall
          refine hall.trans ?_
          rw [hgoes, hrefused.accounted_iff]
          refine and_congr_right fun _ => ⟨fun hnil hne => absurd hnil hne, fun hraises => ?_⟩
          by_contra hne
          cases ended with
          | error raised => exact hraises hne raised rfl
          | ok done => exact hon ⟨rfl, hne⟩
        · rw [worker_advance]
          exact ⟨hregistry, htasks⟩
  next => cases hn

/-- A response with a fetch's permits: the jobs admitted, and the surplus if every start went
well. -/
theorem response_spec {jobs : List Job} {failure : Option StartFailure} (h : Tracks c r)
    (ht : r.worker.next (.fetchReturns jobs failure) = some t) :
    let r' := r.advance
      ((IntakeRun.received r.worker t (.fetchReturns jobs failure)).or r.current) t
    Tracks c r' ∧
      (AllAccounted r' ↔ AllAccounted r ∧ GoesOn r (.worker (.fetchReturns jobs failure))) := by
  have hsound : Sound c t := h.sound.next ht
  cases hf : r.worker.fetch with
  | fetching permits count =>
    have hpermits : (r.worker.registry.tokens ++ permits).Nodup := by
      have howned := h.sound.owned
      rw [hf] at howned
      exact (howned.trans List.perm_append_comm).nodup_iff.mp h.sound.valid.permits_nodup
    have hnext : t = r.worker.handleJobs permits jobs failure := by
      simpa [WorkerRun.next, hf] using ht.symm
    obtain ⟨used, ok, hexecutions, hok, hall, hsome, hphase⟩ :=
      handleJobs_admits jobs failure hpermits
    rw [← hnext] at hexecutions hphase
    have hreceived : IntakeRun.received r.worker t (.fetchReturns jobs failure) =
        some ⟨permits, jobs, ((jobs.zip permits).take used).map admitted, []⟩ := by
      simp only [IntakeRun.received, hf, hexecutions, List.drop_left]
    have hgoes : GoesOn r (.worker (.fetchReturns jobs failure)) ↔ ok = true := by
      rw [hok]
      cases failure with
      | none => simp [GoesOn, AllStart]
      | some f => simp [GoesOn, AllStart, hf]
    dsimp only
    rw [hreceived, Option.some_or, hgoes]
    by_cases hrefuse : ok = true ∧ jobs.drop permits.length ≠ []
    · rw [if_pos hrefuse] at hphase
      have hrefusing : Handling.Refusing ⟨permits, jobs,
          ((jobs.zip permits).take used).map admitted, []⟩ (jobs.drop permits.length) := by
        refine ⟨?_, rfl, fun refusal hmem => by cases hmem⟩
        rw [hall hrefuse.1, List.take_length]
      obtain ⟨htracks, haccounted⟩ := advance_refusing (r := r) hsound hphase hrefuse.2 hrefusing
      exact ⟨htracks, haccounted.trans (and_iff_left hrefuse.1).symm⟩
    · rw [if_neg hrefuse] at hphase
      obtain ⟨htracks, haccounted⟩ := advance_done (r := r) (some _) hsound hphase
      refine ⟨htracks, haccounted.trans (and_congr_right fun _ => ?_)⟩
      simp only [Option.some.injEq, forall_eq']
      constructor
      · intro haccounted
        by_contra hfailed
        have hused := hsome (Bool.not_eq_true _ ▸ hfailed)
        have hlength := congrArg List.length haccounted.started
        simp only [List.length_map, List.length_take] at hlength
        omega
      · intro hstarted
        have hsurplus : jobs.drop permits.length = [] := by
          by_contra hne
          exact hrefuse ⟨hstarted, hne⟩
        refine ⟨?_, hsurplus.symm, fun refusal hmem => by cases hmem⟩
        rw [hall hstarted, List.take_length]
  | _ => simp [WorkerRun.next, hf] at ht

theorem workerStep_spec {step : Step} (h : Tracks c r) (hn : r.next (.worker step) = some r') :
    Tracks c r' ∧ (AllAccounted r' ↔ AllAccounted r ∧ GoesOn r (.worker step)) := by
  unfold IntakeRun.next at hn
  dsimp only at hn
  split at hn
  next => cases hn
  next hstep =>
    rw [Bool.not_eq_true] at hstep
    cases ht : r.worker.next step with
    | none =>
      rw [ht] at hn
      cases hn
    | some t =>
      rw [ht] at hn
      cases hn
      have hsound : Sound c t := h.sound.next ht
      by_cases hreturns : ∃ jobs failure, step = .fetchReturns jobs failure
      · obtain ⟨jobs, failure, rfl⟩ := hreturns
        exact response_spec h ht
      · have hother : ∀ jobs failure, step ≠ .fetchReturns jobs failure :=
          fun jobs failure he => hreturns ⟨jobs, failure, he⟩
        have hreceived : IntakeRun.received r.worker t step = none := by
          unfold IntakeRun.received
          split
          next jobs failure => exact absurd rfl (hother jobs failure)
          next => rfl
        have hgoes : GoesOn r (.worker step) := by
          unfold GoesOn
          split
          next he => cases he
          next jobs failure he =>
            cases he
            exact absurd rfl (hother _ _)
          next => trivial
        rw [hreceived, Option.none_or, and_iff_left hgoes]
        rcases fetch_of_next hstep hother ht with hsame | ⟨hbefore, hafter⟩
        · by_cases hrejecting : r.worker.fetch.isRejecting = true
          · unfold FetchPhase.isRejecting at hrejecting
            split at hrejecting
            next unused surplus hf =>
              obtain ⟨hne, current, hcurrent, hrefusing⟩ := h.refusing _ _ hf
              rw [hcurrent]
              exact advance_refusing hsound (hsame.trans hf) hne hrefusing
            next => cases hrejecting
          · rw [Bool.not_eq_true] at hrejecting
            rw [h.idle hrejecting]
            have hdone := advance_done (r := r) none hsound (hsame ▸ hrejecting)
            simpa using hdone
        · rw [h.idle hbefore]
          have hdone := advance_done (r := r) none hsound hafter
          simpa using hdone

/-! ## Runs -/

theorem Tracks.next {step : IntakeStep} (h : Tracks c r) (hn : r.next step = some r') :
    Tracks c r' := by
  cases step with
  | refusalEnds script => exact (refusalEnds_spec h hn).1
  | worker step => exact (workerStep_spec h hn).1

theorem allAccounted_next_iff {step : IntakeStep} (h : Tracks c r) (hn : r.next step = some r') :
    AllAccounted r' ↔ AllAccounted r ∧ GoesOn r step := by
  cases step with
  | refusalEnds script => exact (refusalEnds_spec h hn).2.1
  | worker step => exact (workerStep_spec h hn).2

/-- A step that cannot be taken forgets nothing. -/
theorem goesOn_of_next_none {step : IntakeStep} (hn : r.next step = none) : GoesOn r step := by
  cases step with
  | refusalEnds script =>
    intro unused job surplus hf _ raised hraised
    obtain ⟨t, ht, _⟩ := refusal_next hf (.error raised)
    simp [IntakeRun.next, hf, hraised, ht] at hn
  | worker step =>
    unfold GoesOn
    split
    next he => cases he
    next jobs failure he =>
      cases he
      intro permits count hf
      simp [IntakeRun.next, FetchPhase.endsRefusal, WorkerRun.next, hf] at hn
    next => trivial

theorem Tracks.new {concurrency : ℤ} (h : WorkerRun.new concurrency = .ok s) :
    Tracks concurrency.toNat { worker := s } := by
  have hsound := Sound.new h
  have hfetch : s.fetch = .notStarted := by
    obtain ⟨admission, _, hs⟩ := ExceptRules.bind_eq_ok.mp h
    cases hs
    rfl
  refine ⟨hsound, ?_, fun _ => rfl⟩
  intro unused surplus hf
  rw [show s.fetch = _ from hf] at hfetch
  cases hfetch

/-- In a run of a worker every job of every response is started or refused exactly when no
refusal raises while others are to follow, and no start of an execution fails. -/
theorem leases_accounted_iff {concurrency : ℤ} {start : WorkerRun}
    (h : WorkerRun.new concurrency = .ok start) (steps : List IntakeStep) :
    NoneForgotten { worker := start } steps ↔
      Along GoesOn IntakeRun.next { worker := start } steps := by
  have htracks := Tracks.new h
  have hall : AllAccounted (run IntakeRun.next { worker := start } steps) ↔
      Along GoesOn IntakeRun.next { worker := start } steps := by
    have hempty : AllAccounted { worker := start } := fun handling hmem => by cases hmem
    rw [run_iff_along (Tracks concurrency.toNat) (fun _ _ _ ht hn => ht.next hn)
      (fun _ _ _ ht hn => allAccounted_next_iff ht hn) (fun _ _ _ hn => goesOn_of_next_none hn)
      htracks steps, and_iff_right hempty]
  refine ⟨fun hkept => hall.mp hkept.accounted, fun halong => ⟨hall.mpr halong, ?_⟩⟩
  intro before script _
  have hbefore : Tracks concurrency.toNat (run IntakeRun.next { worker := start } before) :=
    run_invariant (Tracks concurrency.toNat) htracks fun _ _ _ _ ht hn => ht.next hn
  rw [run_append, run_cons, run_nil, apply]
  cases hn : (run IntakeRun.next { worker := start } before).next (.refusalEnds script) with
  | none => exact ⟨rfl, rfl⟩
  | some t => exact (refusalEnds_spec hbefore hn).2.2

/-! ## A response of three jobs to a fetch for one -/

def singlePermit : WorkerRun := { admission := ⟨1, 1, [], 0, [], false⟩ }

def leasedJob (id : String) : Job := { id, type := "test.echo", state := .active }

def delivered : DeliveryReply := ⟨.ok (), .ok ()⟩

/-- The connection is lost, as it is at each of the three attempts. -/
def lost : DeliveryReply := ⟨.error (.exception (.connection "connection lost")), .ok ()⟩

def oversized (first : List DeliveryReply) : List IntakeStep := [
  .worker .fetchStarts,
  .worker (.fetchReturns [leasedJob "job-0", leasedJob "job-1", leasedJob "job-2"] none),
  .refusalEnds first,
  .refusalEnds [lost, lost, lost]]

theorem delivered_refusal_accounted :
    NoneForgotten { worker := singlePermit } (oversized [delivered]) := by
  refine (@leases_accounted_iff 1 singlePermit rfl (oversized [delivered])).mpr
    ⟨trivial, trivial, ?_, ?_, trivial⟩
  · intro unused job surplus _ _ raised hraised
    cases hraised
  · intro unused job surplus hf hne
    cases hf
    exact absurd rfl hne

theorem lost_refusal_forgets :
    ¬ NoneForgotten { worker := singlePermit } (oversized [lost, lost, lost]) := by
  intro h
  have hhandled :
      (run IntakeRun.next { worker := singlePermit } (oversized [lost, lost, lost])).handled =
      [⟨[0], [leasedJob "job-0", leasedJob "job-1", leasedJob "job-2"], [⟨0, "job-0"⟩],
        [(leasedJob "job-1", 3)]⟩] := rfl
  have haccounted := h.accounted
  rw [hhandled] at haccounted
  have hrefused := (haccounted _ List.mem_cons_self).refused
  cases hrefused

end OpenJobSpec.Worker
