import OpenJobSpec.Worker.Runtime

/-! # Conservation of permits over a run

Every permit that was issued and not yet released belongs to the fetch in flight
or to one registered execution. The steps move permits between the two owners
and back to the semaphore, and the coordinator drains only after the fetch loop
has ended, so nothing is registered while it drains.
-/
namespace OpenJobSpec.Worker
open Runs LeaseAdmission

def FetchPhase.held : FetchPhase → List ℕ
  | .reserving held => held
  | .fetching permits _ => permits
  | .rejecting unused _ => unused
  | .notStarted | .pausing | .done => []

/-- The coordinator drains the executions, or has drained them. -/
def CoordinatorPhase.isDraining : CoordinatorPhase → Bool
  | .draining _ | .gatheringTasks _ | .waitingEmpty _ | .ended => true
  | .running | .gathering | .cancelledInCleanup => false

/-- The coordinator has seen the registry's event while draining. -/
def CoordinatorPhase.sawEmpty : CoordinatorPhase → Bool
  | .draining seen | .waitingEmpty seen => seen
  | .ended => true
  | .running | .gathering | .gatheringTasks _ | .cancelledInCleanup => false

/-- What every step keeps. -/
structure Sound (c : ℕ) (s : WorkerRun) : Prop where
  valid : s.admission.Valid
  capacity : s.admission.capacity = c
  owned : s.admission.permits.Perm (s.fetch.held ++ s.registry.tokens)
  event : s.registry.EventAgrees
  asks : ∀ permits count, s.fetch = .fetching permits count → count = permits.length
  never_waits : ∀ held, s.fetch ≠ .reserving held
  fetch_done : s.coordinator.isDraining = true → s.fetch = .done
  drained : s.coordinator.sawEmpty = true → s.registry.executions = []

/-- The fetch loop is on its way to its next wait, with these permits in its hands. -/
structure Holding (c : ℕ) (held : List ℕ) (s : WorkerRun) : Prop where
  valid : s.admission.Valid
  capacity : s.admission.capacity = c
  owned : s.admission.permits.Perm (held ++ s.registry.tokens)
  event : s.registry.EventAgrees
  not_draining : s.coordinator.isDraining = false

variable {c : ℕ} {held : List ℕ} {s t : WorkerRun}

theorem sawEmpty_of_not_draining {phase : CoordinatorPhase} (h : phase.isDraining = false) :
    phase.sawEmpty = false := by
  cases phase <;> first | rfl | cases h

theorem Sound.not_draining (h : Sound c s) (hf : s.fetch ≠ .done) :
    s.coordinator.isDraining = false := by
  rw [← Bool.not_eq_true]
  exact fun hd => hf (h.fetch_done hd)

theorem Sound.holding (h : Sound c s) (hf : s.fetch ≠ .done) : Holding c s.fetch.held s :=
  ⟨h.valid, h.capacity, h.owned, h.event, h.not_draining hf⟩

theorem Holding.waits (h : Holding c held s) {phase : FetchPhase} (hheld : phase.held = held)
    (hasks : ∀ permits count, phase = .fetching permits count → count = permits.length)
    (hwaits : ∀ held, phase ≠ .reserving held) : Sound c { s with fetch := phase } := by
  refine ⟨h.valid, h.capacity, ?_, h.event, hasks, hwaits, ?_, ?_⟩
  · rw [hheld]
    exact h.owned
  · intro hd
    rw [h.not_draining] at hd
    cases hd
  · intro hs
    rw [sawEmpty_of_not_draining h.not_draining] at hs
    cases hs

theorem Holding.releaseUnused (h : Holding c held s) : Holding c [] (s.releaseUnused held) := by
  obtain ⟨hvalid, howned, hcapacity⟩ := releaseAll_valid h.valid h.owned
  exact ⟨hvalid, hcapacity.trans h.capacity, howned, h.event, h.not_draining⟩

theorem Holding.fetchLoop (h : Holding c [] s) : Sound c s.fetchLoop := by
  unfold WorkerRun.fetchLoop
  split
  · exact h.waits rfl (by simp) (by simp)
  split
  · exact h.waits rfl (by simp) (by simp)
  obtain ⟨b, fresh, hrun, hvalid, hpermits, _, hcap⟩ := reserveAvailable_reserved h.valid
  rw [hrun]
  have hreserved : Holding c fresh { s with admission := b } := by
    refine ⟨hvalid, hcap.trans h.capacity, ?_, h.event, h.not_draining⟩
    simp only [hpermits]
    exact List.perm_append_comm.trans (h.owned.append_left fresh)
  cases fresh with
  | nil => exact hreserved.waits rfl (by simp) (by simp)
  | cons permit rest =>
    refine hreserved.waits rfl ?_ (by simp)
    intro permits count hphase
    cases hphase
    rfl

theorem Holding.pause (h : Holding c [] s) : Sound c s.pause := by
  unfold WorkerRun.pause
  split
  · exact h.fetchLoop
  · exact h.waits rfl (by simp) (by simp)

/-! ## Starting executions -/

structure Started (pairs : List (Job × ℕ)) (s t : WorkerRun) (used : ℕ) : Prop where
  admission : t.admission = s.admission
  coordinator : t.coordinator = s.coordinator
  tokens : t.registry.tokens = s.registry.tokens ++ (pairs.take used).map Prod.snd
  event : s.registry.EventAgrees → t.registry.EventAgrees
  used_le : used ≤ pairs.length

theorem Started.none (pairs : List (Job × ℕ)) (ha : t.admission = s.admission)
    (hc : t.coordinator = s.coordinator) (hr : t.registry = s.registry) :
    Started pairs s t 0 := by
  refine ⟨ha, hc, ?_, ?_, Nat.zero_le _⟩
  · rw [hr, List.take_zero, List.map_nil, List.append_nil]
  · rw [hr]
    exact id

theorem Started.cons {rest : List (Job × ℕ)} {u : WorkerRun} {used permit : ℕ} {job : Job}
    {registry : ExecutionRegistry}
    (hreg : s.registry.register ⟨permit, job.id⟩ = some registry)
    (ht : t.admission = s.admission ∧ t.coordinator = s.coordinator ∧ t.registry = registry)
    (h : Started rest t u used) : Started ((job, permit) :: rest) s u (used + 1) := by
  obtain ⟨htokens, hevent⟩ := ExecutionRegistry.register_eq_some hreg
  obtain ⟨ha, hc, hr⟩ := ht
  refine ⟨h.admission.trans ha, h.coordinator.trans hc, ?_, ?_, Nat.succ_le_succ h.used_le⟩
  · rw [h.tokens, hr, htokens]
    simp
  · intro _
    exact h.event (hr ▸ hevent)

theorem startExecution_failed {job : Job} {permit : ℕ}
    (h : s.startExecution job permit = (t, false)) :
    t.admission = s.admission ∧ t.coordinator = s.coordinator ∧ t.registry = s.registry := by
  unfold WorkerRun.startExecution at h
  cases hreg : s.registry.register ⟨permit, job.id⟩ with
  | none =>
    simp only [hreg, Prod.mk.injEq, and_true] at h
    subst h
    exact ⟨rfl, rfl, rfl⟩
  | some registry => simp [hreg] at h

theorem startExecution_registered {job : Job} {permit : ℕ}
    (h : s.startExecution job permit = (t, true)) :
    ∃ registry, s.registry.register ⟨permit, job.id⟩ = some registry ∧
      t.admission = s.admission ∧ t.coordinator = s.coordinator ∧ t.registry = registry := by
  unfold WorkerRun.startExecution at h
  cases hreg : s.registry.register ⟨permit, job.id⟩ with
  | none => simp [hreg] at h
  | some registry =>
    simp only [hreg, Prod.mk.injEq, and_true] at h
    subst h
    exact ⟨registry, rfl, rfl, rfl, rfl⟩

theorem startExecutions_started (pairs : List (Job × ℕ)) (failure : Option StartFailure)
    (s : WorkerRun) :
    Started pairs s (WorkerRun.startExecutions pairs failure s).1
      (WorkerRun.startExecutions pairs failure s).2.1 := by
  fun_induction WorkerRun.startExecutions pairs failure s with
  | case1 failure s => exact Started.none [] rfl rfl rfl
  | case2 job permit rest taskCreated s =>
    cases taskCreated <;> exact Started.none _ rfl rfl rfl
  | case3 job permit rest failure s _ t hfailed =>
    obtain ⟨ha, hc, hr⟩ := startExecution_failed hfailed
    exact Started.none _ ha hc hr
  | case4 job permit rest failure s _ t hstart u used ok hrun ih =>
    obtain ⟨registry, hreg, ht⟩ := startExecution_registered hstart
    rw [hrun] at ih
    exact Started.cons hreg ht ih

theorem Started.used_permits {jobs : List Job} {permits : List ℕ} {used : ℕ}
    (h : Started (jobs.zip permits) s t used) :
    ((jobs.zip permits).take used).map Prod.snd = permits.take used := by
  have hlen := h.used_le
  rw [List.length_zip] at hlen
  rw [List.zip, List.take_zipWith, ← List.zip, List.map_snd_zip]
  simp only [List.length_take]
  omega

theorem Started.holding {jobs : List Job} {permits : List ℕ} {used : ℕ}
    (h : Started (jobs.zip permits) s t used) (hs : Holding c permits s) :
    Holding c (permits.drop used) t := by
  refine ⟨h.admission ▸ hs.valid, ?_, ?_, h.event hs.event, ?_⟩
  · rw [h.admission, hs.capacity]
  · rw [h.admission, h.tokens, h.used_permits]
    refine hs.owned.trans ?_
    have hcomm : (permits.drop used ++ (s.registry.tokens ++ permits.take used)).Perm
        (permits.take used ++ permits.drop used ++ s.registry.tokens) := by
      rw [← List.append_assoc, List.append_assoc (permits.take used)]
      exact List.perm_append_comm
    rw [List.take_append_drop] at hcomm
    exact hcomm.symm
  · rw [h.coordinator, hs.not_draining]

/-! ## The steps -/

theorem Sound.handleJobs (h : Sound c s) {permits : List ℕ} {count : ℕ}
    (hf : s.fetch = .fetching permits count) (jobs : List Job) (failure : Option StartFailure) :
    Sound c (s.handleJobs permits jobs failure) := by
  have hs : Holding c permits s := by
    have hheld := h.holding (by simp [hf])
    rwa [hf] at hheld
  have hstarted := startExecutions_started (jobs.zip permits) failure s
  unfold WorkerRun.handleJobs
  generalize WorkerRun.startExecutions (jobs.zip permits) failure s = result at hstarted
  obtain ⟨t, used, ok⟩ := result
  have ht : Holding c (permits.drop used) t := hstarted.holding hs
  dsimp only
  split
  · exact ht.waits rfl (by simp) (by simp)
  split
  · exact ht.releaseUnused.pause
  · exact ht.releaseUnused.fetchLoop

theorem Holding.ends (h : Holding c [] s) : Sound c { s with fetch := .done } :=
  h.waits rfl (by simp) (by simp)

theorem Sound.cancelFetch (h : Sound c s) (hf : s.fetch ≠ .done) : Sound c s.cancelFetch := by
  have hs := h.holding hf
  unfold WorkerRun.cancelFetch
  cases hphase : s.fetch with
  | reserving held => exact absurd hphase (h.never_waits held)
  | fetching permits count => exact (hphase ▸ hs).releaseUnused.ends
  | rejecting unused surplus => exact (hphase ▸ hs).releaseUnused.ends
  | notStarted => exact (hphase ▸ hs).ends
  | pausing => exact (hphase ▸ hs).ends
  | done => exact absurd hphase hf

theorem isDraining_endTask (token : ℕ) :
    (s.endTask token).coordinator.isDraining = s.coordinator.isDraining := by
  unfold WorkerRun.endTask
  cases s.coordinator <;> rfl

theorem sawEmpty_endTask (token : ℕ) (h : (s.endTask token).coordinator.sawEmpty = true) :
    s.coordinator.sawEmpty = true ∨ (s.endTask token).registry.empty = true := by
  unfold WorkerRun.endTask at h ⊢
  cases hphase : s.coordinator with
  | draining before => simpa [hphase, CoordinatorPhase.sawEmpty] using h
  | waitingEmpty before => simpa [hphase, CoordinatorPhase.sawEmpty] using h
  | running => simp [hphase, CoordinatorPhase.sawEmpty] at h
  | gathering => simp [hphase, CoordinatorPhase.sawEmpty] at h
  | gatheringTasks active => simp [hphase, CoordinatorPhase.sawEmpty] at h
  | ended => exact Or.inl rfl
  | cancelledInCleanup => simp [hphase, CoordinatorPhase.sawEmpty] at h

theorem executions_nil_iff {r : ExecutionRegistry} : r.executions = [] ↔ r.tokens = [] :=
  List.map_eq_nil_iff.symm

theorem Sound.endTask (h : Sound c s) (token : ℕ) : Sound c (s.endTask token) := by
  obtain ⟨hvalid, hevent, howned, hcap, hsub⟩ :=
    ExecutionRegistry.complete_valid token h.valid h.event h.owned
  refine ⟨hvalid, hcap.trans h.capacity, howned, hevent, h.asks, h.never_waits, ?_, ?_⟩
  · rw [isDraining_endTask]
    exact h.fetch_done
  · intro hsaw
    rcases sawEmpty_endTask token hsaw with hbefore | hempty
    · have hnone := executions_nil_iff.mp (h.drained hbefore)
      rw [hnone] at hsub
      exact executions_nil_iff.mpr (List.subset_nil.mp hsub)
    · exact hevent.mp hempty

theorem Sound.coordinate (h : Sound c s) {phase : CoordinatorPhase} {shutdown : Bool}
    (hdone : phase.isDraining = true → s.fetch = .done)
    (hdrained : phase.sawEmpty = true → s.registry.executions = []) :
    Sound c { s with shutdown, coordinator := phase } :=
  ⟨h.valid, h.capacity, h.owned, h.event, h.asks, h.never_waits, hdone, hdrained⟩

/-- A coordinator that drains goes on to its next phase. -/
theorem Sound.drains (h : Sound c s) {phase : CoordinatorPhase}
    (hd : s.coordinator.isDraining = true)
    (hdrained : phase.sawEmpty = true → s.registry.executions = []) :
    Sound c { s with coordinator := phase } :=
  h.coordinate (fun _ => h.fetch_done hd) hdrained

theorem Sound.of_same (h : Sound c s) (ha : t.admission = s.admission)
    (hr : t.registry = s.registry) (hf : t.fetch = s.fetch)
    (hc : t.coordinator = s.coordinator) : Sound c t := by
  obtain ⟨hvalid, hcapacity, howned, hevent, hasks, hwaits, hdone, hdrained⟩ := h
  constructor <;> simp only [ha, hr, hf, hc] <;> assumption

theorem Sound.handleDirective (h : Sound c s) (directive : Directive) :
    Sound c (s.handleDirective directive) := by
  cases directive <;> unfold WorkerRun.handleDirective <;> dsimp only
  · split <;> exact h.of_same rfl rfl rfl rfl
  · split <;> exact h.of_same rfl rfl rfl rfl
  · exact h.of_same rfl rfl rfl rfl
  · exact h

theorem Sound.fetchLoop (h : Sound c s) (hheld : s.fetch.held = []) (hf : s.fetch ≠ .done) :
    Sound c s.fetchLoop :=
  (hheld ▸ h.holding hf).fetchLoop

theorem Sound.released (h : Sound c s) {unused : List ℕ} (hheld : s.fetch.held = unused)
    (hf : s.fetch ≠ .done) : Holding c [] (s.releaseUnused unused) :=
  (hheld ▸ h.holding hf).releaseUnused

/-- What one step keeps: the fetch loop's steps first, then the tasks', the heartbeat's and
the coordinator's. -/
theorem Sound.next {step : Step} (h : Sound c s) (hn : s.next step = some t) : Sound c t := by
  unfold WorkerRun.next at hn
  split at hn
  next hf =>
    cases hn
    exact h.fetchLoop (by rw [hf]; rfl) (by simp [hf])
  next => cases hn
  next hf =>
    cases hn
    exact h.cancelFetch hf
  next hf =>
    cases hn
    exact h.fetchLoop (by rw [hf]; rfl) (by simp [hf])
  next jobs failure permits count hf =>
    cases hn
    exact h.handleJobs hf jobs failure
  next permits count hf =>
    cases hn
    exact (h.released (by rw [hf]; rfl) (by simp [hf])).pause
  next unused first job surplus hf =>
    cases hn
    exact (h.holding (by simp [hf])).waits (by rw [hf]; rfl) (by simp) (by simp)
  next unused surplus _ hf =>
    cases hn
    exact (h.released (by rw [hf]; rfl) (by simp [hf])).fetchLoop
  next unused surplus hf =>
    cases hn
    exact (h.released (by rw [hf]; rfl) (by simp [hf])).fetchLoop
  next token =>
    split at hn
    · cases hn
      exact h.endTask token
    · cases hn
  next token =>
    split at hn
    · cases hn
      exact h.of_same rfl rfl rfl rfl
    · cases hn
  next directive =>
    split at hn
    · cases hn
    · cases hn
      exact h.handleDirective directive
  next =>
    cases hn
    exact h.of_same rfl rfl rfl rfl
  next =>
    cases hn
    exact h.of_same rfl rfl rfl rfl
  next =>
    split at hn
    · cases hn
      exact h.coordinate (by simp [CoordinatorPhase.isDraining])
        (by simp [CoordinatorPhase.sawEmpty])
    · cases hn
  next =>
    cases hn
    exact h.coordinate (by simp [CoordinatorPhase.isDraining]) (by simp [CoordinatorPhase.sawEmpty])
  next => cases hn
  next =>
    cases hn
    exact h.coordinate (by simp [CoordinatorPhase.isDraining]) (by simp [CoordinatorPhase.sawEmpty])
  next hf _ =>
    split at hn
    · cases hn
      exact h.coordinate (fun _ => hf) h.event.mp
    · cases hn
  next hc =>
    cases hn
    exact h.drains (by rw [hc]; rfl) fun _ => h.drained (by rw [hc]; rfl)
  next seen hc =>
    cases hn
    exact h.drains (by rw [hc]; rfl) (by simp [CoordinatorPhase.sawEmpty])
  next active hc =>
    split at hn
    · cases hn
      exact h.drains (by rw [hc]; rfl) h.event.mp
    · cases hn
  next hc =>
    cases hn
    exact h.drains (by rw [hc]; rfl) fun _ => h.drained (by rw [hc]; rfl)
  next => cases hn

theorem handleDirective_kept (directive : Directive) :
    (s.handleDirective directive).fetch = s.fetch ∧
      (s.handleDirective directive).registered = s.registered := by
  cases directive <;> unfold WorkerRun.handleDirective <;> dsimp only
  · split <;> exact ⟨rfl, rfl⟩
  · split <;> exact ⟨rfl, rfl⟩
  · exact ⟨rfl, rfl⟩
  · exact ⟨rfl, rfl⟩

def FetchEnded (registered : List ℕ) (s : WorkerRun) : Prop :=
  s.fetch = .done ∧ s.registered = registered

theorem FetchEnded.next {step : Step} {registered : List ℕ} (h : FetchEnded registered s)
    (hn : s.next step = some t) : FetchEnded registered t := by
  obtain ⟨hf, hr⟩ := h
  unfold WorkerRun.next at hn
  split at hn
  case h_12 directive =>
    split at hn
    · cases hn
    · cases hn
      exact ⟨(handleDirective_kept directive).1.trans hf,
        (handleDirective_kept directive).2.trans hr⟩
  -- the other steps leave both as they are, or are the fetch loop's, which has none left
  all_goals try split at hn
  all_goals cases hn
  all_goals first | exact ⟨hf, hr⟩ | simp_all


/-! ## Whole runs -/

theorem Sound.new {concurrency : ℤ} (h : WorkerRun.new concurrency = .ok s) :
    Sound concurrency.toNat s := by
  unfold WorkerRun.new at h
  cases ha : LeaseAdmission.new concurrency with
  | error e =>
    rw [ha] at h
    cases h
  | ok admission =>
    rw [ha] at h
    cases h
    obtain ⟨hvalid, hpermits, hcapacity⟩ := Valid.new ha
    refine ⟨hvalid, hcapacity, ?_, by simp [ExecutionRegistry.EventAgrees], by simp, by simp,
      ?_, ?_⟩
    · simp [hpermits, FetchPhase.held, ExecutionRegistry.tokens]
    · intro hd
      cases hd
    · intro hs
      cases hs

theorem Sound.run (h : Sound c s) (steps : List Step) : Sound c (run WorkerRun.next s steps) :=
  run_invariant (Sound c) h fun _ _ _ _ hs hn => hs.next hn

/-- Nothing is registered once the coordinator drains. -/
theorem Sound.registered_of_draining (h : Sound c s) (hd : s.coordinator.isDraining = true)
    (steps : List Step) : (Runs.run WorkerRun.next s steps).registered = s.registered :=
  (run_invariant (FetchEnded s.registered) ⟨h.fetch_done hd, rfl⟩
    fun _ _ _ _ hs hn => hs.next hn).2

structure Conserved (c : ℕ) (s : WorkerRun) : Prop where
  conserved : s.admission.semaphore + s.admission.permits.length = c
  owned : s.admission.permits.Perm (s.fetch.held ++ s.registry.tokens)
  owned_once : (s.fetch.held ++ s.registry.tokens).Nodup
  released_once : (s.admission.released ++ s.admission.permits).Perm
    (List.range s.admission.issued)
  never_over : s.admission.overReleased = false
  bounded : s.registry.executions.length ≤ c
  asks : ∀ permits count, s.fetch = .fetching permits count → count = permits.length
  never_waits : ∀ held, s.fetch ≠ .reserving held
  never_would_wait : ∃ admission permits, s.admission.reserveAvailable = .reserved admission permits
  event : s.registry.empty = true ↔ s.registry.executions = []
  drained : s.coordinator = .ended → s.registry.executions = [] ∧ s.admission.semaphore = c

theorem Sound.conserved (h : Sound c s) : Conserved c s := by
  have hsum : s.admission.semaphore + s.admission.permits.length = c :=
    h.valid.conserved.trans h.capacity
  have hlen : s.admission.permits.length =
      s.fetch.held.length + s.registry.executions.length := by
    rw [h.owned.length_eq, List.length_append, ExecutionRegistry.tokens, List.length_map]
  obtain ⟨b, fresh, hreserved, _⟩ := reserveAvailable_reserved h.valid
  refine ⟨hsum, h.owned, h.owned.nodup_iff.mp h.valid.permits_nodup, h.valid.once,
    h.valid.bounded, by omega, h.asks, h.never_waits, ⟨b, fresh, hreserved⟩, h.event, ?_⟩
  intro hended
  have hnone : s.registry.executions = [] := h.drained (by rw [hended]; rfl)
  have hdone : s.fetch = .done := h.fetch_done (by rw [hended]; rfl)
  rw [hdone, hnone] at hlen
  simp only [FetchPhase.held, List.length_nil] at hlen
  exact ⟨hnone, by omega⟩

/-- In every interleaving of one run the permits are conserved, and from the moment the
coordinator drains no execution is registered. -/
theorem permits_conserved {concurrency : ℤ} {start : WorkerRun}
    (h : WorkerRun.new concurrency = .ok start) (steps : List Step) :
    Conserved concurrency.toNat (Runs.run WorkerRun.next start steps) ∧
      ∀ before after, steps = before ++ after →
        (Runs.run WorkerRun.next start before).coordinator.isDraining = true →
        (Runs.run WorkerRun.next start steps).registered =
          (Runs.run WorkerRun.next start before).registered := by
  have hstart := Sound.new h
  refine ⟨(hstart.run steps).conserved, ?_⟩
  intro before after hsplit hd
  rw [hsplit, run_append]
  exact (hstart.run before).registered_of_draining hd after

def drainedRun : List Step :=
  let job := fun id : String => ({ id, type := "t", state := .active } : Job)
  [.fetchStarts, .fetchReturns [job "a", job "b", job "c"] none, .nackReturns, .stop, .pauseEnds,
    .loopEnds, .heartbeatEnds, .loopsGathered, .taskEnds 1, .taskEnds 0, .drained]

theorem permits_conserved_drained :
    ∃ start, WorkerRun.new 2 = .ok start ∧
      (Runs.run WorkerRun.next start drainedRun).coordinator = .ended ∧
      Conserved 2 (Runs.run WorkerRun.next start drainedRun) ∧
      (Runs.run WorkerRun.next start drainedRun).registered =
        (Runs.run WorkerRun.next start (drainedRun.take 8)).registered := by
  have hstart : WorkerRun.new 2 = .ok { admission := ⟨2, 2, [], 0, [], false⟩ } := rfl
  obtain ⟨hconserved, hquiet⟩ := permits_conserved hstart drainedRun
  exact ⟨_, hstart, rfl, hconserved, hquiet (drainedRun.take 8) (drainedRun.drop 8) rfl rfl⟩

end OpenJobSpec.Worker
