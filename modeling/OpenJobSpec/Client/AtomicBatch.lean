import OpenJobSpec.Client.BatchBarrier

/-! # All or nothing

A chain that settled without a job and without an accepted request aborts the
batch at the barrier, before anything is pushed. Otherwise the accepted requests
are pushed together, and each terminal gets the job at its own place.
-/
namespace OpenJobSpec.Client
open Runs IndexedUpdates

/-- The chain settled with an exception, or with nothing although nothing was accepted. -/
def BatchItem.Rejects {W : Type} (item : BatchItem W) : Prop :=
  (∃ e, item.chain = .settled (.error (.exception e))) ∨
    item.chain = .settled (.ok none) ∧ item.terminal = none

namespace BatchRun

variable {W : Type} {items : List (BatchItem W)} {s t : BatchRun W} {requests : List JobRequest}
  {middlewares : List (EnqueueMiddleware W)}

def Rejected (s : BatchRun W) : Prop :=
  s.phase = .barrier ∧ AllDecided s.items ∧ ∃ item ∈ s.items, item.Rejects

/-- The batch is bound to raise, and pushes nothing. -/
def Aborts (s : BatchRun W) : Prop :=
  s.pushes = [] ∧
    match s.phase with
    | .barrier => AllDecided s.items ∧ ∃ item ∈ s.items, item.Rejects
    | .failing _ | .unwinding | .raised _ => True
    | .pushing _ | .settling | .returned _ => False

theorem isSettled_of_rejects {item : BatchItem W} (h : item.Rejects) : item.isSettled = true := by
  rcases h with ⟨e, hchain⟩ | ⟨hchain, _⟩ <;> rw [BatchItem.isSettled, hchain]

theorem chainError_of_rejects (i : ℕ) {item : BatchItem W} (hs : item.Sound) (h : item.Rejects) :
    (rejectSilent i item).chainError ≠ none := by
  unfold rejectSilent
  split
  next => exact Option.some_ne_none _
  next hloud =>
    rcases h with ⟨e, hchain⟩ | ⟨hchain, hterminal⟩
    · exact hs.raised e hchain
    · intro herror
      have hresult : item.finalResult = none := by
        rw [hs.result, BatchItem.chainResult, hchain]
      exact hloud ⟨hterminal, herror, hresult⟩

theorem firstError_isSome {item : BatchItem W} (hi : item ∈ items) (he : item.chainError ≠ none) :
    ∃ e, firstError items = some e := by
  rw [← Option.ne_none_iff_exists']
  exact fun hnone => he (firstError_eq_none hnone item hi)

theorem openBarrier_of_rejects (h : Sound requests s) {item : BatchItem W} (hi : item ∈ s.items)
    (hr : item.Rejects) : ∃ e, s.openBarrier =
      { s with
        items := (s.items.mapIdx rejectSilent).map (BatchItem.resolve (.exception e))
        phase := .failing e } := by
  obtain ⟨i, hget⟩ := List.mem_iff_getElem?.mp hi
  have hmem : rejectSilent i item ∈ s.items.mapIdx rejectSilent := by
    apply List.mem_of_getElem? (i := i)
    rw [List.getElem?_mapIdx, hget, Option.map_some]
  obtain ⟨e, he⟩ := firstError_isSome hmem (chainError_of_rejects i (h.items item hi) hr)
  refine ⟨e, ?_⟩
  unfold openBarrier
  simp only [he]

theorem mem_set_of_settled {i : ℕ} {a b item : BatchItem W} (ha : items[i]? = some a)
    (hab : BatchItem.Moves a b) (hi : item ∈ items) (hs : item.isSettled = true) :
    item ∈ items.set i b := by
  obtain ⟨j, hj⟩ := List.mem_iff_getElem?.mp hi
  by_cases hij : i = j
  · subst hij
    rw [ha] at hj
    cases hj
    rw [hab.ended hs]
    exact List.mem_set (List.getElem?_eq_some_iff.mp ha).1 a
  · apply List.mem_of_getElem? (i := j)
    rw [List.getElem?_set_ne hij, hj]

theorem Aborts.moved_at (h : Aborts s) {i : ℕ} {a b : BatchItem W} (hi : s.items[i]? = some a)
    (hab : BatchItem.Moves a b) : Aborts { s with items := s.items.set i b } := by
  obtain ⟨hpushes, hphase⟩ := h
  refine ⟨hpushes, ?_⟩
  dsimp only
  cases hp : s.phase with
  | barrier =>
    rw [hp] at hphase
    obtain ⟨hd, item, hmem, hr⟩ := hphase
    have ha : List.Forall₂ BatchItem.Advances s.items (s.items.set i b) :=
      forall₂_set BatchItem.Advances.refl i fun x hx => by
        rw [hi] at hx
        cases hx
        exact hab.toAdvances
    exact ⟨hd.advance ha, item, mem_set_of_settled hi hab hmem (isSettled_of_rejects hr), hr⟩
  | failing e => trivial
  | unwinding => trivial
  | raised e => trivial
  | pushing entries => rwa [hp] at hphase
  | settling => rwa [hp] at hphase
  | returned jobs => rwa [hp] at hphase

/-- The bound stays: the barrier opens into a failure, and nothing else leads to a push. -/
theorem Aborts.next {step : BatchStep W} (hs : Sound requests s) (h : Aborts s)
    (hn : s.next middlewares step = some t) : Aborts t := by
  cases Transition.of_next hn with
  | chain hi hb =>
    obtain ⟨_, hab⟩ := moves_of_chain (hs.items _ (List.mem_of_getElem? hi)) hb
    exact h.moved_at hi hab
  | opens hp _ =>
    have hphase := h.2
    rw [hp] at hphase
    obtain ⟨_, item, hmem, hr⟩ := hphase
    obtain ⟨e, heq⟩ := openBarrier_of_rejects hs hmem hr
    rw [heq]
    exact ⟨h.1, trivial⟩
  | pushReturned hp jobs =>
    have hphase := h.2
    rw [hp] at hphase
    exact hphase.elim
  | pushFailed hp e =>
    have hphase := h.2
    rw [hp] at hphase
    exact hphase.elim
  | raises => exact ⟨h.1, trivial⟩
  | concludes hp =>
    have hphase := h.2
    rw [hp] at hphase
    exact hphase.elim
  | unwinds => exact ⟨h.1, trivial⟩

theorem Aborts.run (hs : Sound requests s) (h : Aborts s) (steps : List (BatchStep W)) :
    Aborts (Runs.run (BatchRun.next middlewares) s steps) :=
  (run_invariant (fun s => Sound requests s ∧ Aborts s) ⟨hs, h⟩
    fun _ _ _ _ hs hn => ⟨hs.1.next hn, hs.2.next hs.1 hn⟩).2

theorem allSettled_advance (hs : AllSettled items) {items' : List (BatchItem W)}
    (ha : List.Forall₂ BatchItem.Advances items items') : AllSettled items' := by
  intro b hb
  obtain ⟨a, hmem, hab⟩ := exists_mem_of_forall₂ ha hb
  have hsettled := hs a hmem
  rw [BatchItem.isSettled, hab.settled hsettled]
  exact hsettled

theorem apply_barrierOpens (hp : s.phase = .barrier) (hd : AllDecided s.items) :
    apply (BatchRun.next middlewares) s .barrierOpens = s.openBarrier := by
  simp only [apply, BatchRun.next, hp, allDecided_iff.mpr hd, if_true, Option.getD_some]

theorem apply_chainsGathered {e : Exn} (hp : s.phase = .failing e) (hset : AllSettled s.items) :
    apply (BatchRun.next middlewares) s .chainsGathered =
      { s with phase := .raised (.exception e) } := by
  simp only [apply, BatchRun.next, hp, allSettled_iff.mpr hset, if_true, Option.getD_some]

theorem Aborts.raises (hs : Sound requests s) (h : Aborts s) (hset : AllSettled s.items) :
    ∃ e, (Runs.run (BatchRun.next middlewares) s [.barrierOpens, .chainsGathered]).phase =
      .raised e := by
  have hphase := h.2
  cases hp : s.phase with
  | barrier =>
    rw [hp] at hphase
    obtain ⟨hd, item, hmem, hr⟩ := hphase
    obtain ⟨e, heq⟩ := openBarrier_of_rejects hs hmem hr
    rw [run_cons, run_cons, run_nil, apply_barrierOpens hp hd, heq, apply_chainsGathered rfl]
    · exact ⟨_, rfl⟩
    · have hsilent := allSettled_advance hset
        (forall₂_advances (forall₂_mapIdx quiet_rejectSilent))
      exact allSettled_advance hsilent (forall₂_advances (forall₂_map_resolve (by simp) _))
  | failing e =>
    rw [run_cons, run_cons, run_nil]
    simp [apply, BatchRun.next, hp, allSettled_iff.mpr hset]
  | unwinding =>
    rw [run_cons, run_cons, run_nil]
    simp [apply, BatchRun.next, hp, allSettled_iff.mpr hset]
  | raised e =>
    rw [run_cons, run_cons, run_nil]
    simp [apply, BatchRun.next, hp]
  | pushing entries =>
    rw [hp] at hphase
    exact hphase.elim
  | settling =>
    rw [hp] at hphase
    exact hphase.elim
  | returned jobs =>
    rw [hp] at hphase
    exact hphase.elim

/-! ## Whole runs -/

/-- A push that returns as many jobs as were sent resolves each waiting terminal with the job
at its own place in the payload. -/
theorem Sound.delivers (h : Sound requests s) {entries : List (ℕ × JobRequest)}
    (hp : s.phase = .pushing entries) {jobs : List Job} (hlen : jobs.length = entries.length)
    {i : ℕ} {item : BatchItem W} {request : JobRequest} (hi : s.items[i]? = some item)
    (ht : item.terminal = some ⟨request, .pending⟩) :
    ∃ (k : ℕ) (job : Job), entries[k]? = some (i, request) ∧ jobs[k]? = some job ∧
      (s.pushReturned entries jobs).items[i]? =
        some { item with terminal := some ⟨request, .result job⟩ } := by
  obtain ⟨hpushed, rfl, _⟩ := h.pushing hp
  have haccepted : item.accepted = some request := by rw [BatchItem.accepted, ht, Option.map_some]
  obtain ⟨k, hk⟩ := List.mem_iff_getElem?.mp (mem_pending.mpr ⟨item, hi, haccepted⟩)
  have hlt : k < jobs.length := hlen ▸ (List.getElem?_eq_some_iff.mp hk).1
  refine ⟨k, jobs[k], hk, List.getElem?_eq_getElem hlt, ?_⟩
  have hentry : (i, jobs[k]) ∈ dispatched (pending s.items) jobs :=
    mem_dispatched.mpr ⟨k, request, hk, List.getElem?_eq_getElem hlt⟩
  have hnodup : ((dispatched (pending s.items) jobs).map Prod.fst).Nodup :=
    dispatched_keys hlen ▸ pending_keys_nodup s.items
  rw [BatchRun.pushReturned, if_neg (not_not.mpr hlen)]
  dsimp only
  rw [updateAll_of_mem hnodup hentry, hi, Option.map_some, BatchItem.resolve_of_pending _ ht]

/-- What a batch guarantees wherever it stands. -/
structure Atomic (requests : List JobRequest) (s : BatchRun W) : Prop where
  one_push : s.pushes.length ≤ 1
  aligned : s.items.map BatchItem.request = requests
  payload : ∀ payload ∈ s.pushes, payload = s.items.filterMap BatchItem.accepted
  validated : ∀ payload ∈ s.pushes, ∀ request ∈ payload, validateRequest request = .ok ()
  own_job : ∀ (i : ℕ) (item : BatchItem W) (request : JobRequest) (job : Job),
    s.items[i]? = some item → item.terminal = some ⟨request, .result job⟩ →
    s.AtOwnPlace i request job
  unblocked : (s.phase = .settling ∨ ∃ e, s.phase = .failing e) →
    ∀ item ∈ s.items, ∀ callers, item.chain = .executing (.calling callers) →
      ∀ middlewares world, (item.proceed middlewares world).isSome
  returned : ∀ jobs, s.phase = .returned jobs →
    jobs = s.items.filterMap BatchItem.chainResult ∧ AllSettled s.items ∧
      ∀ item ∈ s.items, ∀ e, item.chain ≠ .settled (.error (.exception e))

theorem Sound.payload_eq (h : Sound requests s) {payload : List JobRequest}
    (hmem : payload ∈ s.pushes) : payload = s.items.filterMap BatchItem.accepted := by
  rcases h.pushed with hnone | ⟨hone, _⟩
  · rw [hnone] at hmem
    cases hmem
  · rw [hone] at hmem
    exact List.mem_singleton.mp hmem

theorem Sound.payload_valid (h : Sound requests s) {request : JobRequest}
    (hr : request ∈ s.items.filterMap BatchItem.accepted) : validateRequest request = .ok () := by
  obtain ⟨item, hitem, haccepted⟩ := List.mem_filterMap.mp hr
  obtain ⟨t, ht, rfl⟩ := Option.map_eq_some_iff.mp haccepted
  exact (h.items item hitem).valid t ht

/-- The chains are gathered only after every terminal was resolved. -/
theorem Sound.resolved (h : Sound requests s)
    (hp : s.phase = .settling ∨ ∃ e, s.phase = .failing e) : AllResolved s.items := by
  have hphase := h.phase
  rcases hp with hp | ⟨e, hp⟩
  · rw [PhaseAgrees, hp] at hphase
    exact hphase.2
  · rw [PhaseAgrees, hp] at hphase
    exact hphase.2

theorem Sound.atomic (h : Sound requests s) : Atomic requests s := by
  refine ⟨?_, h.requests, fun _ hmem => h.payload_eq hmem, ?_, ?_, ?_, ?_⟩
  · rcases h.pushed with hnone | ⟨hone, _⟩
    · simp [hnone]
    · simp [hone]
  · intro payload hmem request hr
    rw [h.payload_eq hmem] at hr
    exact h.payload_valid hr
  · intro i item request job hi ht
    exact h.observed i item ⟨request, .result job⟩ job hi ht rfl
  · intro hp item hitem callers hchain middlewares world
    obtain ⟨t, ht⟩ := Option.ne_none_iff_exists'.mp ((h.items item hitem).calling callers hchain)
    exact BatchItem.proceed_of_done hchain ht (h.resolved hp item hitem t ht) middlewares world
  · intro jobs hp
    have hphase := h.phase
    rw [PhaseAgrees, hp] at hphase
    obtain ⟨hsettled, hclean, hjobs⟩ := hphase
    refine ⟨?_, hsettled, ?_⟩
    · rw [hjobs]
      exact List.filterMap_congr fun item hitem => (h.items item hitem).result
    · intro item hitem e hraised
      exact (h.items item hitem).raised e hraised (hclean item hitem)

theorem Rejected.aborts (hs : Sound requests s) (h : Rejected s) : Aborts s := by
  obtain ⟨hp, hrest⟩ := h
  have hphase := hs.phase
  rw [PhaseAgrees, hp] at hphase
  refine ⟨hphase, ?_⟩
  rw [hp]
  exact hrest

def after (middlewares : List (EnqueueMiddleware W)) (requests : List JobRequest)
    (steps : List (BatchStep W)) : BatchRun W :=
  Runs.run (BatchRun.next middlewares) (start requests) steps

theorem after_append (before rest : List (BatchStep W)) :
    after middlewares requests (before ++ rest) =
      Runs.run (BatchRun.next middlewares) (after middlewares requests before) rest :=
  run_append _ before rest

theorem Sound.after (steps : List (BatchStep W)) :
    Sound requests (after middlewares requests steps) :=
  (Sound.start requests).run steps

/-- For every batch, every list of middlewares and every interleaving of the chains: one push
at most, of the accepted requests in order; a rejected item aborts the batch unpushed; every
waiting terminal gets its own job; and a normal return is what the chains settled with. -/
theorem enqueue_batch_atomic (middlewares : List (EnqueueMiddleware W))
    (requests : List JobRequest) (steps : List (BatchStep W)) :
    Atomic requests (after middlewares requests steps) ∧
      (∀ before rest, steps = before ++ rest → Rejected (after middlewares requests before) →
        (after middlewares requests steps).pushes = [] ∧
          (∀ jobs, (after middlewares requests steps).phase ≠ .returned jobs) ∧
          (AllSettled (after middlewares requests steps).items →
            ∃ e, (after middlewares requests
              (steps ++ [.barrierOpens, .chainsGathered])).phase = .raised e)) ∧
      (∀ entries jobs, (after middlewares requests steps).phase = .pushing entries →
        (after middlewares requests steps).pushes = [entries.map Prod.snd] ∧
          (jobs.length = entries.length → ∀ i item request,
            (after middlewares requests steps).items[i]? = some item →
            item.terminal = some ⟨request, .pending⟩ →
            ∃ (k : ℕ) (job : Job), entries[k]? = some (i, request) ∧ jobs[k]? = some job ∧
              (after middlewares requests (steps ++ [.pushReturns jobs])).items[i]? =
                some { item with terminal := some ⟨request, .result job⟩ })) := by
  have h : Sound requests (after middlewares requests steps) := Sound.after steps
  refine ⟨h.atomic, ?_, ?_⟩
  · intro before rest hsplit hrejected
    have haborts : Aborts (after middlewares requests steps) := by
      rw [hsplit, after_append]
      exact Aborts.run (Sound.after before) (hrejected.aborts (Sound.after before)) rest
    refine ⟨haborts.1, ?_, ?_⟩
    · intro jobs hp
      have hphase := haborts.2
      rw [hp] at hphase
      exact hphase
    · intro hset
      rw [after_append]
      exact haborts.raises h hset
  · intro entries jobs hp
    obtain ⟨hpushed, hentries, _⟩ := h.pushing hp
    refine ⟨?_, ?_⟩
    · rw [hentries, pending_requests]
      exact h.pushed.resolve_left hpushed |>.1
    · intro hlen i item request hi ht
      have hstep : after middlewares requests (steps ++ [.pushReturns jobs]) =
          (after middlewares requests steps).pushReturned entries jobs := by
        rw [after_append, run_cons, run_nil]
        simp only [apply, BatchRun.next, hp, Option.getD_some]
      rw [hstep]
      exact h.delivers hp hlen hi ht

def answering (queue : String) (job : Job) : EnqueueMiddleware Unit := fun request history =>
  match history with
  | [] | [_] => if request.queue = queue then .finish (.ok (some job)) else .callNext request
  | _ :: .replied reply _ :: _ => .finish reply
  | _ => .finish (.ok none)

-- only the second item reaches the transport, and both have a result
example :
    let first : JobRequest := { type := "email.send", queue := "local" }
    let second : JobRequest := { type := "email.send" }
    let job := fun id : String => ({ id, type := "email.send", state := .available } : Job)
    let chain := fun index : ℕ => BatchStep.chain index ()
    let batch := after [answering "local" (job "made")] [first, second]
      (List.replicate 5 (chain 0) ++ List.replicate 5 (chain 1) ++ [.barrierOpens,
        .pushReturns [job "sent"]] ++ List.replicate 4 (chain 1) ++ [.chainsGathered])
    batch.pushes = [[second]] ∧
      batch.items.map BatchItem.finalResult = [some (job "made"), some (job "sent")] := by
  decide +kernel

end BatchRun

end OpenJobSpec.Client
