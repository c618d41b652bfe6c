import OpenJobSpec.Client.BatchItemSteps

/-! # One atomic push for the whole batch

Once every gate is set no item gets a terminal any more, so the payload of the
push and the positions in it are fixed from the barrier on.
-/
namespace OpenJobSpec.Client
open Runs IndexedUpdates

namespace BatchRun

variable {W : Type} {items items' : List (BatchItem W)} {s t : BatchRun W}

/-! ## Positions in the payload -/

theorem mem_pending {i : ℕ} {request : JobRequest} :
    (i, request) ∈ pending items ↔
      ∃ item, items[i]? = some item ∧ item.accepted = some request := by
  simp only [pending, List.mem_filterMap, Prod.exists, List.mem_zipIdx_iff_getElem?,
    Option.map_eq_some_iff, Prod.mk.injEq, BatchItem.accepted]
  constructor
  · rintro ⟨item, j, hitem, terminal, hterminal, rfl, rfl⟩
    exact ⟨item, hitem, terminal, hterminal, rfl⟩
  · rintro ⟨item, hitem, terminal, hterminal, rfl⟩
    exact ⟨item, i, hitem, terminal, hterminal, rfl, rfl⟩

theorem pending_increasing (items : List (BatchItem W)) :
    (pending items).Pairwise fun a b => a.1 < b.1 := by
  have hindices : items.zipIdx.Pairwise fun a b => a.2 < b.2 := by
    rw [← List.pairwise_map, List.zipIdx_map_snd]
    exact List.pairwise_lt_range' 1
  refine hindices.filterMap _ ?_
  rintro ⟨a, i⟩ ⟨b, j⟩ hlt x hx y hy
  obtain ⟨ta, _, rfl⟩ := Option.map_eq_some_iff.mp hx
  obtain ⟨tb, _, rfl⟩ := Option.map_eq_some_iff.mp hy
  exact hlt

theorem pending_keys_nodup (items : List (BatchItem W)) :
    ((pending items).map Prod.fst).Nodup :=
  (List.pairwise_map.mpr (pending_increasing items)).imp Nat.ne_of_lt

theorem pending_requests (items : List (BatchItem W)) :
    (pending items).map Prod.snd = items.filterMap BatchItem.accepted := by
  have haccepted : (fun entry : BatchItem W × ℕ => Option.map Prod.snd
      (entry.1.terminal.map fun t => (entry.2, t.request))) = BatchItem.accepted ∘ Prod.fst := by
    funext entry
    rw [Option.map_map]
    rfl
  rw [pending, List.map_filterMap, haccepted, ← List.filterMap_map, List.zipIdx_map_fst]

theorem pending_congr (h : items'.map BatchItem.accepted = items.map BatchItem.accepted) :
    pending items' = pending items := by
  have haccepted (items : List (BatchItem W)) : pending items =
      (items.map BatchItem.accepted).zipIdx.filterMap fun entry =>
        entry.1.map fun request => (entry.2, request) := by
    rw [List.zipIdx_map, List.filterMap_map, pending]
    congr 1
    funext entry
    simp [BatchItem.accepted, Option.map_map, Function.comp_def]
  rw [haccepted, haccepted, h]

/-! ## What a run keeps -/

def AllDecided (items : List (BatchItem W)) : Prop := ∀ item ∈ items, item.decided = true

def AllSettled (items : List (BatchItem W)) : Prop := ∀ item ∈ items, item.isSettled = true

def AllResolved (items : List (BatchItem W)) : Prop :=
  ∀ item ∈ items, ∀ t, item.terminal = some t → t.future ≠ .pending

/-- The job is the one that the transport returned at the item's place in the payload. -/
def AtOwnPlace (s : BatchRun W) (i : ℕ) (request : JobRequest) (job : Job) : Prop :=
  ∃ (jobs : List Job) (k : ℕ), s.response = some jobs ∧ jobs.length = (pending s.items).length ∧
    (pending s.items)[k]? = some (i, request) ∧ jobs[k]? = some job

def PhaseAgrees (s : BatchRun W) : Prop :=
  match s.phase with
  | .barrier => s.pushes = []
  | .pushing entries => s.pushes ≠ [] ∧ entries = pending s.items ∧ s.response = none
  | .failing _ | .settling => AllDecided s.items ∧ AllResolved s.items
  | .unwinding => True
  | .returned jobs =>
    AllSettled s.items ∧ (∀ item ∈ s.items, item.chainError = none) ∧
      jobs = s.items.filterMap BatchItem.finalResult
  | .raised _ => AllSettled s.items

structure Sound (requests : List JobRequest) (s : BatchRun W) : Prop where
  requests : s.items.map BatchItem.request = requests
  items : ∀ item ∈ s.items, item.Sound
  pushed : s.pushes = [] ∨
    s.pushes = [s.items.filterMap BatchItem.accepted] ∧ AllDecided s.items
  answered : s.response ≠ none → s.pushes ≠ []
  phase : s.PhaseAgrees
  observed : ∀ i item t job, s.items[i]? = some item → item.terminal = some t →
    t.future = .result job → s.AtOwnPlace i t.request job

variable {requests : List JobRequest}

theorem AllDecided.advance (hd : AllDecided items)
    (h : List.Forall₂ BatchItem.Advances items items') : AllDecided items' := by
  intro b hb
  obtain ⟨a, ha, hab⟩ := exists_mem_of_forall₂ h hb
  exact hab.decided (hd a ha)

/-- From the barrier on nothing new is accepted. -/
theorem AllDecided.accepted (hd : AllDecided items)
    (h : List.Forall₂ BatchItem.Advances items items') :
    items'.map BatchItem.accepted = items.map BatchItem.accepted := by
  induction h with
  | nil => rfl
  | cons hab _ ih =>
    rw [List.map_cons, List.map_cons, hab.frozen (hd _ List.mem_cons_self),
      ih fun item hitem => hd item (List.mem_cons_of_mem _ hitem)]

theorem AllResolved.advance (hd : AllDecided items) (hr : AllResolved items)
    (h : List.Forall₂ BatchItem.Advances items items') : AllResolved items' := by
  intro b hb t ht
  obtain ⟨a, ha, hab⟩ := exists_mem_of_forall₂ h hb
  have hfrozen := hab.frozen (hd a ha)
  simp only [BatchItem.accepted, ht, Option.map_some] at hfrozen
  obtain ⟨t₀, ht₀, _⟩ := Option.map_eq_some_iff.mp hfrozen.symm
  have hdone := hab.done t₀ ht₀ (hr a ha t₀ ht₀)
  rw [ht] at hdone
  cases hdone
  exact hr a ha t ht₀

theorem AllSettled.moves (hs : AllSettled items)
    (h : List.Forall₂ BatchItem.Moves items items') : items' = items := by
  induction h with
  | nil => rfl
  | cons hab _ ih =>
    rw [hab.ended (hs _ List.mem_cons_self),
      ih fun item hitem => hs item (List.mem_cons_of_mem _ hitem)]

theorem map_request (h : List.Forall₂ BatchItem.Advances items items') :
    items'.map BatchItem.request = items.map BatchItem.request :=
  map_eq_of_forall₂ (fun hab => hab.request) h

theorem Sound.pushed_advance (h : Sound requests s)
    (ha : List.Forall₂ BatchItem.Advances s.items items') :
    s.pushes = [] ∨ s.pushes = [items'.filterMap BatchItem.accepted] ∧ AllDecided items' := by
  rcases h.pushed with hnone | ⟨hone, hd⟩
  · exact Or.inl hnone
  · refine Or.inr ⟨?_, hd.advance ha⟩
    rw [hone, ← pending_requests, ← pending_requests, pending_congr (hd.accepted ha)]

theorem Sound.decided_of_pushed (h : Sound requests s) (hp : s.pushes ≠ []) :
    AllDecided s.items := by
  rcases h.pushed with hnone | ⟨_, hd⟩
  · exact absurd hnone hp
  · exact hd

theorem Sound.place_advance (h : Sound requests s)
    (ha : List.Forall₂ BatchItem.Advances s.items items') {i : ℕ} {request : JobRequest} {job : Job}
    (hplace : s.AtOwnPlace i request job) :
    AtOwnPlace { s with items := items' } i request job := by
  obtain ⟨jobs, k, hresponse, hlen, hk, hjob⟩ := hplace
  have hd := h.decided_of_pushed (h.answered (by simp [hresponse]))
  have hsame : pending items' = pending s.items := pending_congr (hd.accepted ha)
  exact ⟨jobs, k, hresponse, by rw [hlen, hsame], by rw [hsame, hk], hjob⟩

theorem Sound.observed_quiet (h : Sound requests s)
    (hq : List.Forall₂ BatchItem.Quiet s.items items') (i : ℕ) (item : BatchItem W)
    (t : BatchTerminal) (job : Job) (hi : items'[i]? = some item) (ht : item.terminal = some t)
    (hjob : t.future = .result job) : s.AtOwnPlace i t.request job := by
  obtain ⟨a, hai, hab⟩ := exists_of_forall₂ hq hi
  exact h.observed i a t job hai (hab.results t job ht hjob) hjob

theorem forall₂_advances (h : List.Forall₂ BatchItem.Quiet items items') :
    List.Forall₂ BatchItem.Advances items items' :=
  h.imp fun _ _ hab => hab.toAdvances

theorem Sound.quietly (h : Sound requests s) (hq : List.Forall₂ BatchItem.Quiet s.items items')
    (hitems : ∀ item ∈ items', item.Sound) {phase : BatchPhase}
    (hphase : PhaseAgrees { s with items := items', phase }) :
    Sound requests { s with items := items', phase } := by
  have ha := forall₂_advances hq
  refine ⟨(map_request ha).trans h.requests, hitems, h.pushed_advance ha, h.answered, hphase, ?_⟩
  intro i item t job hi ht hjob
  exact h.place_advance ha (h.observed_quiet hq i item t job hi ht hjob)

theorem Sound.phase_only (h : Sound requests s) {phase : BatchPhase}
    (hphase : PhaseAgrees { s with phase }) : Sound requests { s with phase } :=
  h.quietly (List.forall₂_same.mpr fun item _ => BatchItem.Quiet.refl item) h.items hphase

/-! ## Steps of the chains -/

theorem Sound.phase_moved (h : Sound requests s)
    (hm : List.Forall₂ BatchItem.Moves s.items items') :
    PhaseAgrees { s with items := items' } := by
  have ha := forall₂_advances (hm.imp fun _ _ hab => hab.toQuiet)
  have hphase := h.phase
  unfold PhaseAgrees at hphase ⊢
  dsimp only
  cases hp : s.phase with
  | barrier => rwa [hp] at hphase
  | pushing entries =>
    rw [hp] at hphase
    obtain ⟨hpushed, hentries, hresponse⟩ := hphase
    have hsame := pending_congr ((h.decided_of_pushed hpushed).accepted ha)
    exact ⟨hpushed, hentries.trans hsame.symm, hresponse⟩
  | failing e =>
    rw [hp] at hphase
    exact ⟨hphase.1.advance ha, hphase.2.advance hphase.1 ha⟩
  | settling =>
    rw [hp] at hphase
    exact ⟨hphase.1.advance ha, hphase.2.advance hphase.1 ha⟩
  | unwinding => trivial
  | returned jobs =>
    rw [hp] at hphase
    rw [hphase.1.moves hm]
    exact hphase
  | raised e =>
    rw [hp] at hphase
    rw [AllSettled.moves hphase hm]
    exact hphase

theorem Sound.moved_at (h : Sound requests s) {i : ℕ} {a b : BatchItem W}
    (hi : s.items[i]? = some a) (hb : b.Sound) (hab : BatchItem.Moves a b) :
    Sound requests { s with items := s.items.set i b } := by
  have hm : List.Forall₂ BatchItem.Moves s.items (s.items.set i b) := by
    refine forall₂_set BatchItem.Moves.refl i ?_
    intro x hx
    rw [hi] at hx
    cases hx
    exact hab
  refine h.quietly (hm.imp fun _ _ hab => hab.toQuiet) ?_ (h.phase_moved hm)
  intro item hitem
  rcases List.mem_or_eq_of_mem_set hitem with hmem | heq
  · exact h.items item hmem
  · exact heq ▸ hb

/-! ## The barrier opens -/

theorem rejectSilent_cases (i : ℕ) (item : BatchItem W) :
    rejectSilent i item = item ∨
      rejectSilent i item = { item with chainError := some (rejectedItem i) } := by
  unfold rejectSilent
  split
  · exact Or.inr rfl
  · exact Or.inl rfl

theorem quiet_rejectSilent (i : ℕ) (item : BatchItem W) :
    BatchItem.Quiet item (rejectSilent i item) := by
  rcases rejectSilent_cases i item with heq | heq
  · rw [heq]
    exact BatchItem.Quiet.refl item
  · rw [heq]
    exact ⟨⟨rfl, id, fun _ => rfl, fun _ => rfl, fun _ h _ => h⟩, fun _ _ h _ => h⟩

theorem sound_rejectSilent (i : ℕ) {item : BatchItem W} (h : item.Sound) :
    (rejectSilent i item).Sound := by
  rcases rejectSilent_cases i item with heq | heq
  · rw [heq]
    exact h
  · rw [heq]
    exact ⟨h.valid, h.gate, h.calling, h.decided, h.result, fun _ _ => Option.some_ne_none _⟩

theorem Sound.rejectSilents (h : Sound requests s) (hb : s.phase = .barrier) :
    Sound requests { s with items := s.items.mapIdx rejectSilent } := by
  have hphase := h.phase
  rw [PhaseAgrees, hb] at hphase
  refine h.quietly (forall₂_mapIdx quiet_rejectSilent) ?_ ?_
  · intro item hitem
    obtain ⟨i, hi⟩ := List.mem_iff_getElem?.mp hitem
    rw [List.getElem?_mapIdx] at hi
    obtain ⟨a, ha, rfl⟩ := Option.map_eq_some_iff.mp hi
    exact sound_rejectSilent i (h.items a (List.mem_of_getElem? ha))
  · rw [PhaseAgrees]
    simp only [hb]
    exact hphase

theorem forall₂_map_resolve {outcome : FutureState} (hout : ∀ job, outcome ≠ .result job)
    (items : List (BatchItem W)) :
    List.Forall₂ BatchItem.Quiet items (items.map (BatchItem.resolve outcome)) :=
  List.forall₂_map_right_iff.mpr
    (List.forall₂_same.mpr fun item _ => BatchItem.Quiet.resolve hout item)

theorem Sound.openBarrier (h : Sound requests s) (hb : s.phase = .barrier)
    (hd : AllDecided s.items) : Sound requests s.openBarrier := by
  have hr := h.rejectSilents hb
  have hpushes : s.pushes = [] := by
    have hphase := h.phase
    rwa [PhaseAgrees, hb] at hphase
  have hresponse : s.response = none := by
    by_contra hsome
    exact h.answered hsome hpushes
  have hd' : AllDecided (s.items.mapIdx rejectSilent) :=
    hd.advance (forall₂_advances (forall₂_mapIdx quiet_rejectSilent))
  unfold BatchRun.openBarrier
  dsimp only
  split
  next e _ =>
    -- the batch is aborted: every terminal that was reached fails with the first error
    have hq : List.Forall₂ BatchItem.Quiet (s.items.mapIdx rejectSilent)
        ((s.items.mapIdx rejectSilent).map (BatchItem.resolve (.exception e))) :=
      forall₂_map_resolve (by simp) _
    refine hr.quietly hq ?_ ⟨hd'.advance (forall₂_advances hq), ?_⟩
    · intro item hitem
      obtain ⟨a, ha, rfl⟩ := List.mem_map.mp hitem
      exact (hr.items a ha).resolve _
    · intro item hitem t ht
      obtain ⟨a, _, rfl⟩ := List.mem_map.mp hitem
      rcases BatchItem.terminal_resolve ht with hdone | hout
      · exact hdone.2
      · simp [hout]
  next =>
    split
    next hempty =>
      refine hr.phase_only ⟨hd', ?_⟩
      intro item hitem t ht
      obtain ⟨i, hi⟩ := List.mem_iff_getElem?.mp hitem
      have hmem : (i, t.request) ∈ pending (s.items.mapIdx rejectSilent) :=
        mem_pending.mpr ⟨item, hi, by rw [BatchItem.accepted, ht, Option.map_some]⟩
      rw [hempty] at hmem
      cases hmem
    next =>
      have hpush : s.pushes ++ [(pending (s.items.mapIdx rejectSilent)).map Prod.snd] =
          [(s.items.mapIdx rejectSilent).filterMap BatchItem.accepted] := by
        rw [hpushes, pending_requests, List.nil_append]
      refine ⟨hr.requests, hr.items, Or.inr ⟨hpush, hd'⟩, ?_, ⟨?_, rfl, hresponse⟩, hr.observed⟩
      · exact fun hsome => absurd hresponse hsome
      · simp

/-! ## The push ends -/

theorem Sound.pushing (h : Sound requests s) {entries : List (ℕ × JobRequest)}
    (hp : s.phase = .pushing entries) :
    s.pushes ≠ [] ∧ entries = pending s.items ∧ s.response = none := by
  have hphase := h.phase
  rwa [PhaseAgrees, hp] at hphase

theorem Sound.no_results (h : Sound requests s) (hnone : s.response = none) (i : ℕ)
    (item : BatchItem W) (t : BatchTerminal) (job : Job) (hi : s.items[i]? = some item)
    (ht : item.terminal = some t) : t.future ≠ .result job := by
  intro hjob
  obtain ⟨jobs, k, hsome, _⟩ := h.observed i item t job hi ht hjob
  rw [hnone] at hsome
  cases hsome

section Updates
variable {β : Type} {f : β → FutureState} {updates : List (ℕ × β)}

theorem forall₂_advances_updateAll (f : β → FutureState) (updates : List (ℕ × β))
    (items : List (BatchItem W)) : List.Forall₂ BatchItem.Advances items
      (updateAll (fun b => BatchItem.resolve (f b)) updates items) :=
  forall₂_updateAll BatchItem.Advances.refl (fun _ _ _ hab hbc => hab.trans hbc)
    fun b a => BatchItem.Advances.resolve (f b) a

theorem updateAll_key {i : ℕ} {b : BatchItem W}
    (hkeys : updates.map Prod.fst = (pending items).map Prod.fst)
    (hb : (updateAll (fun b => BatchItem.resolve (f b)) updates items)[i]? = some b)
    (hd : AllDecided items) {t : BatchTerminal} (ht : b.terminal = some t) :
    ∃ a v, items[i]? = some a ∧ (i, v) ∈ updates ∧ b = a.resolve (f v) ∧
      (i, t.request) ∈ pending items := by
  obtain ⟨a, ha, hab⟩ := exists_of_forall₂ (forall₂_advances_updateAll f updates items) hb
  have haccepted : a.accepted = some t.request := by
    rw [← hab.frozen (hd a (List.mem_of_getElem? ha)), BatchItem.accepted, ht, Option.map_some]
  have hmem : (i, t.request) ∈ pending items := mem_pending.mpr ⟨a, ha, haccepted⟩
  have hkey : i ∈ updates.map Prod.fst := hkeys ▸ List.mem_map_of_mem hmem
  obtain ⟨⟨j, v⟩, hv, hj⟩ := List.mem_map.mp hkey
  cases hj
  have hnodup : (updates.map Prod.fst).Nodup := hkeys ▸ pending_keys_nodup items
  rw [updateAll_of_mem hnodup hv, ha] at hb
  cases hb
  exact ⟨a, v, ha, hv, rfl, hmem⟩

theorem allResolved_updateAll (hf : ∀ b, f b ≠ .pending) (hd : AllDecided items)
    (hkeys : updates.map Prod.fst = (pending items).map Prod.fst) :
    AllResolved (updateAll (fun b => BatchItem.resolve (f b)) updates items) := by
  intro b hb t ht
  obtain ⟨i, hi⟩ := List.mem_iff_getElem?.mp hb
  obtain ⟨a, v, _, _, rfl, _⟩ := updateAll_key hkeys hi hd ht
  rcases BatchItem.terminal_resolve ht with hdone | hout
  · exact hdone.2
  · rw [hout]
    exact hf v

theorem sound_updateAll (hitems : ∀ item ∈ items, item.Sound) :
    ∀ item ∈ updateAll (fun b => BatchItem.resolve (f b)) updates items, item.Sound :=
  forall_mem_updateAll (fun b _ hitem => hitem.resolve (f b)) hitems

end Updates

theorem failures_keys (entries : List (ℕ × JobRequest)) (e : Exn) :
    (failures entries e).map Prod.fst = entries.map Prod.fst := by
  rw [failures, List.map_map]
  rfl

theorem dispatched_keys {entries : List (ℕ × JobRequest)} {jobs : List Job}
    (hlen : jobs.length = entries.length) :
    (dispatched entries jobs).map Prod.fst = entries.map Prod.fst := by
  have hzip : (entries.zip jobs).map Prod.fst = entries := List.map_fst_zip (by omega)
  calc (dispatched entries jobs).map Prod.fst
      = ((entries.zip jobs).map Prod.fst).map Prod.fst := by
        rw [dispatched, List.map_map, List.map_map]
        rfl
    _ = entries.map Prod.fst := by rw [hzip]

theorem mem_dispatched {entries : List (ℕ × JobRequest)} {jobs : List Job} {i : ℕ} {job : Job} :
    (i, job) ∈ dispatched entries jobs ↔
      ∃ (k : ℕ) (request : JobRequest), entries[k]? = some (i, request) ∧ jobs[k]? = some job := by
  constructor
  · intro h
    obtain ⟨⟨⟨j, request⟩, job'⟩, hmem, heq⟩ := List.mem_map.mp h
    cases heq
    obtain ⟨k, hk⟩ := List.mem_iff_getElem?.mp hmem
    obtain ⟨hentry, hjob⟩ := List.getElem?_zip_eq_some.mp hk
    exact ⟨k, request, hentry, hjob⟩
  · rintro ⟨k, request, hentry, hjob⟩
    have hzip : (entries.zip jobs)[k]? = some ((i, request), job) :=
      List.getElem?_zip_eq_some.mpr ⟨hentry, hjob⟩
    exact List.mem_map.mpr ⟨_, List.mem_of_getElem? hzip, rfl⟩

theorem pending_unique {i : ℕ} {r r' : JobRequest} (h : (i, r) ∈ pending items)
    (h' : (i, r') ∈ pending items) : r = r' := by
  obtain ⟨a, ha, hr⟩ := mem_pending.mp h
  obtain ⟨b, hb, hr'⟩ := mem_pending.mp h'
  rw [ha] at hb
  cases hb
  rw [hr] at hr'
  exact Option.some.inj hr'

theorem Sound.pushFailed (h : Sound requests s) {entries : List (ℕ × JobRequest)}
    (hp : s.phase = .pushing entries) (response : Option (List Job)) (e : Exn) :
    Sound requests ({ s with response }.pushFailed entries e) := by
  obtain ⟨hpushed, rfl, hnone⟩ := h.pushing hp
  have hd := h.decided_of_pushed hpushed
  have ha := forall₂_advances_updateAll FutureState.exception (failures (pending s.items) e) s.items
  have hkeys := failures_keys (pending s.items) e
  refine ⟨(map_request ha).trans h.requests, ?_, h.pushed_advance ha, fun _ => hpushed,
    ⟨hd.advance ha, allResolved_updateAll (by simp) hd hkeys⟩, ?_⟩
  · exact sound_updateAll h.items
  · intro i b t job hi ht hjob
    obtain ⟨a, v, hai, _, rfl, _⟩ := updateAll_key hkeys hi hd ht
    rcases BatchItem.terminal_resolve ht with hbefore | hout
    · exact absurd hjob (h.no_results hnone i a t job hai hbefore.1)
    · rw [hjob] at hout
      cases hout

theorem Sound.pushReturned (h : Sound requests s) {entries : List (ℕ × JobRequest)}
    (hp : s.phase = .pushing entries) (jobs : List Job) :
    Sound requests (s.pushReturned entries jobs) := by
  unfold BatchRun.pushReturned
  split
  · exact h.pushFailed hp (some jobs) (wrongNumber jobs entries)
  next hlen =>
    rw [not_not] at hlen
    obtain ⟨hpushed, rfl, hnone⟩ := h.pushing hp
    have hd := h.decided_of_pushed hpushed
    have ha := forall₂_advances_updateAll FutureState.result (dispatched (pending s.items) jobs)
      s.items
    have hkeys := dispatched_keys hlen
    refine ⟨(map_request ha).trans h.requests, ?_, h.pushed_advance ha, fun _ => hpushed,
      ⟨hd.advance ha, allResolved_updateAll (by simp) hd hkeys⟩, ?_⟩
    · exact sound_updateAll h.items
    · intro i b t job hi ht hjob
      obtain ⟨a, v, hai, hv, rfl, hmem⟩ := updateAll_key hkeys hi hd ht
      rcases BatchItem.terminal_resolve ht with hbefore | hout
      · exact absurd hjob (h.no_results hnone i a t job hai hbefore.1)
      · rw [hjob] at hout
        cases hout
        obtain ⟨k, request, hk, hjobs⟩ := mem_dispatched.mp hv
        have hrequest : request = t.request := pending_unique (List.mem_of_getElem? hk) hmem
        have hsame := pending_congr (hd.accepted ha)
        exact ⟨jobs, k, rfl, hlen.trans (congrArg List.length hsame.symm),
          by rw [hsame, hk, hrequest], hjobs⟩

/-! ## The chains have settled -/

theorem firstError_eq_none (h : firstError items = none) :
    ∀ item ∈ items, item.chainError = none := by
  rw [firstError, List.head?_eq_none_iff, List.filterMap_eq_nil_iff] at h
  exact h

theorem allSettled_iff : items.all BatchItem.isSettled = true ↔ AllSettled items := List.all_eq_true

theorem allDecided_iff : items.all BatchItem.decided = true ↔ AllDecided items := List.all_eq_true

theorem Sound.conclude (h : Sound requests s) (hs : AllSettled s.items) :
    Sound requests s.conclude := by
  unfold BatchRun.conclude
  split
  next e _ => exact h.phase_only hs
  next hnone => exact h.phase_only ⟨hs, firstError_eq_none hnone, rfl⟩

/-! ## All steps -/

inductive Transition (middlewares : List (EnqueueMiddleware W)) (s : BatchRun W) :
    BatchRun W → Prop
  | chain {i : ℕ} {a b : BatchItem W} {world : W} (hi : s.items[i]? = some a)
      (hb : a.proceed middlewares world = some b ∨ a.cancel world = some b) :
      Transition middlewares s { s with items := s.items.set i b }
  | opens (hp : s.phase = .barrier) (hd : AllDecided s.items) :
      Transition middlewares s s.openBarrier
  | pushReturned {entries : List (ℕ × JobRequest)} (hp : s.phase = .pushing entries)
      (jobs : List Job) : Transition middlewares s (s.pushReturned entries jobs)
  | pushFailed {entries : List (ℕ × JobRequest)} (hp : s.phase = .pushing entries) (e : Exn) :
      Transition middlewares s (s.pushFailed entries e)
  | raises {error : Raised} (hp : s.phase = .unwinding ∨ ∃ e, s.phase = .failing e)
      (hs : AllSettled s.items) : Transition middlewares s { s with phase := .raised error }
  | concludes (hp : s.phase = .settling) (hs : AllSettled s.items) :
      Transition middlewares s s.conclude
  | unwinds (hp : s.phase ≠ .unwinding) (hopen : ∀ jobs, s.phase ≠ .returned jobs)
      (hrunning : ∀ error, s.phase ≠ .raised error) :
      Transition middlewares s { s with phase := .unwinding }

variable {middlewares : List (EnqueueMiddleware W)} {step : BatchStep W}

theorem Transition.of_next (hn : s.next middlewares step = some t) :
    Transition middlewares s t := by
  unfold BatchRun.next at hn
  split at hn
  next i world =>
    simp only [Option.bind_eq_bind, Option.bind_eq_some_iff, Option.pure_def, Option.some.injEq]
      at hn
    obtain ⟨a, hi, b, hproceed, rfl⟩ := hn
    exact .chain hi (Or.inl hproceed)
  next i world =>
    simp only [Option.bind_eq_bind, Option.bind_eq_some_iff, Option.pure_def, Option.some.injEq]
      at hn
    obtain ⟨a, hi, b, hcancel, rfl⟩ := hn
    exact .chain hi (Or.inr hcancel)
  next hp =>
    split at hn
    next hd =>
      cases hn
      exact .opens hp (allDecided_iff.mp hd)
    next => cases hn
  next jobs entries hp =>
    cases hn
    exact .pushReturned hp jobs
  next e entries hp =>
    cases hn
    exact .pushFailed hp e
  next e hp =>
    split at hn
    next hs =>
      cases hn
      exact .raises (Or.inr ⟨e, hp⟩) (allSettled_iff.mp hs)
    next => cases hn
  next hp =>
    split at hn
    next hs =>
      cases hn
      exact .concludes hp (allSettled_iff.mp hs)
    next => cases hn
  next hp =>
    split at hn
    next hs =>
      cases hn
      exact .raises (Or.inl hp) (allSettled_iff.mp hs)
    next => cases hn
  -- the batch is cancelled where it waits
  next hp =>
    cases hn
    exact .unwinds (by simp [hp]) (by simp [hp]) (by simp [hp])
  next hp =>
    cases hn
    exact .unwinds (by simp [hp]) (by simp [hp]) (by simp [hp])
  next hp =>
    cases hn
    exact .unwinds (by simp [hp]) (by simp [hp]) (by simp [hp])
  next hp =>
    cases hn
    exact .unwinds (by simp [hp]) (by simp [hp]) (by simp [hp])
  next => cases hn

theorem moves_of_chain {a b : BatchItem W} {world : W} (ha : a.Sound)
    (hb : a.proceed middlewares world = some b ∨ a.cancel world = some b) :
    b.Sound ∧ BatchItem.Moves a b := by
  rcases hb with hproceed | hcancel
  · exact ha.proceed hproceed
  · exact ha.cancel hcancel

theorem Sound.next (h : Sound requests s) (hn : s.next middlewares step = some t) :
    Sound requests t := by
  cases Transition.of_next hn with
  | chain hi hb =>
    obtain ⟨hb, hab⟩ := moves_of_chain (h.items _ (List.mem_of_getElem? hi)) hb
    exact h.moved_at hi hb hab
  | opens hp hd => exact h.openBarrier hp hd
  | pushReturned hp jobs => exact h.pushReturned hp jobs
  | pushFailed hp e => exact h.pushFailed hp s.response e
  | raises _ hs => exact h.phase_only hs
  | concludes _ hs => exact h.conclude hs
  | unwinds => exact h.phase_only trivial

theorem Sound.start (requests : List JobRequest) :
    Sound requests (BatchRun.start requests : BatchRun W) := by
  refine ⟨?_, ?_, Or.inl rfl, fun h => absurd rfl h, ?_, ?_⟩
  · rw [BatchRun.start, List.map_map]
    exact List.map_id requests
  · intro item hitem
    obtain ⟨request, _, rfl⟩ := List.mem_map.mp hitem
    exact BatchItem.Sound.initial request
  · unfold PhaseAgrees BatchRun.start
    by_cases hempty : requests = []
    · simp [hempty, AllSettled]
    · simp [hempty]
  · intro i item t job hi ht
    obtain ⟨request, _, rfl⟩ := List.mem_map.mp (List.mem_of_getElem? hi)
    cases ht

theorem Sound.run (h : Sound requests s)
    (steps : List (BatchStep W)) : Sound requests (Runs.run (BatchRun.next middlewares) s steps) :=
  run_invariant (Sound requests) h fun _ _ _ _ hs hn => hs.next hn

end BatchRun

end OpenJobSpec.Client
