import OpenJobSpec.Testing.TerminalStates
import OpenJobSpec.Wire.Queue

/-! # The books of the fake backend

The fake store keeps no history. The deliveries and the failure reports of a run are
written down beside it, and the jobs of the store agree with what is written down.
-/
namespace OpenJobSpec.Testing
open Runs Serving

/-- The places of the jobs that were handed out, and the failures that were reported for a place. -/
structure Ledger where
  deliveries : List ℕ := []
  failures : List (ℕ × Fields) := []

namespace Ledger

/-- The failures reported for the job at a place, in their order. -/
def failuresOf (l : Ledger) (place : ℕ) : List Fields :=
  (l.failures.filter (·.1 = place)).map Prod.snd

def append (l l' : Ledger) : Ledger := ⟨l.deliveries ++ l'.deliveries, l.failures ++ l'.failures⟩

theorem failuresOf_append (l l' : Ledger) (place : ℕ) :
    (l.append l').failuresOf place = l.failuresOf place ++ l'.failuresOf place := by
  rw [failuresOf, append, List.filter_append, List.map_append]
  rfl

theorem count_append (l l' : Ledger) (place : ℕ) :
    (l.append l').deliveries.count place = l.deliveries.count place + l'.deliveries.count place :=
  List.count_append

/-- Nothing is written down for places from some place on. -/
structure Below (l : Ledger) (n : ℕ) : Prop where
  deliveries : ∀ i ∈ l.deliveries, i < n
  failures : ∀ p ∈ l.failures, p.1 < n

theorem Below.empty (n : ℕ) : ({} : Ledger).Below n :=
  ⟨List.forall_mem_nil _, List.forall_mem_nil _⟩

theorem Below.count {l : Ledger} {n place : ℕ} (h : l.Below n) (hplace : n ≤ place) :
    l.deliveries.count place = 0 :=
  List.count_eq_zero.mpr fun hmem => Nat.not_lt_of_le hplace (h.deliveries place hmem)

theorem Below.failuresOf {l : Ledger} {n place : ℕ} (h : l.Below n) (hplace : n ≤ place) :
    l.failuresOf place = [] := by
  have hnone : (l.failures.filter (·.1 = place)) = [] := by
    refine List.filter_eq_nil_iff.mpr fun p hp => ?_
    have hne : p.1 ≠ place := fun heq => Nat.not_lt_of_le hplace (heq ▸ h.failures p hp)
    simpa using hne
  rw [Ledger.failuresOf, hnone]
  rfl

theorem Below.append {l l' : Ledger} {n m : ℕ} (h : l.Below n) (h' : l'.Below m) (hle : n ≤ m) :
    (l.append l').Below m where
  deliveries i hi := by
    rcases List.mem_append.mp hi with hi | hi
    · exact Nat.lt_of_lt_of_le (h.deliveries i hi) hle
    · exact h'.deliveries i hi
  failures p hp := by
    rcases List.mem_append.mp hp with hp | hp
    · exact Nat.lt_of_lt_of_le (h.failures p hp) hle
    · exact h'.failures p hp

end Ledger

/-! ## What becomes of a job -/

/-- The states that the operations assign. -/
def FakeJob.HasState (job : FakeJob) : Prop :=
  job.state ∈ ["available", "active", "retryable", "completed", "discarded", "cancelled"]

/-- The job later: what was enqueued is as it was, its attempts are its deliveries, and its errors
are the failures that were reported. -/
structure FakeJob.Later (job job' : FakeJob) (deliveries : ℕ) (failures : List Fields) : Prop where
  id : job'.id = job.id
  type : job'.type = job.type
  queue : job'.queue = job.queue
  args : job'.args = job.args
  «meta» : job'.meta = job.meta
  options : job'.options = job.options
  attempt : job'.attempt = job.attempt + deliveries
  errors : job'.errors = job.errors ++ failures
  state : job.HasState → job'.HasState

namespace FakeJob
variable {job job' job'' : FakeJob}

theorem Later.refl (job : FakeJob) : job.Later job 0 [] where
  id := rfl
  type := rfl
  queue := rfl
  args := rfl
  «meta» := rfl
  options := rfl
  attempt := (Int.add_zero _).symm
  errors := (List.append_nil _).symm
  state hstate := hstate

theorem Later.trans {m n : ℕ} {failures failures' : List Fields}
    (h : job.Later job' m failures) (h' : job'.Later job'' n failures') :
    job.Later job'' (m + n) (failures ++ failures') where
  id := h'.id.trans h.id
  type := h'.type.trans h.type
  queue := h'.queue.trans h.queue
  args := h'.args.trans h.args
  «meta» := h'.meta.trans h.meta
  options := h'.options.trans h.options
  attempt := by
    rw [h'.attempt, h.attempt, Int.add_assoc, Int.natCast_add]
  errors := by
    rw [h'.errors, h.errors, List.append_assoc]
  state hstate := h'.state (h.state hstate)

end FakeJob

/-- A store later: its jobs are the earlier ones, further on by what is written down, and new ones
that are numbered in the order of their places. -/
structure FakeStore.Grows (s s' : FakeStore) (l : Ledger) : Prop where
  counted : s'.nextId = s'.enqueued.length
  below : l.Below s'.enqueued.length
  known : ∀ (i : ℕ) job, s.enqueued[i]? = some job → ∃ job', s'.enqueued[i]? = some job' ∧
    job.Later job' (l.deliveries.count i) (l.failuresOf i)
  fresh : ∀ (i : ℕ) job', s.enqueued.length ≤ i → s'.enqueued[i]? = some job' →
    job'.id = fakeId (i + 1) ∧ job'.attempt = l.deliveries.count i ∧
      job'.errors = l.failuresOf i ∧ job'.HasState

namespace FakeStore
variable {s s' s'' : FakeStore} {l l' : Ledger}

theorem Grows.length_le (h : Grows s s' l) : s.enqueued.length ≤ s'.enqueued.length := by
  by_contra hlt
  obtain ⟨job', hjob', -⟩ := h.known s'.enqueued.length _
    (List.getElem?_eq_getElem (Nat.lt_of_not_le hlt))
  exact absurd (List.getElem?_eq_some_iff.mp hjob').1 (Nat.lt_irrefl _)

theorem Grows.refl (h : s.nextId = s.enqueued.length) : Grows s s {} where
  counted := h
  below := .empty _
  known _ job hjob := ⟨job, hjob, .refl job⟩
  fresh _ _ hi hjob' := absurd (List.getElem?_eq_some_iff.mp hjob').1 (Nat.not_lt_of_le hi)

theorem Grows.trans (h : Grows s s' l) (h' : Grows s' s'' l') : Grows s s'' (l.append l') where
  counted := h'.counted
  below := h.below.append h'.below h'.length_le
  known i job hjob := by
    obtain ⟨job', hjob', hlater⟩ := h.known i job hjob
    obtain ⟨job'', hjob'', hlater'⟩ := h'.known i job' hjob'
    refine ⟨job'', hjob'', ?_⟩
    rw [Ledger.count_append, Ledger.failuresOf_append]
    exact hlater.trans hlater'
  fresh i job'' hi hjob'' := by
    rw [Ledger.count_append, Ledger.failuresOf_append]
    by_cases hmiddle : i < s'.enqueued.length
    · obtain ⟨hid, hattempt, herrors, hstate⟩ := h.fresh i _ hi (List.getElem?_eq_getElem hmiddle)
      obtain ⟨found, hfound, hlater⟩ := h'.known i _ (List.getElem?_eq_getElem hmiddle)
      rw [hjob''] at hfound
      cases hfound
      refine ⟨hlater.id.trans hid, ?_, ?_, hlater.state hstate⟩
      · rw [hlater.attempt, hattempt, Int.natCast_add]
      · rw [hlater.errors, herrors]
    · have hle := Nat.le_of_not_lt hmiddle
      rw [h.below.count hle, h.below.failuresOf hle, Nat.zero_add, List.nil_append]
      exact h'.fresh i job'' hle hjob''

/-! ## Ids and statistics -/

theorem fakeId_injective {m n : ℕ} (h : fakeId m = fakeId n) : m = n := by
  have hvalue (n : ℕ) : Nat.ofDigitChars 10 ((toString n).toList.leftpad 6 '0') 0 = n := by
    change Nat.ofDigitChars 10 (List.replicate _ '0' ++ n.repr.toList) 0 = n
    rw [Nat.ofDigitChars_append, Nat.ofDigitChars_replicate_zero, Nat.mul_zero, Nat.toList_repr,
      Nat.ofDigitChars_ten_toDigits]
  have hlist := congrArg String.toList h
  rw [fakeId, fakeId, String.toList_append, String.toList_append] at hlist
  have hpadded := List.append_cancel_left hlist
  rw [String.toList_ofList, String.toList_ofList] at hpadded
  rw [← hvalue m, hpadded, hvalue n]

/-- `sum(job.state == state for job in jobs)`. -/
def inState (jobs : List FakeJob) (state : String) : ℕ := jobs.countP (·.state = state)

def queueStats (s : FakeStore) (queueName : String) : QueueStats :=
  let jobs := s.enqueued.filter (·.queue = queueName)
  { queue := queueName
    status := "active"
    available := inState jobs "available"
    active := inState jobs "active"
    scheduled := inState jobs "scheduled"
    retryable := inState jobs "retryable"
    discarded := inState jobs "discarded" }

/-- Each job is in one of the states. -/
theorem inState_total {jobs : List FakeJob} (h : ∀ job ∈ jobs, job.HasState) :
    inState jobs "available" + inState jobs "active" + inState jobs "retryable" +
        inState jobs "discarded" + inState jobs "completed" + inState jobs "cancelled" =
      jobs.length ∧ inState jobs "scheduled" = 0 := by
  induction jobs with
  | nil => exact ⟨rfl, rfl⟩
  | cons job rest ih =>
    obtain ⟨hjob, hrest⟩ := List.forall_mem_cons.mp h
    obtain ⟨htotal, hscheduled⟩ := ih hrest
    have hcons (state : String) : inState (job :: rest) state =
        inState rest state + if job.state = state then 1 else 0 := by
      rw [inState, List.countP_cons]
      simp [inState]
    simp only [hcons, List.length_cons]
    simp only [FakeJob.HasState, List.mem_cons, List.not_mem_nil, or_false] at hjob
    rcases hjob with hstate | hstate | hstate | hstate | hstate | hstate
    all_goals
      simp only [hstate, String.reduceEq, if_true, if_false]
      omega

/-! ## The operations of the store -/

theorem grows_record (h : s.nextId = s.enqueued.length) (new : NewJob) :
    Grows s (s.recordEnqueue new) {} where
  counted := by
    change s.nextId + 1 = (s.enqueued ++ [_]).length
    rw [List.length_append, h]
    rfl
  below := .empty _
  known i job hjob := by
    refine ⟨job, ?_, .refl job⟩
    exact (List.getElem?_append_left (List.getElem?_eq_some_iff.mp hjob).1).trans hjob
  fresh i job' hi hjob' := by
    change (s.enqueued ++ [new.toFake (fakeId (s.nextId + 1))])[i]? = _ at hjob'
    rw [List.getElem?_append_right hi] at hjob'
    obtain ⟨rfl, -, rfl⟩ : i = s.enqueued.length ∧ True ∧
        new.toFake (fakeId (s.nextId + 1)) = job' := by
      obtain ⟨hlt, heq⟩ := List.getElem?_eq_some_iff.mp hjob'
      rw [List.length_singleton] at hlt
      have hi' : i = s.enqueued.length := by omega
      subst hi'
      simp only [Nat.sub_self, List.getElem_cons_zero] at heq
      exact ⟨rfl, trivial, heq⟩
    rw [h]
    exact ⟨rfl, rfl, rfl, List.mem_cons_self⟩

theorem grows_recordAll (h : s.nextId = s.enqueued.length) (jobs : List NewJob) :
    Grows s (s.recordAll jobs) {} := by
  induction jobs generalizing s with
  | nil => exact .refl h
  | cons new rest ih =>
    have hfirst := grows_record h new
    exact hfirst.trans (ih hfirst.counted)

/-- One job is assigned to. -/
theorem grows_put (h : s.nextId = s.enqueued.length) {place : ℕ} {job job' : FakeJob}
    (hjob : s.enqueued[place]? = some job)
    (hlater : job.Later job' (l.deliveries.count place) (l.failuresOf place))
    (hdeliveries : ∀ i ∈ l.deliveries, i = place) (hfailures : ∀ p ∈ l.failures, p.1 = place) :
    Grows s (s.put place job') l := by
  have hlt := (List.getElem?_eq_some_iff.mp hjob).1
  have hlength : (s.put place job').enqueued.length = s.enqueued.length := List.length_set
  refine ⟨h.trans hlength.symm, ⟨?_, ?_⟩, ?_, ?_⟩
  · intro i hi
    rw [hdeliveries i hi, hlength]
    exact hlt
  · intro p hp
    rw [hfailures p hp, hlength]
    exact hlt
  · intro i other hother
    by_cases hi : place = i
    · subst hi
      rw [hjob] at hother
      cases hother
      exact ⟨job', List.getElem?_set_self hlt, hlater⟩
    · have hcount : l.deliveries.count i = 0 :=
        List.count_eq_zero.mpr fun hmem => hi (hdeliveries i hmem).symm
      have hnone : l.failuresOf i = [] := by
        rw [Ledger.failuresOf, List.map_eq_nil_iff, List.filter_eq_nil_iff]
        intro p hp
        simpa [hfailures p hp] using hi
      rw [hcount, hnone]
      exact ⟨other, (List.getElem?_set_ne hi).trans hother, .refl other⟩
  · intro i other hi hother
    rw [put_enqueued] at hother
    exact absurd (hlength ▸ (List.getElem?_eq_some_iff.mp hother).1) (Nat.not_lt_of_le hi)

theorem started_later (job : FakeJob) : job.Later job.started 1 [] where
  id := rfl
  type := rfl
  queue := rfl
  args := rfl
  «meta» := rfl
  options := rfl
  attempt := rfl
  errors := (List.append_nil _).symm
  state _ := List.mem_cons_of_mem _ List.mem_cons_self

/-- The job with another state and another result. -/
theorem assigned_later (job : FakeJob) {state : String} (result : Json)
    (hstate : state ∈ ["available", "active", "retryable", "completed", "discarded", "cancelled"]) :
    job.Later { job with state := state, result := result } 0 [] where
  id := rfl
  type := rfl
  queue := rfl
  args := rfl
  «meta» := rfl
  options := rfl
  attempt := (Int.add_zero _).symm
  errors := (List.append_nil _).symm
  state _ := hstate

theorem fetchLoop_jobs (queues : List String) (count : ℤ) (place selected : ℕ)
    (jobs : List FakeJob) :
    (fetchLoop queues count place selected jobs).1.length = jobs.length := by
  fun_induction fetchLoop queues count place selected jobs with
  | case1 => rfl
  | case2 => rfl
  | case3 _ _ _ _ _ _ ih | case4 _ _ _ _ _ _ ih => rw [List.length_cons, List.length_cons, ih]

theorem grows_fetch (h : s.nextId = s.enqueued.length) (queues : List String) (count : ℤ) :
    Grows s (s.fetch queues count).1 ⟨(s.fetch queues count).2.map Prod.fst, []⟩ := by
  have hfetched := s.fetch_fetched queues count
  have hnodup : ((s.fetch queues count).2.map Prod.fst).Nodup :=
    hfetched.in_order.imp fun hlt => Nat.ne_of_lt hlt
  have hlength : (s.fetch queues count).1.enqueued.length = s.enqueued.length :=
    fetchLoop_jobs queues count 0 0 s.enqueued
  refine ⟨h.trans hlength.symm, ⟨?_, List.forall_mem_nil _⟩, ?_, ?_⟩
  · intro i hi
    obtain ⟨p, hp, rfl⟩ := List.mem_map.mp hi
    obtain ⟨job, hjob, -⟩ := hfetched.taken p hp
    rw [hlength]
    exact (List.getElem?_eq_some_iff.mp hjob).1
  · intro i job hjob
    by_cases hi : i ∈ (s.fetch queues count).2.map Prod.fst
    · obtain ⟨p, hp, rfl⟩ := List.mem_map.mp hi
      obtain ⟨job', hjob', -, hstarted, -⟩ := hfetched.taken p hp
      rw [hjob] at hjob'
      cases hjob'
      rw [List.count_eq_one_of_mem hnodup hi]
      exact ⟨_, hstarted, started_later job⟩
    · rw [List.count_eq_zero.mpr hi]
      exact ⟨job, (hfetched.others i hi).trans hjob, .refl job⟩
  · intro i job' hi hjob'
    exact absurd (hlength ▸ (List.getElem?_eq_some_iff.mp hjob').1) (Nat.not_lt_of_le hi)

theorem grows_cancel (h : s.nextId = s.enqueued.length) (jobId : String) :
    Grows s (s.cancel jobId).1 {} := by
  unfold cancel
  cases hfind : s.find jobId with
  | error e => exact .refl h
  | ok found =>
    exact grows_put h (getElem_of_find hfind) (assigned_later found.2 found.2.result (by decide))
      (List.forall_mem_nil _) (List.forall_mem_nil _)

theorem grows_ack (h : s.nextId = s.enqueued.length) (jobId : String) (result : Json) :
    Grows s (s.ack jobId result).1 {} := by
  unfold ack
  cases hfind : s.find jobId with
  | error e => exact .refl h
  | ok found =>
    exact grows_put h (getElem_of_find hfind) (assigned_later found.2 result (by decide))
      (List.forall_mem_nil _) (List.forall_mem_nil _)

/-- The failure that a report of it writes down. -/
def reported (s : FakeStore) (jobId : String) (error : Fields) : List (ℕ × Fields) :=
  match s.find jobId with
  | .error _ => []
  | .ok (place, _) => [(place, error)]

theorem grows_nack (h : s.nextId = s.enqueued.length) (jobId : String) (error : Fields) :
    Grows s (s.nack jobId error).1 ⟨[], s.reported jobId error⟩ := by
  unfold nack reported
  cases hfind : s.find jobId with
  | error e => exact .refl h
  | ok found =>
    obtain ⟨place, job⟩ := found
    refine grows_put h (getElem_of_find hfind) ?_ (List.forall_mem_nil _) ?_
    · have hfailures : (⟨[], [(place, error)]⟩ : Ledger).failuresOf place = [error] := by
        simp [Ledger.failuresOf]
      rw [hfailures]
      refine ⟨rfl, rfl, rfl, rfl, rfl, rfl, (Int.add_zero _).symm, rfl, fun _ => ?_⟩
      dsimp only [FakeJob.HasState]
      split <;> decide
    · rintro p (_ | ⟨_, ⟨⟩⟩)
      rfl

theorem grows_push (conversions : Conversions) (h : s.nextId = s.enqueued.length)
    (body : Fields) : Grows s (s.push conversions body).1 {} := by
  unfold push
  split
  · exact .refl h
  · exact grows_record h _

theorem grows_pushBatch (conversions : Conversions) (h : s.nextId = s.enqueued.length)
    (jobs : List Fields) : Grows s (s.pushBatch conversions jobs).1 {} := by
  fun_induction pushBatch conversions s jobs with
  | case1 => exact .refl h
  | case2 s body rest pushed e hpush =>
    have hfirst := grows_push conversions h body
    rwa [hpush] at hfirst
  | case3 s body rest pushed job hpush ih =>
    have hfirst := grows_push conversions h body
    rw [hpush] at hfirst
    exact hfirst.trans (ih hfirst.counted)

end FakeStore

namespace FakeBackend
variable {W : Type} {conversions : Conversions} {handlers : Handlers W} {b c : FakeBackend W}

/-! ## The drain -/

variable (handlers) in
theorem grows_perform (h : b.store.nextId = b.store.enqueued.length) {place : ℕ} {job : FakeJob}
    (hjob : b.store.enqueued[place]? = some job) :
    FakeStore.Grows b.store (b.perform handlers place job).store ⟨[place], []⟩ := by
  let ran := b.handle handlers place job
  have hstart : FakeStore.Grows b.store (b.store.put place job.started) ⟨[place], []⟩ := by
    refine FakeStore.grows_put h hjob ?_ (fun i hi => List.mem_singleton.mp hi)
      (List.forall_mem_nil _)
    rw [List.count_singleton_self]
    exact FakeStore.started_later job
  have hrecord := FakeStore.grows_recordAll hstart.counted ran.enqueues
  have hstarted : ((b.store.put place job.started).recordAll ran.enqueues).enqueued[place]? =
      some job.started := by
    have hlt := (List.getElem?_eq_some_iff.mp hjob).1
    rw [FakeStore.recordAll_enqueued, FakeStore.put_enqueued,
      List.getElem?_append_left (by rwa [List.length_set]), List.getElem?_set_self hlt]
  have hended : FakeStore.Grows ((b.store.put place job.started).recordAll ran.enqueues)
      (((b.store.put place job.started).recordAll ran.enqueues).put place
        (job.started.ended ran.raises)) {} := by
    refine FakeStore.grows_put hrecord.counted hstarted ?_ (List.forall_mem_nil _)
      (List.forall_mem_nil _)
    exact FakeStore.assigned_later job.started job.result (by split <;> decide)
  have hall := (hstart.trans hrecord).trans hended
  exact ⟨hall.counted, hall.below, hall.known, hall.fresh⟩

theorem grows_steps (h : b.store.nextId = b.store.enqueued.length) {served : List (ℕ × Bool)}
    (hsteps : Steps (serveFirst handlers) b served c) :
    FakeStore.Grows b.store c.store ⟨served.map Prod.fst, []⟩ := by
  induction hsteps with
  | nil b => exact .refl h
  | cons hfirst _ ih =>
    obtain ⟨job, hjob, -, -, -, rfl⟩ := serveFirst_eq_some hfirst
    have hperform := grows_perform handlers h hjob
    exact hperform.trans (ih hperform.counted)

/-! ## Runs -/

/-- What an operation writes down. -/
def entry (handlers : Handlers W) (b : FakeBackend W) (operation : FakeOperation) : Ledger where
  deliveries := b.taken handlers operation
  failures := match operation with
    | .nack jobId error => b.store.reported jobId error
    | .push _ | .pushBatch _ | .fetch _ _ | .ack _ _ | .cancel _ | .drain _ => []

/-- What a run writes down. -/
def ledger (conversions : Conversions) (handlers : Handlers W) :
    FakeBackend W → List FakeOperation → Ledger
  | _, [] => {}
  | b, operation :: rest =>
    (b.entry handlers operation).append
      (ledger conversions handlers (b.after conversions handlers operation) rest)

variable (conversions handlers) in
theorem grows_after (h : b.store.nextId = b.store.enqueued.length) (operation : FakeOperation) :
    FakeStore.Grows b.store (b.after conversions handlers operation).store
      (b.entry handlers operation) := by
  cases operation with
  | push body => exact FakeStore.grows_push conversions h body
  | pushBatch jobs => exact FakeStore.grows_pushBatch conversions h jobs
  | fetch queues count => exact FakeStore.grows_fetch h queues count
  | ack jobId result => exact FakeStore.grows_ack h jobId result
  | nack jobId error => exact FakeStore.grows_nack h jobId error
  | cancel jobId => exact FakeStore.grows_cancel h jobId
  | drain maxJobs =>
    obtain ⟨served, later, hsteps, hserved, -⟩ := drain_served handlers b maxJobs
    have htaken : b.taken handlers (.drain maxJobs) = served.map Prod.fst := by
      rw [taken, hserved.performed, List.drop_left]
    rw [entry, htaken]
    exact grows_steps h hsteps

variable (conversions handlers) in
theorem grows_run (h : b.store.nextId = b.store.enqueued.length)
    (operations : List FakeOperation) :
    FakeStore.Grows b.store (run (next conversions handlers) b operations).store
      (ledger conversions handlers b operations) := by
  induction operations generalizing b with
  | nil => exact .refl h
  | cons operation rest ih =>
    have hfirst := grows_after conversions handlers h operation
    exact hfirst.trans (ih hfirst.counted)

/-- After every run of operations on a new transport the jobs have different ids, a job's attempts
are the times that it was fetched or drained and its errors the failures that were reported for it,
what it was enqueued with is as it was at any time before, and the statistics of a queue leave out
just the jobs that are completed or cancelled. -/
theorem ledger_balances (conversions : Conversions) (handlers : Handlers W) (world : W)
    (operations : List FakeOperation) :
    let s := (run (next conversions handlers) ⟨.empty, world⟩ operations).store
    let l := ledger conversions handlers ⟨.empty, world⟩ operations
    (s.enqueued.map FakeJob.id).Nodup ∧
    (∀ (i : ℕ) job, s.enqueued[i]? = some job → job.id = fakeId (i + 1) ∧
      job.attempt = l.deliveries.count i ∧ job.errors = l.failuresOf i) ∧
    (∀ before, before <+: operations → ∀ (i : ℕ) job,
      (run (next conversions handlers) ⟨.empty, world⟩ before).store.enqueued[i]? = some job →
      ∃ job', s.enqueued[i]? = some job' ∧ job'.type = job.type ∧ job'.queue = job.queue ∧
        job'.args = job.args ∧ job'.meta = job.meta ∧ job'.options = job.options) ∧
    ∀ queueName, let jobs := s.enqueued.filter (·.queue = queueName)
      let stats := s.queueStats queueName
      stats.scheduled = 0 ∧
      stats.available + stats.active + stats.retryable + stats.discarded +
        FakeStore.inState jobs "completed" + FakeStore.inState jobs "cancelled" = jobs.length := by
  intro s l
  have hgrows := grows_run (b := ⟨.empty, world⟩) conversions handlers rfl operations
  have hfresh : ∀ (i : ℕ) job, s.enqueued[i]? = some job → job.id = fakeId (i + 1) ∧
      job.attempt = l.deliveries.count i ∧ job.errors = l.failuresOf i ∧ job.HasState :=
    fun i job hjob => hgrows.fresh i job (Nat.zero_le i) hjob
  refine ⟨?_, fun i job hjob => ?_, ?_, ?_⟩
  · rw [List.Nodup, List.pairwise_map, List.pairwise_iff_getElem]
    intro i j hi hj hlt heq
    rw [(hfresh i _ (List.getElem?_eq_getElem hi)).1,
      (hfresh j _ (List.getElem?_eq_getElem hj)).1] at heq
    have := FakeStore.fakeId_injective heq
    omega
  · obtain ⟨hid, hattempt, herrors, -⟩ := hfresh i job hjob
    exact ⟨hid, hattempt, herrors⟩
  · rintro before ⟨rest, rfl⟩ i job hjob
    have hbefore := grows_run (b := ⟨.empty, world⟩) conversions handlers rfl before
    have hrest := grows_run conversions handlers hbefore.counted rest
    rw [← run_append] at hrest
    obtain ⟨job', hjob', hlater⟩ := hrest.known i job hjob
    exact ⟨job', hjob', hlater.type, hlater.queue, hlater.args, hlater.meta, hlater.options⟩
  · intro queueName jobs stats
    have hstates : ∀ job ∈ jobs, job.HasState := by
      intro job hmem
      obtain ⟨i, hi⟩ := List.mem_iff_getElem?.mp (List.mem_of_mem_filter hmem)
      exact (hfresh i job hi).2.2.2
    obtain ⟨htotal, hscheduled⟩ := FakeStore.inState_total hstates
    refine ⟨congrArg Nat.cast hscheduled, ?_⟩
    change ((_ : ℕ) : ℤ) + ((_ : ℕ) : ℤ) + ((_ : ℕ) : ℤ) + ((_ : ℕ) : ℤ) + _ + _ = _
    exact_mod_cast htotal

end FakeBackend

end OpenJobSpec.Testing
