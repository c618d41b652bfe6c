import OpenJobSpec.Foundation.Serving
import OpenJobSpec.Testing.FakeStore
import Mathlib.Algebra.Order.Group.Int

/-! # Draining the fake store

The drain walks over the list of enqueued jobs while handlers append to it, and
stops at a limit that it computes from the list before the first handler runs.
-/
namespace OpenJobSpec.Testing
open Serving

/-- What a handler did: the jobs that it enqueued, whether it raised, and its own state. -/
structure HandlerRun (W : Type) where
  enqueues : List NewJob
  raises : Bool
  world : W

/-- A handler sees the store, the job that it is called with, and its own state. -/
abbrev Handler (W : Type) := FakeStore → FakeJob → W → HandlerRun W

/-- The registered handlers, by job type. -/
abbrev Handlers (W : Type) := String → Option (Handler W)

structure FakeBackend (W : Type) where
  store : FakeStore
  world : W

namespace FakeJob

def IsAvailable (job : FakeJob) : Prop := job.state = "available"

instance : DecidablePred IsAvailable := fun job => inferInstanceAs (Decidable (job.state = _))

def started (job : FakeJob) : FakeJob := { job with state := "active", attempt := job.attempt + 1 }

def ended (job : FakeJob) (raised : Bool) : FakeJob :=
  { job with state := if raised then "discarded" else "completed" }

/-- The job after its handler. -/
def processed (job : FakeJob) (raised : Bool) : FakeJob := job.started.ended raised

theorem processed_not_available (job : FakeJob) (raised : Bool) :
    ¬(job.processed raised).IsAvailable := by
  cases raised <;> exact of_decide_eq_false rfl

end FakeJob

namespace FakeBackend
variable {W : Type} (handlers : Handlers W) (b : FakeBackend W)

/-- The call of the handler; without one, the job completes at once. -/
def handle (place : ℕ) (job : FakeJob) : HandlerRun W :=
  match handlers job.type with
  | some handler => handler (b.store.put place job.started) job.started b.world
  | none => ⟨[], false, b.world⟩

/-- One turn of the drain, for an available job. -/
def perform (place : ℕ) (job : FakeJob) : FakeBackend W :=
  let ran := b.handle handlers place job
  let store := (b.store.put place job.started).recordAll ran.enqueues
  { store := { store.put place (job.started.ended ran.raises) with
      performed := store.performed ++ [place] }
    world := ran.world }

/-- The loop over the enqueued jobs, at a place of the list and with a count of processed jobs. -/
def drainLoop (limit : ℤ) (b : FakeBackend W) (place processed : ℕ) : FakeBackend W × ℕ :=
  match hjob : b.store.enqueued[place]? with
  | none => (b, processed)
  | some job =>
    if hlimit : limit ≤ processed then (b, processed)
    else if job.IsAvailable then
      drainLoop limit (b.perform handlers place job) (place + 1) (processed + 1)
    else drainLoop limit b (place + 1) processed
termination_by ((limit - processed).toNat, b.store.enqueued.length - place)
decreasing_by
  · exact .left _ _ (by omega)
  · have hplace := (List.getElem?_eq_some_iff.mp hjob).1
    exact .right _ (by omega)

/-- `max_jobs or len(enqueued)`. -/
def drainLimit (maxJobs : Option ℤ) : ℤ :=
  match maxJobs with
  | none | some 0 => b.store.enqueued.length
  | some limit => limit

def drain (maxJobs : Option ℤ) : FakeBackend W × ℕ :=
  drainLoop handlers (b.drainLimit maxJobs) b 0 0

/-! ## Serving the first available job -/

/-- The place and the outcome of the first available job, and the backend after its handler. -/
def serveFirst : Option ((ℕ × Bool) × FakeBackend W) :=
  match b.store.enqueued.findIdx? fun job => job.IsAvailable with
  | none => none
  | some place => b.store.enqueued[place]?.map fun job =>
    ((place, (b.handle handlers place job).raises), b.perform handlers place job)

/-- No job before a place is available. -/
def Passed (b : FakeBackend W) (place : ℕ) : Prop :=
  ∀ i < place, ∀ job, b.store.enqueued[i]? = some job → ¬job.IsAvailable

variable {handlers b}

theorem serveFirst_eq_none :
    b.serveFirst handlers = none ↔ ∀ job ∈ b.store.enqueued, ¬job.IsAvailable := by
  unfold serveFirst
  split
  next hnone =>
    rw [List.findIdx?_eq_none_iff] at hnone
    exact iff_of_true rfl fun job hjob => of_decide_eq_false (hnone job hjob)
  next place hplace =>
    obtain ⟨hlt, havailable, -⟩ := List.findIdx?_eq_some_iff_getElem.mp hplace
    rw [List.getElem?_eq_getElem hlt]
    refine iff_of_false (by intro h; cases h) ?_
    intro hall
    exact hall _ (List.getElem_mem hlt) (of_decide_eq_true havailable)

variable (handlers) in
theorem serveFirst_of_first {place : ℕ} {job : FakeJob} (hpassed : b.Passed place)
    (hjob : b.store.enqueued[place]? = some job) (havailable : job.IsAvailable) :
    b.serveFirst handlers =
      some ((place, (b.handle handlers place job).raises), b.perform handlers place job) := by
  obtain ⟨hlt, hget⟩ := List.getElem?_eq_some_iff.mp hjob
  have hfind : (b.store.enqueued.findIdx? fun job => job.IsAvailable) = some place := by
    rw [List.findIdx?_eq_some_iff_getElem]
    refine ⟨hlt, ?_, ?_⟩
    · rw [hget]
      exact decide_eq_true havailable
    · intro i hi
      have := hpassed i hi _ (List.getElem?_eq_getElem (hi.trans hlt))
      simpa using this
  rw [serveFirst, hfind]
  simp only [hjob, Option.map_some]

theorem serveFirst_eq_some {served : ℕ × Bool} {c : FakeBackend W}
    (h : b.serveFirst handlers = some (served, c)) :
    ∃ job, b.store.enqueued[served.1]? = some job ∧ job.IsAvailable ∧ b.Passed served.1 ∧
      served.2 = (b.handle handlers served.1 job).raises ∧ c = b.perform handlers served.1 job := by
  unfold serveFirst at h
  split at h
  next => cases h
  next place hplace =>
    obtain ⟨hlt, havailable, hbefore⟩ := List.findIdx?_eq_some_iff_getElem.mp hplace
    rw [List.getElem?_eq_getElem hlt] at h
    cases h
    refine ⟨_, List.getElem?_eq_getElem hlt, of_decide_eq_true havailable, ?_, rfl, rfl⟩
    intro i hi job hjob
    obtain ⟨hi', rfl⟩ := List.getElem?_eq_some_iff.mp hjob
    simpa using hbefore i hi

variable {c : FakeBackend W}

/-- The job objects that a turn of the drain adds. -/
def arrived (handlers : Handlers W) (b : FakeBackend W) (place : ℕ) (job : FakeJob) :
    List FakeJob :=
  arrivals b.store.nextId (b.handle handlers place job).enqueues

theorem perform_enqueued {place : ℕ} {job : FakeJob} (h : b.store.enqueued[place]? = some job) :
    (b.perform handlers place job).store.enqueued =
      b.store.enqueued.set place (job.processed (b.handle handlers place job).raises) ++
        b.arrived handlers place job := by
  have hlt : place < (b.store.enqueued.set place job.started).length := by
    rw [List.length_set]
    exact (List.getElem?_eq_some_iff.mp h).1
  change (FakeStore.recordAll _ _).enqueued.set place _ = _
  rw [FakeStore.recordAll_enqueued, FakeStore.put_enqueued, List.set_append_left _ _ hlt,
    List.set_set]
  rfl

theorem perform_performed (place : ℕ) (job : FakeJob) :
    (b.perform handlers place job).store.performed = b.store.performed ++ [place] := by
  change (FakeStore.recordAll _ _).performed ++ _ = _
  rw [FakeStore.recordAll_performed, FakeStore.put_performed]

variable (handlers) in
theorem perform_passed {place : ℕ} {job : FakeJob} (hpassed : b.Passed place)
    (h : b.store.enqueued[place]? = some job) :
    (b.perform handlers place job).Passed (place + 1) := by
  have hlt := (List.getElem?_eq_some_iff.mp h).1
  intro i hi job' hjob'
  rw [perform_enqueued h, List.getElem?_append_left (by rw [List.length_set]; omega)] at hjob'
  rcases Nat.lt_succ_iff_lt_or_eq.mp hi with hbefore | rfl
  · rw [List.getElem?_set_ne hbefore.ne'] at hjob'
    exact hpassed i hbefore job' hjob'
  · rw [List.getElem?_set_self hlt] at hjob'
    cases hjob'
    exact job.processed_not_available _

/-- The loop serves the first available job until its limit. -/
theorem drainLoop_eq (handlers : Handlers W) (limit : ℤ) (b : FakeBackend W)
    (place processed : ℕ) (hpassed : b.Passed place) :
    drainLoop handlers limit b place processed =
      ((upTo (serveFirst handlers) (limit - processed).toNat b).2,
        processed + (upTo (serveFirst handlers) (limit - processed).toNat b).1.length) := by
  fun_induction drainLoop handlers limit b place processed with
  | case1 b place processed hnone =>
    have hdone : b.serveFirst handlers = none := by
      rw [serveFirst_eq_none]
      intro job hjob
      obtain ⟨i, hi⟩ := List.mem_iff_getElem?.mp hjob
      have hlt := (List.getElem?_eq_some_iff.mp hi).1
      exact hpassed i (hlt.trans_le (List.getElem?_eq_none_iff.mp hnone)) job hi
    rw [upTo_of_none hdone]
    rfl
  | case2 b place processed job hjob hlimit =>
    rw [Int.toNat_of_nonpos (by omega)]
    rfl
  | case3 b place processed job hjob hlimit havailable ih =>
    have hserve := serveFirst_of_first handlers hpassed hjob havailable
    have hleft : (limit - processed).toNat = (limit - (processed + 1 : ℕ)).toNat + 1 := by omega
    rw [ih (perform_passed handlers hpassed hjob), hleft, upTo_succ_some hserve, List.length_cons,
      Nat.add_assoc, Nat.add_comm 1]
  | case4 b place processed job hjob hlimit hskipped ih =>
    refine ih ?_
    intro i hi job' hjob'
    rcases Nat.lt_succ_iff_lt_or_eq.mp hi with hbefore | rfl
    · exact hpassed i hbefore job' hjob'
    · rw [hjob] at hjob'
      cases hjob'
      exact hskipped

theorem drain_eq (handlers : Handlers W) (b : FakeBackend W) (maxJobs : Option ℤ) :
    b.drain handlers maxJobs =
      ((upTo (serveFirst handlers) (b.drainLimit maxJobs).toNat b).2,
        (upTo (serveFirst handlers) (b.drainLimit maxJobs).toNat b).1.length) := by
  have hpassed : b.Passed 0 := by
    intro i hi
    cases hi
  rw [drain, drainLoop_eq _ _ _ _ _ hpassed, Int.natCast_zero, Int.sub_zero, Nat.zero_add]

/-! ## What a run of the drain leaves -/

/-- What serving jobs, with the outcome of each, leaves of the jobs that were enqueued before and of
those that the handlers enqueued. -/
structure Served (b : FakeBackend W) (later : List FakeJob) (served : List (ℕ × Bool))
    (c : FakeBackend W) : Prop where
  later_available : ∀ job ∈ later, job.IsAvailable ∧ job.attempt = 0
  in_order : (served.map Prod.fst).Pairwise (· < ·)
  performed : c.store.performed = b.store.performed ++ served.map Prod.fst
  taken : ∀ p ∈ served, ∃ job, (b.store.enqueued ++ later)[p.1]? = some job ∧ job.IsAvailable ∧
    c.store.enqueued[p.1]? = some (job.processed p.2)
  others : ∀ i ∉ served.map Prod.fst, c.store.enqueued[i]? = (b.store.enqueued ++ later)[i]?

variable (handlers) in
theorem perform_later {place : ℕ} {job : FakeJob} (h : b.store.enqueued[place]? = some job)
    (later : List FakeJob) :
    (b.perform handlers place job).store.enqueued ++ later =
      (b.store.enqueued ++ (b.arrived handlers place job ++ later)).set place
        (job.processed (b.handle handlers place job).raises) := by
  rw [perform_enqueued h, List.append_assoc,
    List.set_append_left _ _ (List.getElem?_eq_some_iff.mp h).1]

/-- A turn before the others: none of them comes back to its job or to one before it. -/
theorem Served.cons {place : ℕ} {job : FakeJob} {later : List FakeJob} {rest : List (ℕ × Bool)}
    (hpassed : b.Passed place) (hjob : b.store.enqueued[place]? = some job)
    (havailable : job.IsAvailable)
    (h : Served (b.perform handlers place job) later rest c) :
    Served b (b.arrived handlers place job ++ later)
      ((place, (b.handle handlers place job).raises) :: rest) c := by
  have hlt := (List.getElem?_eq_some_iff.mp hjob).1
  have hlist := perform_later handlers hjob later
  have hbehind : ∀ i ∈ rest.map Prod.fst, place < i := by
    intro i hi
    obtain ⟨p, hp, rfl⟩ := List.mem_map.mp hi
    obtain ⟨job', hjob', havailable', -⟩ := h.taken p hp
    by_contra hle
    refine perform_passed handlers hpassed hjob p.1 (by omega) job' ?_ havailable'
    rw [← hjob', List.getElem?_append_left]
    rw [perform_enqueued hjob, List.length_append, List.length_set]
    omega
  have hnotin : place ∉ rest.map Prod.fst := fun hmem => (hbehind place hmem).false
  refine ⟨?_, List.pairwise_cons.mpr ⟨hbehind, h.in_order⟩, ?_, ?_, ?_⟩
  · intro job' hjob'
    rcases List.mem_append.mp hjob' with harrived | hlater
    · exact of_mem_arrivals harrived
    · exact h.later_available job' hlater
  · rw [h.performed, perform_performed, List.append_assoc]
    rfl
  · intro p hp
    rcases List.mem_cons.mp hp with rfl | hrest
    · refine ⟨job, ?_, havailable, ?_⟩
      · rw [List.getElem?_append_left hlt, hjob]
      · rw [h.others place hnotin, hlist, List.getElem?_set_self]
        rw [List.length_append]
        omega
    · obtain ⟨job', hjob', hrest'⟩ := h.taken p hrest
      have hne := (hbehind p.1 (List.mem_map_of_mem hrest)).ne
      rw [hlist, List.getElem?_set_ne hne] at hjob'
      exact ⟨job', hjob', hrest'⟩
  · intro i hi
    rw [List.map_cons, List.mem_cons, not_or] at hi
    rw [h.others i hi.2, hlist, List.getElem?_set_ne (Ne.symm hi.1)]

theorem served_of_steps {served : List (ℕ × Bool)} (h : Steps (serveFirst handlers) b served c) :
    ∃ later, Served b later served c := by
  induction h with
  | nil b =>
    refine ⟨[], List.forall_mem_nil _, .nil, (List.append_nil _).symm, List.forall_mem_nil _, ?_⟩
    intro i _
    rw [List.append_nil]
  | cons hfirst _ ih =>
    obtain ⟨job, hjob, havailable, hpassed, hraised, rfl⟩ := serveFirst_eq_some hfirst
    obtain ⟨later, hserved⟩ := ih
    have hcons := hserved.cons hpassed hjob havailable
    rw [← hraised] at hcons
    exact ⟨_, hcons⟩

/-- What a drain does whatever its limit is. -/
theorem drain_served (handlers : Handlers W) (b : FakeBackend W) (maxJobs : Option ℤ) :
    ∃ served later, Steps (serveFirst handlers) b served (b.drain handlers maxJobs).1 ∧
      Served b later served (b.drain handlers maxJobs).1 ∧
      (b.drain handlers maxJobs).2 = served.length := by
  have hsteps := steps_upTo (serveFirst handlers) (b.drainLimit maxJobs).toNat b
  obtain ⟨later, hserved⟩ := served_of_steps hsteps
  rw [drain_eq]
  exact ⟨_, later, hsteps, hserved, rfl⟩

end FakeBackend
end OpenJobSpec.Testing
