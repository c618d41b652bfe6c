import OpenJobSpec.Testing.Drain
import Mathlib.Data.List.Count

/-! # Which drains process every job they should

A drain processes the first of all the jobs that there are to serve, up to its
limit. The limit is right for every positive bound, and wrong for the bound zero
and for the drains without a bound that handlers feed.
-/
namespace OpenJobSpec.Testing
open Serving

namespace FakeBackend
variable {W : Type} {handlers : Handlers W} {b c : FakeBackend W}

/-! ## How many jobs there are to serve -/

/-- The number of available jobs. -/
def waiting (b : FakeBackend W) : ℕ := b.store.enqueued.countP fun job => job.IsAvailable

theorem waiting_eq_zero : b.waiting = 0 ↔ ∀ job ∈ b.store.enqueued, ¬job.IsAvailable := by
  rw [waiting, List.countP_eq_zero]
  exact forall₂_congr fun job _ => not_congr decide_eq_true_iff

theorem length_eq_waiting_add (b : FakeBackend W) : b.store.enqueued.length =
    b.waiting + b.store.enqueued.countP fun job => ¬job.IsAvailable := by
  rw [waiting, List.length_eq_countP_add_countP (fun job => decide job.IsAvailable)]
  simp only [decide_eq_true_eq]

variable (handlers) in
theorem waiting_perform {place : ℕ} {job : FakeJob} (hjob : b.store.enqueued[place]? = some job)
    (havailable : job.IsAvailable) :
    (b.perform handlers place job).waiting + 1 + b.store.enqueued.length =
      b.waiting + (b.perform handlers place job).store.enqueued.length := by
  obtain ⟨hlt, hget⟩ := List.getElem?_eq_some_iff.mp hjob
  have hpos : 0 < b.store.enqueued.countP fun job => job.IsAvailable :=
    List.countP_pos_iff.mpr ⟨job, List.mem_of_getElem? hjob, decide_eq_true havailable⟩
  have harrived : (b.arrived handlers place job).countP (fun job => job.IsAvailable) =
      (b.arrived handlers place job).length :=
    List.countP_eq_length.mpr fun job hjob => decide_eq_true (of_mem_arrivals hjob).1
  rw [waiting, waiting, perform_enqueued hjob, List.countP_append, List.countP_set hlt, hget,
    harrived, if_pos (decide_eq_true havailable),
    if_neg (by simpa using job.processed_not_available _), List.length_append, List.length_set]
  omega

theorem waiting_steps {served : List (ℕ × Bool)} (h : Steps (serveFirst handlers) b served c) :
    c.waiting + served.length + b.store.enqueued.length =
      b.waiting + c.store.enqueued.length := by
  induction h with
  | nil => rfl
  | cons hfirst _ ih =>
    obtain ⟨job, hjob, havailable, -, -, rfl⟩ := serveFirst_eq_some hfirst
    have hturn := waiting_perform handlers hjob havailable
    rw [List.length_cons]
    omega

theorem length_le_of_steps {served : List (ℕ × Bool)} (h : Steps (serveFirst handlers) b served c) :
    b.store.enqueued.length ≤ c.store.enqueued.length := by
  refine h.invariant (fun u => b.store.enqueued.length ≤ u.store.enqueued.length) ?_ le_rfl
  intro s p t hle hnext
  obtain ⟨job, hjob, -, -, -, rfl⟩ := serveFirst_eq_some hnext
  rw [perform_enqueued hjob, List.length_append, List.length_set]
  omega

/-- The jobs to serve, all in all, are the available ones and those that handlers enqueue until no
job is available any more. -/
theorem length_of_completes {all : List (ℕ × Bool)}
    (h : Completes (serveFirst handlers) b all c) :
    all.length = b.waiting + (c.store.enqueued.length - b.store.enqueued.length) := by
  have hcount := waiting_steps h.steps
  have hsettled := waiting_eq_zero.mpr (serveFirst_eq_none.mp h.settled)
  have hgrows := length_le_of_steps h.steps
  omega

/-! ## The law of the drain -/

/-- The law of a drain, where the settled backend holds what the handlers enqueue in addition. -/
structure DrainLaw (handlers : Handlers W) (b settled : FakeBackend W) (maxJobs : Option ℕ)
    (result : FakeBackend W × ℕ) : Prop where
  served : ∃ served later, Steps (serveFirst handlers) b served result.1 ∧
    Served b later served result.1 ∧ result.2 = served.length
  count : ∀ m, maxJobs = some m →
    result.2 = min m (b.waiting + (settled.store.enqueued.length - b.store.enqueued.length))
  emptied : maxJobs = none → ∀ job ∈ result.1.store.enqueued, ¬job.IsAvailable

/-- With the bound zero no job is available; without a bound, the handlers enqueue no more jobs than
the store held in other states. -/
def InLimit (b settled : FakeBackend W) : Option ℕ → Prop
  | some 0 => ∀ job ∈ b.store.enqueued, ¬job.IsAvailable
  | some (_ + 1) => True
  | none => settled.store.enqueued.length - b.store.enqueued.length ≤
      b.store.enqueued.countP fun job => ¬job.IsAvailable

theorem drain_count {all : List (ℕ × Bool)} (h : Completes (serveFirst handlers) b all c)
    (maxJobs : Option ℤ) :
    (b.drain handlers maxJobs).2 = min (b.drainLimit maxJobs).toNat all.length := by
  rw [drain_eq]
  change List.length (upTo _ _ _).1 = _
  rw [h.upTo_fst, List.length_take]

theorem drain_emptied_iff {all : List (ℕ × Bool)} (h : Completes (serveFirst handlers) b all c)
    (maxJobs : Option ℤ) :
    (∀ job ∈ (b.drain handlers maxJobs).1.store.enqueued, ¬job.IsAvailable) ↔
      all.length ≤ (b.drainLimit maxJobs).toNat := by
  rw [drain_eq]
  exact serveFirst_eq_none.symm.trans (h.upTo_settled_iff _)

/-- A drain keeps its law exactly when its limit is the bound that it was given, or, without one, as
large as the number of jobs to serve. -/
theorem drain_law_iff (handlers : Handlers W) (b : FakeBackend W) (maxJobs : Option ℕ)
    {all : List (ℕ × Bool)} {settled : FakeBackend W}
    (h : Completes (serveFirst handlers) b all settled) :
    DrainLaw handlers b settled maxJobs (b.drain handlers (maxJobs.map Nat.cast)) ↔
      InLimit b settled maxJobs := by
  have hlength := length_of_completes h
  have hcount := drain_count h (maxJobs.map Nat.cast)
  have hserved := drain_served handlers b (maxJobs.map Nat.cast)
  cases maxJobs with
  | none =>
    have hsplit := length_eq_waiting_add b
    have hempty := drain_emptied_iff h none
    rw [show (b.drainLimit none).toNat = b.store.enqueued.length from Int.toNat_natCast _] at hempty
    rw [InLimit]
    constructor
    · intro hlaw
      have hle := hempty.mp (hlaw.emptied rfl)
      omega
    · intro hlimit
      refine ⟨hserved, by rintro m ⟨⟩, fun _ => hempty.mpr ?_⟩
      omega
  | some m =>
    cases m with
    | zero =>
      -- zero is no bound to the drain, which takes the length of the list for it
      have hlimit : (b.drainLimit ((some 0).map Nat.cast)).toNat = b.store.enqueued.length :=
        Int.toNat_natCast _
      have hle : b.waiting ≤ b.store.enqueued.length := List.countP_le_length
      rw [InLimit, ← waiting_eq_zero]
      constructor
      · intro hlaw
        have hnone := hlaw.count 0 rfl
        omega
      · intro hwaiting
        have hnothing := h.eq_nil (serveFirst_eq_none.mpr (waiting_eq_zero.mp hwaiting))
        refine ⟨hserved, ?_, by rintro ⟨⟩⟩
        rintro _ ⟨⟩
        rw [hcount, hnothing, List.length_nil, Nat.min_zero, Nat.zero_min]
    | succ m =>
      refine iff_of_true ⟨hserved, ?_, by rintro ⟨⟩⟩ trivial
      rintro _ ⟨⟩
      rw [hcount, hlength]
      rfl

def plainJob (type : String) : NewJob := { jobType := type, args := [] }

/-- A job of type `feed` enqueues jobs of type `leaf`, which have no handler. -/
def feeding (count : ℕ) : Handlers Unit := fun type =>
  if type = "feed" then some fun _ _ _ => ⟨List.replicate count (plainJob "leaf"), false, ()⟩
  else none

def withJobs (types : List String) : FakeBackend Unit :=
  ⟨FakeStore.empty.recordAll (types.map plainJob), ()⟩

/-- Its first job is processed, so the limit leaves room for one that a handler enqueues. -/
def halfDrained : FakeBackend Unit :=
  (withJobs ["leaf", "feed"]).perform (feeding 1) 0 ((plainJob "leaf").toFake (fakeId 1))

theorem drain_law_half_drained :
    DrainLaw (feeding 1) halfDrained (halfDrained.drain (feeding 1) none).1 none
      (halfDrained.drain (feeding 1) none) := by
  have hall : Completes (serveFirst (feeding 1)) halfDrained [(1, false), (2, false)]
      (halfDrained.drain (feeding 1) none).1 := by
    rw [drain_eq]
    exact ⟨.cons rfl (.cons rfl (.nil _)), rfl⟩
  refine (drain_law_iff (feeding 1) halfDrained none hall).mpr ?_
  rw [drain_eq]
  exact Nat.le_refl 1

/-- The bound zero lets the drain process a job, and a job that enqueues two others leaves the
second of them available. -/
theorem drain_unlawful :
    ((withJobs ["leaf"]).drain (feeding 0) (some 0)).2 = 1 ∧
    ((withJobs ["feed"]).drain (feeding 2) none).1.store.enqueued.map FakeJob.state =
      ["completed", "available", "available"] ∧
    (∀ settled, ¬DrainLaw (feeding 0) (withJobs ["leaf"]) settled (some 0)
      ((withJobs ["leaf"]).drain (feeding 0) (some 0))) ∧
    ∀ settled, ¬DrainLaw (feeding 2) (withJobs ["feed"]) settled none
      ((withJobs ["feed"]).drain (feeding 2) none) := by
  rw [drain_eq, drain_eq]
  refine ⟨rfl, rfl, ?_, ?_⟩
  · intro settled hlaw
    have hreturned := hlaw.count 0 rfl
    rw [Nat.zero_min] at hreturned
    cases hreturned
  · intro settled hlaw
    exact hlaw.emptied rfl _ (List.mem_of_getElem? (i := 1) rfl) rfl

end FakeBackend
end OpenJobSpec.Testing
