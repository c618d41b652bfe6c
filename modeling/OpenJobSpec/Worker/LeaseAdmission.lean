import OpenJobSpec.Errors.Hierarchy
import Mathlib.Data.List.Perm.Basic
import Mathlib.Data.List.Range
import Mathlib.Data.List.Nodup

/-! # Bounded admission of leases

A permit is known by its token, and tokens are numbered as they are issued, so
none is issued twice. The semaphore and the dictionary of live permits are kept
as the code keeps them, one beside the other; the released tokens and any
release past the semaphore's bound are recorded.
-/
namespace OpenJobSpec.Worker

structure LeaseAdmission where
  capacity : ℕ
  semaphore : ℕ
  permits : List ℕ
  issued : ℕ
  released : List ℕ
  overReleased : Bool
deriving DecidableEq

namespace LeaseAdmission

def new (capacity : ℤ) : Except Exn LeaseAdmission :=
  if capacity < 1 then .error (.builtin .valueError "capacity must be at least 1")
  else .ok ⟨capacity.toNat, capacity.toNat, [], 0, [], false⟩

def available (a : LeaseAdmission) : ℕ := a.capacity - a.permits.length

/-- How a reservation goes: it ends with its permits, or waits for the semaphore with some. -/
inductive Reservation
  | reserved (admission : LeaseAdmission) (permits : List ℕ)
  | suspended (admission : LeaseAdmission) (permits : List ℕ)

def reserveMore : ℕ → LeaseAdmission → List ℕ → Reservation
  | 0, a, permits => .reserved a permits
  | n + 1, a, permits =>
    if a.semaphore = 0 then .suspended a permits
    else reserveMore n
      { a with
        semaphore := a.semaphore - 1, permits := a.permits ++ [a.issued], issued := a.issued + 1 }
      (permits ++ [a.issued])

def reserveAvailable (a : LeaseAdmission) : Reservation := reserveMore a.available a []

/-- A bounded semaphore refuses to go past its initial value. -/
def releaseSemaphore (a : LeaseAdmission) : LeaseAdmission :=
  if a.capacity ≤ a.semaphore then { a with overReleased := true }
  else { a with semaphore := a.semaphore + 1 }

def release (a : LeaseAdmission) (permit : ℕ) : LeaseAdmission × Bool :=
  if permit ∈ a.permits then
    (releaseSemaphore
      { a with permits := a.permits.erase permit, released := a.released ++ [permit] }, true)
  else (a, false)

def releaseAll (a : LeaseAdmission) (permits : List ℕ) : LeaseAdmission :=
  permits.foldl (fun a permit => (a.release permit).1) a

/-! ## What holds of every admission -/

structure Valid (a : LeaseAdmission) : Prop where
  conserved : a.semaphore + a.permits.length = a.capacity
  once : (a.released ++ a.permits).Perm (List.range a.issued)
  bounded : a.overReleased = false

variable {a : LeaseAdmission}

theorem Valid.new {capacity : ℤ} (h : LeaseAdmission.new capacity = .ok a) :
    a.Valid ∧ a.permits = [] ∧ a.capacity = capacity.toNat := by
  unfold LeaseAdmission.new at h
  split at h
  · cases h
  · cases h
    exact ⟨⟨by simp, by simp, rfl⟩, rfl, rfl⟩

theorem Valid.nodup (h : a.Valid) : (a.released ++ a.permits).Nodup :=
  h.once.nodup_iff.mpr List.nodup_range

theorem Valid.permits_nodup (h : a.Valid) : a.permits.Nodup :=
  (List.nodup_append.mp h.nodup).2.1

theorem Valid.available_eq (h : a.Valid) : a.available = a.semaphore := by
  have hc := h.conserved
  unfold available
  omega

theorem reserveMore_reserved (n : ℕ) (permits : List ℕ) (h : a.Valid) (hn : n ≤ a.semaphore) :
    ∃ b fresh, reserveMore n a permits = .reserved b (permits ++ fresh) ∧ b.Valid ∧
      b.permits = a.permits ++ fresh ∧ fresh.length = n ∧ b.capacity = a.capacity := by
  induction n generalizing a permits with
  | zero => exact ⟨a, [], by rw [List.append_nil]; rfl, h, (List.append_nil _).symm, rfl, rfl⟩
  | succ n ih =>
    have hpos : a.semaphore ≠ 0 := by omega
    have hnext : Valid { a with
        semaphore := a.semaphore - 1, permits := a.permits ++ [a.issued]
        issued := a.issued + 1 } := by
      refine ⟨?_, ?_, h.bounded⟩
      · have hc := h.conserved
        simp only [List.length_append, List.length_singleton]
        omega
      · simp only [List.range_succ, ← List.append_assoc]
        exact h.once.append_right _
    obtain ⟨b, fresh, hrun, hvalid, hpermits, hlen, hcap⟩ :=
      ih (permits ++ [a.issued]) hnext (by simp only; omega)
    refine ⟨b, a.issued :: fresh, ?_, hvalid, ?_, ?_, hcap⟩
    · rw [reserveMore, if_neg hpos, hrun, List.append_assoc, List.singleton_append]
    · rw [hpermits, List.append_assoc, List.singleton_append]
    · rw [List.length_cons, hlen]

/-- A reservation takes every free permit, and never waits. -/
theorem reserveAvailable_reserved (h : a.Valid) :
    ∃ b fresh, a.reserveAvailable = .reserved b fresh ∧ b.Valid ∧
      b.permits = a.permits ++ fresh ∧ fresh.length = a.semaphore ∧ b.capacity = a.capacity := by
  have hle : a.available ≤ a.semaphore := h.available_eq.le
  obtain ⟨b, fresh, hrun, hrest⟩ := reserveMore_reserved a.available [] h hle
  rw [h.available_eq] at hrest
  exact ⟨b, fresh, hrun, hrest⟩

theorem release_valid {permit : ℕ} (h : a.Valid) (hp : permit ∈ a.permits) :
    (a.release permit).1.Valid ∧ (a.release permit).1.permits = a.permits.erase permit ∧
      (a.release permit).1.capacity = a.capacity := by
  have hc := h.conserved
  have hlen : 0 < a.permits.length := List.length_pos_of_mem hp
  have hroom : ¬ a.capacity ≤ a.semaphore := by omega
  have herase := List.length_erase_of_mem hp
  rw [release, if_pos hp, releaseSemaphore, if_neg hroom]
  refine ⟨⟨?_, ?_, h.bounded⟩, rfl, rfl⟩
  · simp only
    omega
  · refine List.Perm.trans ?_ h.once
    rw [List.append_assoc]
    exact (List.perm_cons_erase hp).symm.append_left a.released

/-- Releasing owned permits leaves the others with their owners. -/
theorem releaseAll_valid {mine others : List ℕ} (h : a.Valid)
    (hp : a.permits.Perm (mine ++ others)) :
    (a.releaseAll mine).Valid ∧ (a.releaseAll mine).permits.Perm others ∧
      (a.releaseAll mine).capacity = a.capacity := by
  induction mine generalizing a with
  | nil => exact ⟨h, hp, rfl⟩
  | cons permit mine ih =>
    have hmem : permit ∈ a.permits := hp.mem_iff.mpr (by simp)
    obtain ⟨hvalid, hpermits, hcap⟩ := release_valid h hmem
    have hrest : (a.release permit).1.permits.Perm (mine ++ others) := by
      rw [hpermits]
      exact (hp.erase permit).trans (by simp)
    obtain ⟨hv, ho, hc⟩ := ih hvalid hrest
    exact ⟨hv, ho, hc.trans hcap⟩

end LeaseAdmission

end OpenJobSpec.Worker
