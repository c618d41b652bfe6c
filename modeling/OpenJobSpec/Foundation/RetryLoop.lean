import Mathlib.Data.List.Chain
import Mathlib.Data.Nat.Notation

/-! # Loops that repeat an attempt until its outcome says stop

An attempt is known by its index, its outcome by whatever the environment
answers. After each outcome the loop either goes again, leaving a note such as
the delay it slept, or halts with a result. A run is driven by the list of
outcomes the environment gives; when the list ends first, one attempt is still
in flight.
-/
namespace OpenJobSpec.RetryLoop
variable {O N R : Type*}

inductive Move (N R : Type*)
  | again (note : N)
  | halt (result : R)

structure Run (O N R : Type*) where
  outcomes : List O
  notes : List N
  inFlight : Bool
  result : Option R

def run (move : ℕ → O → Move N R) : ℕ → List O → Run O N R
  | _, [] => ⟨[], [], true, none⟩
  | k, o :: rest =>
    match move k o with
    | .halt result => ⟨[o], [], false, some result⟩
    | .again note =>
      let tail := run move (k + 1) rest
      ⟨o :: tail.outcomes, note :: tail.notes, tail.inFlight, tail.result⟩

/-- Attempts made: those with an outcome, and the one in flight. -/
def Run.attempts (r : Run O N R) : ℕ := r.outcomes.length + r.inFlight.toNat

def Bounded (move : ℕ → O → Move N R) (n : ℕ) : Prop :=
  ∀ k o note, move k o = .again note → k < n

theorem run_halt {move : ℕ → O → Move N R} {k : ℕ} {o : O} {rest : List O} {result : R}
    (h : move k o = .halt result) : run move k (o :: rest) = ⟨[o], [], false, some result⟩ := by
  simp [run, h]

theorem run_again {move : ℕ → O → Move N R} {k : ℕ} {o : O} {rest : List O} {note : N}
    (h : move k o = .again note) :
    run move k (o :: rest) =
      ⟨o :: (run move (k + 1) rest).outcomes, note :: (run move (k + 1) rest).notes,
        (run move (k + 1) rest).inFlight, (run move (k + 1) rest).result⟩ := by
  simp [run, h]

theorem run_inFlight_iff (move : ℕ → O → Move N R) (k : ℕ) (script : List O) :
    (run move k script).inFlight = true ↔ (run move k script).result = none := by
  induction script generalizing k with
  | nil => simp [run]
  | cons o rest ih =>
    cases h : move k o with
    | halt result => simp [run_halt h]
    | again note => simpa [run_again h] using ih (k + 1)

theorem run_outcomes_prefix (move : ℕ → O → Move N R) (k : ℕ) (script : List O) :
    (run move k script).outcomes <+: script := by
  induction script generalizing k with
  | nil => exact List.nil_prefix
  | cons o rest ih =>
    cases h : move k o with
    | halt result => simp [run_halt h]
    | again note => simpa [run_again h] using ih (k + 1)

theorem run_attempts_pos (move : ℕ → O → Move N R) (k : ℕ) (script : List O) :
    0 < (run move k script).attempts := by
  cases script with
  | nil => simp [run, Run.attempts]
  | cons o rest =>
    cases h : move k o with
    | halt result => simp [run_halt h, Run.attempts]
    | again note =>
      simp only [run_again h, Run.attempts, List.length_cons]
      omega

/-- Every attempt but the last one went again. -/
theorem run_again_of_lt {move : ℕ → O → Move N R} {k : ℕ} {script : List O} {i : ℕ}
    (h : i + 1 < (run move k script).attempts) :
    ∃ o note, (run move k script).outcomes[i]? = some o ∧ move (k + i) o = .again note := by
  induction script generalizing k i with
  | nil => simp [run, Run.attempts] at h
  | cons o rest ih =>
    cases hm : move k o with
    | halt result => simp [run_halt hm, Run.attempts] at h
    | again note =>
      cases i with
      | zero => exact ⟨o, note, by simp [run_again hm], hm⟩
      | succ i =>
        have hi : i + 1 < (run move (k + 1) rest).attempts := by
          simp only [run_again hm, Run.attempts, List.length_cons] at h ⊢
          omega
        obtain ⟨p, q, hp, hq⟩ := ih hi
        refine ⟨p, q, by simpa [run_again hm] using hp, ?_⟩
        rw [← hq]
        congr 1
        omega

/-- A bounded loop makes at most one attempt past its bound. -/
theorem run_attempts_le {move : ℕ → O → Move N R} {n : ℕ} (hn : Bounded move n) (k : ℕ)
    (script : List O) : (run move k script).attempts ≤ n - k + 1 := by
  by_contra hlt
  have hi : (n - k) + 1 < (run move k script).attempts := by omega
  obtain ⟨o, note, _, hm⟩ := run_again_of_lt hi
  have := hn _ _ _ hm
  omega

/-- Enough outcomes bring a bounded loop to a result. -/
theorem run_result_ne_none {move : ℕ → O → Move N R} {n : ℕ} (hn : Bounded move n) {k : ℕ}
    {script : List O} (h : n - k < script.length) : (run move k script).result ≠ none := by
  induction script generalizing k with
  | nil => simp at h
  | cons o rest ih =>
    cases hm : move k o with
    | halt result => simp [run_halt hm]
    | again note =>
      have hk := hn _ _ _ hm
      have hr : n - (k + 1) < rest.length := by
        simp only [List.length_cons] at h
        omega
      simpa [run_again hm] using ih hr

theorem run_result_eq_some {move : ℕ → O → Move N R} {k : ℕ} {script : List O} {result : R}
    (h : (run move k script).result = some result) :
    ∃ before o, (run move k script).outcomes = before ++ [o] ∧
      move (k + before.length) o = .halt result := by
  induction script generalizing k with
  | nil => simp [run] at h
  | cons o rest ih =>
    cases hm : move k o with
    | halt found =>
      simp only [run_halt hm, Option.some.injEq] at h
      subst h
      exact ⟨[], o, by simp [run_halt hm], hm⟩
    | again note =>
      simp only [run_again hm] at h
      obtain ⟨before, p, hp, hh⟩ := ih h
      refine ⟨o :: before, p, by simp [run_again hm, hp], ?_⟩
      rw [← hh]
      congr 1
      simp only [List.length_cons]
      omega

end OpenJobSpec.RetryLoop
