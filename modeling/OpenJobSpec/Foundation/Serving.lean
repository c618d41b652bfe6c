import Mathlib.Data.List.Basic

/-! # A process that serves one thing at a time

A step of the process yields what it served and the next state, until there is nothing left to
serve. Served under a bound, the process stops at the bound or where nothing is left.
-/
namespace OpenJobSpec.Serving
variable {σ α : Type*}

inductive Steps (next : σ → Option (α × σ)) : σ → List α → σ → Prop
  | nil (s : σ) : Steps next s [] s
  | cons {s t u : σ} {a : α} {rest : List α} (h : next s = some (a, t))
      (hrest : Steps next t rest u) : Steps next s (a :: rest) u

def upTo (next : σ → Option (α × σ)) : ℕ → σ → List α × σ
  | 0, s => ([], s)
  | n + 1, s =>
    match next s with
    | none => ([], s)
    | some (a, t) => (a :: (upTo next n t).1, (upTo next n t).2)

/-- The process serves these and nothing else. -/
structure Completes (next : σ → Option (α × σ)) (s : σ) (served : List α) (t : σ) : Prop where
  steps : Steps next s served t
  settled : next t = none

variable {next : σ → Option (α × σ)} {s t : σ} {served : List α}

theorem upTo_of_none (h : next s = none) (n : ℕ) : upTo next n s = ([], s) := by
  cases n with
  | zero => rfl
  | succ n => simp only [upTo, h]

theorem upTo_succ_some {a : α} (h : next s = some (a, t)) (n : ℕ) :
    upTo next (n + 1) s = (a :: (upTo next n t).1, (upTo next n t).2) := by
  simp only [upTo, h]

variable (next) in
theorem steps_upTo (n : ℕ) (s : σ) : Steps next s (upTo next n s).1 (upTo next n s).2 := by
  induction n generalizing s with
  | zero => exact .nil s
  | succ n ih =>
    cases hnext : next s with
    | none =>
      rw [upTo_of_none hnext]
      exact .nil s
    | some served =>
      rw [upTo_succ_some hnext]
      exact .cons hnext (ih served.2)

/-- What each step preserves, all of them preserve. -/
theorem Steps.invariant (I : σ → Prop) (hstep : ∀ s a t, I s → next s = some (a, t) → I t)
    (h : Steps next s served t) (hs : I s) : I t := by
  induction h with
  | nil => exact hs
  | cons hnext _ ih => exact ih (hstep _ _ _ hs hnext)

namespace Completes

theorem tail {a : α} {u : σ} (h : Completes next s served u) (hnext : next s = some (a, t)) :
    ∃ rest, served = a :: rest ∧ Completes next t rest u := by
  obtain ⟨hsteps, hsettled⟩ := h
  cases hsteps with
  | nil =>
    rw [hnext] at hsettled
    cases hsettled
  | cons hfirst hrest =>
    rw [hnext] at hfirst
    cases hfirst
    exact ⟨_, rfl, hrest, hsettled⟩

theorem eq_nil (h : Completes next s served t) (hnext : next s = none) : served = [] := by
  cases h.steps with
  | nil => rfl
  | cons hfirst _ =>
    rw [hnext] at hfirst
    cases hfirst

/-- A bounded run serves the first of all that there is to serve. -/
theorem upTo_fst (h : Completes next s served t) (n : ℕ) : (upTo next n s).1 = served.take n := by
  induction n generalizing s served with
  | zero => rfl
  | succ n ih =>
    cases hnext : next s with
    | none =>
      rw [upTo_of_none hnext, h.eq_nil hnext]
      rfl
    | some first =>
      obtain ⟨rest, rfl, hrest⟩ := h.tail hnext
      rw [upTo_succ_some hnext, ih hrest]
      rfl

/-- A bounded run leaves nothing to serve exactly when the bound is no less than what there is. -/
theorem upTo_settled_iff (h : Completes next s served t) (n : ℕ) :
    next (upTo next n s).2 = none ↔ served.length ≤ n := by
  induction n generalizing s served with
  | zero =>
    rw [Nat.le_zero, List.length_eq_zero_iff]
    constructor
    · exact h.eq_nil
    · rintro rfl
      cases h.steps
      exact h.settled
  | succ n ih =>
    cases hnext : next s with
    | none =>
      rw [upTo_of_none hnext, h.eq_nil hnext]
      exact iff_of_true hnext (Nat.zero_le _)
    | some first =>
      obtain ⟨rest, rfl, hrest⟩ := h.tail hnext
      rw [upTo_succ_some hnext, ih hrest, List.length_cons, Nat.add_le_add_iff_right]

end Completes
end OpenJobSpec.Serving
