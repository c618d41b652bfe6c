import OpenJobSpec.Python.Number

/-! # The execution middleware chain and local retries

An execution runs on the one context of its job, which every middleware and the
handler can change in place. A retry calls the rest of the chain again on the
context as the last attempt left it.
-/
namespace OpenJobSpec.Worker

variable {S : Type*}

/-- A coroutine over the context: its outcome and the context it leaves. -/
abbrev Exec (S : Type*) := S → Except Raised Json × S

/-- A middleware awaits what is next in the chain as often as it likes. -/
abbrev ExecutionMiddleware (S : Type*) := Exec S → Exec S

/-- `ExecutionMiddlewareChain.execute`. -/
def executeChain : List (ExecutionMiddleware S) → Exec S → Exec S
  | [], handler => handler
  | current :: remaining, handler => current (executeChain remaining handler)

structure ExecutionRetry where
  maxRetries : ℕ
  baseDelay : Number
  maxDelay : Number
  jitter : Bool
  /-- the draw before the n-th retry -/
  randomValue : ℕ → ℚ
  baseDelay_nonneg : 0 ≤ baseDelay.value
  maxDelay_nonneg : 0 ≤ maxDelay.value

namespace ExecutionRetry

def create (maxRetries : ℤ) (baseDelay maxDelay : Number) (jitter : Bool)
    (randomValue : ℕ → ℚ) : Except Exn ExecutionRetry :=
  if maxRetries < 0 then .error (.builtin .valueError "max_retries cannot be negative")
  else if hbase : baseDelay.value < 0 then
    .error (.builtin .valueError "base_delay cannot be negative")
  else if hmax : maxDelay.value < 0 then
    .error (.builtin .valueError "max_delay cannot be negative")
  else
    .ok ⟨maxRetries.toNat, baseDelay, maxDelay, jitter, randomValue,
      Number.nonneg_of_not_neg hbase, Number.nonneg_of_not_neg hmax⟩

variable (r : ExecutionRetry)

def delay (attempt : ℕ) : Except Exn ℚ := do
  let scaled ← r.baseDelay.scaled attempt
  let capped ← (scaled.smaller r.maxDelay).toFloat
  return if r.jitter then capped * (1 / 2 + r.randomValue attempt * (1 / 2)) else capped

/-- The loop of `run` from an attempt on; `sleep` tells what a sleep before a retry raises. -/
def runFrom (sleep : ℕ → ℚ → Option Raised) (next : Exec S) : (remaining attempt : ℕ) → Exec S
  | 0, _, s => next s
  | remaining + 1, attempt, s =>
    match next s with
    | (.error (.exception _), t) =>
      match r.delay attempt with
      | .error overflow => (.error (.exception overflow), t)
      | .ok delay =>
        match sleep attempt delay with
        | some raised => (.error raised, t)
        | none => runFrom sleep next remaining (attempt + 1) t
    | done => done

def run (sleep : ℕ → ℚ → Option Raised) : ExecutionMiddleware S :=
  fun next => r.runFrom sleep next r.maxRetries 0

variable {r} {sleep : ℕ → ℚ → Option Raised} {next : Exec S}

/-- What holds after the first attempt, and is kept by every other one, holds after the run. -/
theorem runFrom_of_first (I : S → Prop) (hnext : ∀ s, I s → I (next s).2)
    (remaining attempt : ℕ) {s : S} (h : I (next s).2) :
    I (r.runFrom sleep next remaining attempt s).2 := by
  induction remaining generalizing attempt s with
  | zero => exact h
  | succ remaining ih =>
    rw [runFrom]
    rcases hs : next s with ⟨outcome, t⟩
    rw [hs] at h
    split
    next e t' heq =>
      cases heq
      split
      · exact h
      · split
        · exact h
        · exact ih _ (hnext t h)
    next => exact h

/-- A run that does not retry ends where its first attempt ends. -/
theorem run_eq_first {s : S}
    (h : ∀ e d, (next s).1 = .error (.exception e) → r.delay 0 = .ok d → r.maxRetries ≠ 0 →
      sleep 0 d ≠ none) :
    (r.run sleep next s).2 = (next s).2 := by
  unfold run
  cases hmax : r.maxRetries with
  | zero => rfl
  | succ n =>
    rw [runFrom]
    rcases hs : next s with ⟨outcome, t⟩
    split
    next e t' heq =>
      cases heq
      split
      · rfl
      next d hd =>
        split
        · rfl
        next hsleep =>
          exact absurd hsleep (h e d (by rw [hs]) hd (by rw [hmax]; exact n.succ_ne_zero))
    next => rfl

/-- A first attempt that failed is followed by a second one. -/
theorem run_eq_second {s : S} {e : Exn} {d : ℚ} (hmax : r.maxRetries ≠ 0)
    (hfirst : (next s).1 = .error (.exception e)) (hdelay : r.delay 0 = .ok d)
    (hsleep : sleep 0 d = none) :
    r.run sleep next s = r.runFrom sleep next (r.maxRetries - 1) 1 (next s).2 := by
  unfold run
  obtain ⟨n, hn⟩ := Nat.exists_eq_succ_of_ne_zero hmax
  rw [hn, Nat.succ_eq_add_one, runFrom]
  rcases hs : next s with ⟨outcome, t⟩
  rw [hs] at hfirst
  dsimp only at hfirst
  subst hfirst
  simp only [hdelay, hsleep]
  rfl

end ExecutionRetry

end OpenJobSpec.Worker
