import OpenJobSpec.Http.RateLimiter
import OpenJobSpec.Python.Text

/-! # Operation-aware retry classification for the HTTP transport -/
namespace OpenJobSpec.Http

inductive OperationSafety
  | safe
  | idempotent
  | unsafeMutation
deriving DecidableEq

inductive RetryReason
  | rateLimited
  | transientServerError
deriving DecidableEq

def transientServerStatuses : List ℕ := [502, 503, 504]
def safeMethods : List String := ["GET", "HEAD", "OPTIONS"]
def idempotentMethods : List String := ["DELETE", "PUT"]

def classifyOperation (method : String) (idempotencyKey : Option String) : OperationSafety :=
  let normalized := Text.upper method
  if normalized ∈ safeMethods then .safe
  else if normalized ∈ idempotentMethods ∨ idempotencyKey.isSome then .idempotent
  else .unsafeMutation

def retryReason (statusCode : ℕ) (attempt : ℕ) (safety : OperationSafety) (config : RetryConfig) :
    Option RetryReason :=
  if ¬ config.enabled ∨ (attempt : ℤ) ≥ config.maxRetries then none
  else if statusCode = 429 then some .rateLimited
  else if statusCode ∈ transientServerStatuses ∧ config.retryServerErrors
      ∧ safety ≠ .unsafeMutation then some .transientServerError
  else none

theorem retryReason_isSome_iff (statusCode attempt : ℕ) (safety : OperationSafety)
    (config : RetryConfig) :
    (retryReason statusCode attempt safety config).isSome ↔
      config.enabled = true ∧ (attempt : ℤ) < config.maxRetries ∧
        (statusCode = 429 ∨ (statusCode ∈ transientServerStatuses ∧
          config.retryServerErrors = true ∧ safety ≠ .unsafeMutation)) := by
  unfold retryReason
  split
  · rename_i h
    simp only [Option.isSome_none, Bool.false_eq_true, false_iff]
    rintro ⟨he, hb, _⟩
    rcases h with h | h
    · exact h he
    · omega
  · rename_i h
    simp only [not_or, Decidable.not_not, ge_iff_le, not_le] at h
    split
    · rename_i h429
      simp [h.1, h.2, h429]
    · rename_i h429
      split
      · rename_i hs
        simp [h.1, h.2, hs.1, hs.2.1, hs.2.2]
      · rename_i hs
        simp only [Option.isSome_none, Bool.false_eq_true, h429, false_or, false_iff]
        exact fun hr => hs hr.2.2

theorem le_status_of_retryReason {statusCode attempt : ℕ} {safety : OperationSafety}
    {config : RetryConfig} (h : (retryReason statusCode attempt safety config).isSome) :
    400 ≤ statusCode := by
  obtain ⟨_, _, h | ⟨h, _⟩⟩ := (retryReason_isSome_iff _ _ _ _).mp h
  · omega
  · simp only [transientServerStatuses, List.mem_cons, List.not_mem_nil, or_false] at h
    omega

theorem classifyOperation_post (idempotencyKey : Option String) :
    classifyOperation "POST" idempotencyKey =
      if idempotencyKey.isSome then .idempotent else .unsafeMutation := by
  have h : Text.upper "POST" = "POST" := by decide
  have hs : "POST" ∉ safeMethods := by decide
  have hi : "POST" ∉ idempotentMethods := by decide
  simp only [classifyOperation, h, hs, hi, if_false, false_or]

end OpenJobSpec.Http
