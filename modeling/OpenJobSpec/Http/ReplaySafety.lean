import OpenJobSpec.Http.Transport

/-! # Replay safety of one logical operation

However the client answers, the requests of one operation stay within the retry
budget, each follows a response that permits it, and all carry one identity.
-/
namespace OpenJobSpec.Http
open RetryLoop HTTPTransport

def PermitsResend (config : RetryConfig) (safety : OperationSafety) (o : ClientOutcome) : Prop :=
  ∃ r, o = .response r ∧ (r.statusCode = 429 ∨
    (r.statusCode ∈ transientServerStatuses ∧ config.retryServerErrors = true ∧
      (safety = .safe ∨ safety = .idempotent)))

structure ReplaySafe (t : HTTPTransport) (op : Operation) (key : Option String)
    (r : RequestRun) : Prop where
  budget : (sentRequests t op key r).length ≤ (max 0 t.retryConfig.maxRetries).toNat + 1
  disabled : t.retryConfig.enabled = false → (sentRequests t op key r).length = 1
  resend : ∀ i, i + 1 < (sentRequests t op key r).length → ∃ o, r.outcomes[i]? = some o ∧
    PermitsResend t.retryConfig (classifyOperation op.method key) o
  post : Text.upper op.method = "POST" → key = none →
    ∀ i, i + 1 < (sentRequests t op key r).length →
      ∃ answer, r.outcomes[i]? = some (.response answer) ∧ answer.statusCode = 429
  identity : ∀ sent ∈ sentRequests t op key r, sent.operation = op ∧
    sent.headers.get "Idempotency-Key" = key

theorem sentRequests_length (t : HTTPTransport) (op : Operation) (key : Option String)
    (r : RequestRun) : (sentRequests t op key r).length = r.attempts := by
  simp [sentRequests]

theorem classifyOperation_congr {method : String} (h : Text.upper method = "POST")
    (key : Option String) : classifyOperation method key = classifyOperation "POST" key := by
  have hp : Text.upper "POST" = "POST" := by decide
  simp only [classifyOperation, h, hp]

theorem permitsResend_of_again {t : HTTPTransport} {safety : OperationSafety} {k : ℕ}
    {o : ClientOutcome} {delay : ℚ} (h : t.attemptMove safety k o = .again delay) :
    PermitsResend t.retryConfig safety o := by
  obtain ⟨r, rfl, hr, _⟩ := attemptMove_again h
  obtain ⟨_, _, hs⟩ := (retryReason_isSome_iff _ _ _ _).mp hr
  refine ⟨r, rfl, ?_⟩
  rcases hs with hs | ⟨hs, hc, hu⟩
  · exact Or.inl hs
  · refine Or.inr ⟨hs, hc, ?_⟩
    cases safety with
    | safe => exact Or.inl rfl
    | idempotent => exact Or.inr rfl
    | unsafeMutation => exact absurd rfl hu

theorem PermitsResend.rate_limited {config : RetryConfig} {o : ClientOutcome}
    (h : PermitsResend config .unsafeMutation o) :
    ∃ r, o = .response r ∧ r.statusCode = 429 := by
  obtain ⟨r, hr, hs | ⟨_, _, hu⟩⟩ := h
  · exact ⟨r, hr, hs⟩
  · simp at hu

theorem update_requestHeaders_get (headers : Headers) (requestId : String) (key : Option String)
    (h : ∀ value, headers.get "Idempotency-Key" = some value → key = some value) :
    (headers.update (requestHeaders requestId key)).get "Idempotency-Key" = key := by
  have hn := requestHeaders_named requestId key
  cases key with
  | some key =>
    have hne : (requestHeaders requestId (some key)).named "Idempotency-Key" ≠ [] := by simp [hn]
    rw [Headers.get_congr (Headers.named_update_of_ne_nil headers hne)]
    simp [Headers.get, hn, Text.join]
  | none =>
    rw [Headers.get_congr (Headers.named_update_of_eq_nil headers (by simpa using hn))]
    cases hv : headers.get "Idempotency-Key" with
    | none => rfl
    | some value => cases h value hv

theorem doRequest_replaySafe (t : HTTPTransport) (op : Operation) (key : Option String)
    (script : List ClientOutcome)
    (hkey : ∀ value, t.clientHeaders.get "Idempotency-Key" = some value → key = some value) :
    ReplaySafe t op key (t.doRequest op key script) := by
  have hagain : ∀ i, i + 1 < (sentRequests t op key (t.doRequest op key script)).length →
      ∃ o, (t.doRequest op key script).outcomes[i]? = some o ∧
        PermitsResend t.retryConfig (classifyOperation op.method key) o := by
    intro i hi
    rw [sentRequests_length] at hi
    obtain ⟨o, delay, ho, hm⟩ := run_again_of_lt hi
    exact ⟨o, ho, permitsResend_of_again hm⟩
  constructor
  · rw [sentRequests_length]
    have h := run_attempts_le (attemptMove_bounded t (classifyOperation op.method key)) 0 script
    simp only [doRequest]
    omega
  · intro hd
    rw [sentRequests_length]
    have h := run_attempts_le
      (attemptMove_bounded_of_disabled (classifyOperation op.method key) hd) 0 script
    have hpos := run_attempts_pos (t.attemptMove (classifyOperation op.method key)) 0 script
    simp only [doRequest]
    omega
  · exact hagain
  · intro hmethod hnone i hi
    obtain ⟨o, ho, hp⟩ := hagain i hi
    rw [classifyOperation_congr hmethod, classifyOperation_post, hnone] at hp
    obtain ⟨answer, rfl, hs⟩ := hp.rate_limited
    exact ⟨answer, ho, hs⟩
  · intro sent hsent
    obtain ⟨k, _, rfl⟩ := List.mem_map.mp hsent
    exact ⟨rfl, update_requestHeaders_get _ _ _ hkey⟩

/-- Every operation either is refused before anything is sent, or is replay safe
under the identity of its client header or else of its body. -/
theorem request_replay_safe (t : HTTPTransport) (method path : String) (json : Json)
    (params : Option Fields) (script : List ClientOutcome) :
    (∃ e, effectiveIdempotencyKey t.clientHeaders json = .error e ∧
      t.request method path json params script = refused e) ∨
    ∃ key,
      (∀ value, t.clientHeaders.get "Idempotency-Key" = some value → key = some value) ∧
      (t.clientHeaders.get "Idempotency-Key" = none → idempotencyKeyFromBody json = .ok key) ∧
      ReplaySafe t ⟨method, url path, json, params⟩ key
        (t.request method path json params script) := by
  cases h : effectiveIdempotencyKey t.clientHeaders json with
  | error e => exact Or.inl ⟨e, rfl, by simp only [request, h]⟩
  | ok key =>
    obtain ⟨hheader, hbody⟩ := effectiveIdempotencyKey_eq h
    have hr : t.request method path json params script =
        t.doRequest ⟨method, url path, json, params⟩ key script := by
      simp only [request, h]
    refine Or.inr ⟨key, hheader, hbody, ?_⟩
    rw [hr]
    exact doRequest_replaySafe t _ key script hheader

end OpenJobSpec.Http
