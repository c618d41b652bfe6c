import OpenJobSpec.Errors.RateLimitHeaders

/-! # Idempotency identity handling for retryable HTTP mutations -/
namespace OpenJobSpec.Http

def maxIdempotencyKeyLength : ℕ := 256

def validateIdempotencyKey (value : Json) : Except Exn (Option String) :=
  match value with
  | .null => .ok none
  | .str s =>
    if s = "" then .error (.builtin .valueError "idempotency key must be a non-empty string")
    else if s.length > maxIdempotencyKeyLength then
      .error (.builtin .valueError ("idempotency key must not exceed "
        ++ toString maxIdempotencyKeyLength ++ " characters"))
    else .ok (some s)
  | _ => .error (.builtin .valueError "idempotency key must be a non-empty string")

def idempotencyKeyFromBody (body : Json) : Except Exn (Option String) :=
  match body with
  | .object fields => validateIdempotencyKey (Fields.get fields "idempotency_key" .null)
  | _ => .ok none

def headerValue (value : Option String) : Json := (value.map Json.str).getD .null

def effectiveIdempotencyKey (headers : Headers) (body : Json) : Except Exn (Option String) := do
  match ← validateIdempotencyKey (headerValue (headers.get "Idempotency-Key")) with
  | some key => return some key
  | none => idempotencyKeyFromBody body

def requestHeaders (requestId : String) (idempotencyKey : Option String) : Headers :=
  [("X-Request-ID", requestId)] ++
    (match idempotencyKey with
    | some key => [("Idempotency-Key", key)]
    | none => [])

theorem requestHeaders_named (requestId : String) (idempotencyKey : Option String) :
    (requestHeaders requestId idempotencyKey).named "Idempotency-Key" =
      (idempotencyKey.map (fun key => ("Idempotency-Key", key))).toList := by
  have hx : Text.casefold "X-Request-ID" ≠ Text.casefold "Idempotency-Key" := by decide
  cases idempotencyKey with
  | none => simp [requestHeaders, Headers.named, hx]
  | some key => simp [requestHeaders, Headers.named, hx]

theorem validateIdempotencyKey_str {s key : String}
    (h : validateIdempotencyKey (.str s) = .ok (some key)) : key = s := by
  simp only [validateIdempotencyKey] at h
  split at h
  · cases h
  · split at h
    · cases h
    · injection h with h
      exact (Option.some.inj h).symm

theorem validateIdempotencyKey_ne_none (s : String) :
    validateIdempotencyKey (.str s) ≠ .ok none := by
  simp only [validateIdempotencyKey]
  split
  · simp
  · split <;> simp

theorem effectiveIdempotencyKey_eq {headers : Headers} {body : Json} {key : Option String}
    (h : effectiveIdempotencyKey headers body = .ok key) :
    (∀ value, headers.get "Idempotency-Key" = some value → key = some value) ∧
    (headers.get "Idempotency-Key" = none → idempotencyKeyFromBody body = .ok key) := by
  unfold effectiveIdempotencyKey at h
  cases hv : headers.get "Idempotency-Key" with
  | none =>
    simp only [hv] at h
    exact ⟨nofun, fun _ => h⟩
  | some value =>
    refine ⟨?_, nofun⟩
    rintro _ ⟨⟩
    simp only [hv, headerValue, Option.map_some, Option.getD_some] at h
    cases hk : validateIdempotencyKey (.str value) with
    | error e => simp [hk, Bind.bind, Except.bind] at h
    | ok found =>
      cases found with
      | none => exact absurd hk (validateIdempotencyKey_ne_none value)
      | some found =>
        obtain rfl := validateIdempotencyKey_str hk
        simp only [hk, Bind.bind, Except.bind, pure, Except.pure, Except.ok.injEq] at h
        exact h.symm

end OpenJobSpec.Http
