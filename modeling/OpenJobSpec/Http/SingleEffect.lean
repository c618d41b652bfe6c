import OpenJobSpec.Http.ErrorTaxonomy
import OpenJobSpec.Http.ReplaySafety

/-! # What a server does for a POST that is sent again

Callers on any number of transports share a server. It does what a request asks for when it takes
it, which may be long after the client gave up on the answer, unless it has seen the request's
Idempotency-Key. However the requests are taken, no call has two effects.
-/
namespace OpenJobSpec.Http
open HTTPTransport RetryLoop

/-- A call of a POST operation, and what the client answers its requests with. -/
structure PostCall where
  transport : HTTPTransport
  path : String
  json : Json
  params : Option Fields
  script : List ClientOutcome

namespace PostCall
variable (c : PostCall)

def operation : Operation := ⟨"POST", url c.path, c.json, c.params⟩

def run : RequestRun := c.transport.request "POST" c.path c.json c.params c.script

/-- The requests of the call; none when its key is refused. -/
def sent : List SentRequest :=
  match effectiveIdempotencyKey c.transport.clientHeaders c.json with
  | .error _ => []
  | .ok key => sentRequests c.transport c.operation key c.run

end PostCall

def SentRequest.key (request : SentRequest) : Option String := request.headers.get "Idempotency-Key"

/-- What a server did for a request, known by its call and attempt. -/
structure Effect where
  call : ℕ
  attempt : ℕ
  key : Option String

/-- The server takes a request, and has seen the keys of what it did. -/
def takeRequest (calls : List PostCall) (done : List Effect) (request : ℕ × ℕ) : List Effect :=
  match calls[request.1]?.bind fun c => c.sent[request.2]? with
  | none => done
  | some sent =>
    if sent.key.isSome ∧ sent.key ∈ done.map (·.key) then done
    else ⟨request.1, request.2, sent.key⟩ :: done

/-- What the server did for the requests that it took, both with the latest first. -/
def effectsOf (calls : List PostCall) : List (ℕ × ℕ) → List Effect
  | [] => []
  | request :: earlier => takeRequest calls (effectsOf calls earlier) request

/-- What is asked of the server: it takes no request twice and none that it answers with 429, and
has taken one that it answers with success. -/
structure Honest (calls : List PostCall) (taken : List (ℕ × ℕ)) : Prop where
  once : taken.Nodup
  declined : ∀ call attempt, (call, attempt) ∈ taken → ∀ c, calls[call]? = some c →
    ∀ r, c.run.outcomes[attempt]? = some (.response r) → r.statusCode ≠ 429
  answered : ∀ call c, calls[call]? = some c → ∀ attempt r,
    c.run.outcomes[attempt]? = some (.response r) → r.statusCode < 400 → (call, attempt) ∈ taken

section Calls
variable {c : PostCall} {calls : List PostCall} {taken : List (ℕ × ℕ)} {request : ℕ × ℕ}

theorem PostCall.run_eq {key : Option String}
    (h : effectiveIdempotencyKey c.transport.clientHeaders c.json = .ok key) :
    c.run = c.transport.doRequest c.operation key c.script := by
  simp only [PostCall.run, HTTPTransport.request, h]
  rfl

/-- The requests of a call are those of one replay-safe operation. -/
theorem PostCall.sent_eq {i : ℕ} (h : i < c.sent.length) : ∃ key,
    c.sent = sentRequests c.transport c.operation key c.run ∧
      ReplaySafe c.transport c.operation key c.run := by
  cases hkey : effectiveIdempotencyKey c.transport.clientHeaders c.json with
  | error e =>
    simp only [PostCall.sent, hkey] at h
    exact absurd h (Nat.not_lt_zero i)
  | ok key =>
    refine ⟨key, by simp only [PostCall.sent, hkey], ?_⟩
    rw [PostCall.run_eq hkey]
    exact doRequest_replaySafe c.transport c.operation key c.script
      (effectiveIdempotencyKey_eq hkey).1

/-- All requests of a call carry one key; without it, all but the last were answered with 429. -/
theorem PostCall.sent_key {i : ℕ} (h : i < c.sent.length) :
    ∃ key, (∀ request ∈ c.sent, request.key = key) ∧
      (key = none → ∀ j, j + 1 < c.sent.length →
        ∃ r, c.run.outcomes[j]? = some (.response r) ∧ r.statusCode = 429) := by
  obtain ⟨key, hsent, hsafe⟩ := PostCall.sent_eq h
  have hpost : Text.upper "POST" = "POST" := by decide
  refine ⟨key, fun request hmem => ?_, fun hnone j hj => ?_⟩
  · rw [hsent] at hmem
    exact (hsafe.identity request hmem).2
  · rw [hsent] at hj
    exact hsafe.post hpost hnone j hj

/-- A request changes nothing, or has the effect of its own with a key that is new. -/
theorem takeRequest_cases (calls : List PostCall) (done : List Effect) (request : ℕ × ℕ) :
    takeRequest calls done request = done ∨ ∃ c sent, calls[request.1]? = some c ∧
      c.sent[request.2]? = some sent ∧ (∀ key, sent.key = some key → some key ∉ done.map (·.key)) ∧
      takeRequest calls done request = ⟨request.1, request.2, sent.key⟩ :: done := by
  unfold takeRequest
  split
  next => exact .inl rfl
  next sent hfound =>
    obtain ⟨c, hc, hsent⟩ := Option.bind_eq_some_iff.mp hfound
    split
    next => exact .inl rfl
    next hnew =>
      refine .inr ⟨c, sent, hc, hsent, fun key hkey hmem => hnew ⟨?_, ?_⟩, rfl⟩
      · rw [hkey]
        rfl
      · rw [hkey]
        exact hmem

/-- An effect is that of a request that was sent and taken. -/
theorem mem_effectsOf {e : Effect} (h : e ∈ effectsOf calls taken) : (e.call, e.attempt) ∈ taken ∧
    ∃ c sent, calls[e.call]? = some c ∧ c.sent[e.attempt]? = some sent ∧ sent.key = e.key := by
  induction taken with
  | nil => exact absurd h List.not_mem_nil
  | cons request earlier ih =>
    rw [effectsOf] at h
    rcases takeRequest_cases calls (effectsOf calls earlier) request with
      hsame | ⟨c, sent, hc, hsent, -, hadd⟩
    · rw [hsame] at h
      exact ⟨List.mem_cons_of_mem _ (ih h).1, (ih h).2⟩
    · rw [hadd] at h
      rcases List.mem_cons.mp h with rfl | hold
      · exact ⟨List.mem_cons_self, c, sent, hc, hsent, rfl⟩
      · exact ⟨List.mem_cons_of_mem _ (ih hold).1, (ih hold).2⟩

/-- Two effects are of two requests, and have no key in common. -/
theorem effectsOf_pairwise (h : taken.Nodup) : (effectsOf calls taken).Pairwise fun a b =>
    (a.call, a.attempt) ≠ (b.call, b.attempt) ∧ ∀ key, a.key = some key → b.key ≠ some key := by
  induction taken with
  | nil => exact List.Pairwise.nil
  | cons request earlier ih =>
    obtain ⟨hnew, hearlier⟩ := List.nodup_cons.mp h
    rw [effectsOf]
    rcases takeRequest_cases calls (effectsOf calls earlier) request with
      hsame | ⟨c, sent, -, -, hkey, hadd⟩
    · rw [hsame]
      exact ih hearlier
    · rw [hadd]
      refine List.pairwise_cons.mpr ⟨fun b hb => ⟨?_, fun key ha hbkey => ?_⟩, ih hearlier⟩
      · intro heq
        have hrequest : request = (b.call, b.attempt) := heq
        rw [hrequest] at hnew
        exact hnew (mem_effectsOf hb).1
      · exact hkey key ha (List.mem_map.mpr ⟨b, hb, hbkey⟩)

/-- Two requests of one call without a key were not both taken. -/
theorem Honest.one_of_keyless (h : Honest calls taken) {call i j : ℕ}
    (hc : calls[call]? = some c) {request : SentRequest} (hi : c.sent[i]? = some request)
    (hkey : request.key = none) (hti : (call, i) ∈ taken) (hj : j < c.sent.length)
    (htj : (call, j) ∈ taken) : i = j := by
  have hlt : i < c.sent.length := (List.getElem?_eq_some_iff.mp hi).1
  obtain ⟨key, hkeys, hlast⟩ := PostCall.sent_key hlt
  have hnone : key = none := (hkeys request (List.mem_of_getElem? hi)).symm.trans hkey
  -- a request that was sent again was answered with 429
  have hat {k : ℕ} (ht : (call, k) ∈ taken) : ¬k + 1 < c.sent.length := by
    intro hk
    obtain ⟨r, hr, hstatus⟩ := hlast hnone k hk
    exact h.declined call k ht c hc r hr hstatus
  have := hat hti
  have := hat htj
  omega

/-- A taken request had its effect, or one with its key had. -/
theorem exists_effect {call attempt : ℕ} (hc : calls[call]? = some c) {request : SentRequest}
    (hsent : c.sent[attempt]? = some request) (ht : (call, attempt) ∈ taken) :
    ∃ e ∈ effectsOf calls taken, e.key = request.key ∧ (e.call = call ∨ e.key.isSome = true) := by
  induction taken with
  | nil => exact absurd ht List.not_mem_nil
  | cons head earlier ih =>
    rw [effectsOf]
    rcases List.mem_cons.mp ht with rfl | hold
    · unfold takeRequest
      simp only [hc, Option.bind_some, hsent]
      split
      next hseen =>
        obtain ⟨e, he, hkey⟩ := List.mem_map.mp hseen.2
        exact ⟨e, he, hkey, .inr (hkey ▸ hseen.1)⟩
      next => exact ⟨_, List.mem_cons_self, rfl, .inl rfl⟩
    · obtain ⟨e, he, hspec⟩ := ih hold
      rcases takeRequest_cases calls (effectsOf calls earlier) head with
        hsame | ⟨-, sent, -, -, -, hadd⟩
      · rw [hsame]
        exact ⟨e, he, hspec⟩
      · rw [hadd]
        exact ⟨e, List.mem_cons_of_mem _ he, hspec⟩

/-- A call that returns got a successful answer to its last request. -/
theorem PostCall.success_of_result {answer : Json} (h : c.run.result = some (.ok answer)) :
    ∃ attempt r, c.run.outcomes[attempt]? = some (.response r) ∧ r.statusCode < 400 ∧
      attempt < c.sent.length := by
  cases hkey : effectiveIdempotencyKey c.transport.clientHeaders c.json with
  | error e =>
    simp only [PostCall.run, HTTPTransport.request, hkey, refused, Option.some.injEq] at h
    cases h
  | ok key =>
    have hlength : c.sent.length = c.run.attempts := by
      simp only [PostCall.sent, hkey]
      exact sentRequests_length c.transport c.operation key c.run
    rw [PostCall.run_eq hkey, doRequest] at h
    obtain ⟨before, o, houtcomes, hmove⟩ := run_result_eq_some h
    have hrun : c.run.outcomes = before ++ [o] := by
      rw [PostCall.run_eq hkey]
      exact houtcomes
    have hat : c.run.outcomes[before.length]? = some o := by
      rw [hrun]
      exact List.getElem?_concat_length
    have hlt : before.length < c.sent.length := by
      rw [hlength]
      exact Nat.lt_of_lt_of_le (List.getElem?_eq_some_iff.mp hat).1 (Nat.le_add_right _ _)
    cases o with
    | error cls message => cases hmove
    | response r =>
      refine ⟨before.length, r, hat, ?_, hlt⟩
      by_contra hstatus
      simp only [attemptMove] at hmove
      split at hmove
      · split at hmove
        · cases hmove
        · cases hmove
      · obtain ⟨e, he⟩ := c.transport.decodeResponse_of_error (not_lt.mp hstatus)
        rw [he] at hmove
        cases hmove

/-- However the requests of any number of POST calls are taken, no call has two effects and no key
has; and a call that returns had its effect, or one with its key did. -/
theorem posts_have_one_effect (h : Honest calls taken) :
    ((effectsOf calls taken).Pairwise fun a b =>
      a.call ≠ b.call ∧ ∀ key, a.key = some key → b.key ≠ some key) ∧
    ∀ call c answer, calls[call]? = some c → c.run.result = some (.ok answer) →
      ∃ e ∈ effectsOf calls taken, (∀ request ∈ c.sent, e.key = request.key) ∧
        (e.call = call ∨ e.key.isSome = true) := by
  constructor
  · refine (effectsOf_pairwise h.once).imp_of_mem fun {a b} ha hb hab => ⟨fun hcall => ?_, hab.2⟩
    obtain ⟨hta, c, sent, hc, hsent, hkey⟩ := mem_effectsOf ha
    obtain ⟨htb, c', sent', hc', hsent', hkey'⟩ := mem_effectsOf hb
    rw [← hcall] at htb hc'
    rw [hc] at hc'
    cases hc'
    have hlt := (List.getElem?_eq_some_iff.mp hsent').1
    obtain ⟨key, hkeys, -⟩ := PostCall.sent_key hlt
    have hsame : b.key = a.key := by
      rw [← hkey, ← hkey', hkeys sent (List.mem_of_getElem? hsent),
        hkeys sent' (List.mem_of_getElem? hsent')]
    cases hnone : a.key with
    | some key => exact hab.2 key hnone (hsame.trans hnone)
    | none =>
      have hattempt := h.one_of_keyless hc hsent (hkey.trans hnone) hta hlt htb
      exact hab.1 (Prod.ext hcall hattempt)
  · intro call c answer hc hresult
    obtain ⟨attempt, r, hr, hstatus, hlt⟩ := PostCall.success_of_result hresult
    obtain ⟨e, he, hkey, howner⟩ := exists_effect hc (List.getElem?_eq_getElem hlt)
      (h.answered call c hc attempt r hr hstatus)
    obtain ⟨key, hkeys, -⟩ := PostCall.sent_key hlt
    refine ⟨e, he, fun request hmem => ?_, howner⟩
    rw [hkey, hkeys _ (List.getElem_mem hlt), hkeys request hmem]

end Calls

section Examples

/-- A bad gateway, and then an answer. -/
def keyedPost : PostCall where
  transport := defaultTransport
  path := "/jobs"
  json := .object [("idempotency_key", .str "k")]
  params := none
  script := [.response ⟨502, [], "", .error (.valueError, "")⟩,
    .response ⟨204, [], "", .error (.valueError, "")⟩]

/-- The first request reached the server after the second. -/
theorem late_request_has_no_effect :
    ((effectsOf [keyedPost] [(0, 0), (0, 1)]).Pairwise fun a b =>
      a.call ≠ b.call ∧ ∀ key, a.key = some key → b.key ≠ some key) ∧
    ∃ e ∈ effectsOf [keyedPost] [(0, 0), (0, 1)],
      (∀ request ∈ keyedPost.sent, e.key = request.key) ∧
        (e.call = 0 ∨ e.key.isSome = true) := by
  have hscript {attempt : ℕ} {r : Response}
      (h : keyedPost.run.outcomes[attempt]? = some (.response r)) :
      attempt = 0 ∧ r.statusCode = 502 ∨ attempt = 1 ∧ r.statusCode = 204 := by
    have houtcomes : keyedPost.run.outcomes = keyedPost.script := rfl
    rw [houtcomes] at h
    obtain _ | _ | attempt := attempt
    · cases h
      exact .inl ⟨rfl, rfl⟩
    · cases h
      exact .inr ⟨rfl, rfl⟩
    · cases h
  have honest : Honest [keyedPost] [(0, 0), (0, 1)] := by
    refine ⟨by decide, fun call attempt _ c hc r hr => ?_, fun call c hc attempt r hr hstatus => ?_⟩
    · rw [List.mem_singleton.mp (List.mem_of_getElem? hc)] at hr
      rcases hscript hr with ⟨-, h⟩ | ⟨-, h⟩ <;> omega
    · obtain _ | call := call
      · cases hc
        rcases hscript hr with ⟨-, h⟩ | ⟨rfl, -⟩
        · omega
        · exact List.mem_cons_of_mem _ List.mem_cons_self
      · cases hc
  have h := posts_have_one_effect honest
  exact ⟨h.1, h.2 0 keyedPost (.object []) rfl rfl⟩

end Examples

end OpenJobSpec.Http
