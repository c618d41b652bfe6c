import OpenJobSpec.Http.ErrorTaxonomy

/-! # Decoding the media types that the transport negotiates

The transport asks for `application/openjobspec+json`, and decodes a response
when its Content-Type has `application/json` as a substring. Every operation
reads its result out of the decoded value, so a response that is not decoded is
an empty fetch or a missing job.
-/
namespace OpenJobSpec.Http
open ExceptRules RetryLoop HTTPTransport

structure SuccessBody (r : Response) (body : Json) : Prop where
  success : 200 ≤ r.statusCode ∧ r.statusCode < 300 ∧ r.statusCode ≠ 204
  json : r.json = .ok body
  mapping : body.isMapping = true

def EndsOn (run : RequestRun) (r : Response) : Prop :=
  run.outcomes.getLast? = some (.response r)

/-- The transport hands on the body of a response: as the value of any operation
that ends on it, as the fetched jobs when it leases jobs, and as the created job. -/
structure Decodes (t : HTTPTransport) (r : Response) (body : Json) : Prop where
  value : ∀ op key script, EndsOn (t.doRequest op key script) r →
    (t.doRequest op key script).result = some (.ok body)
  fetch : ∀ queues count workerId visibilityTimeoutMs script entries jobs,
    EndsOn (t.request "POST" "/workers/fetch"
      (fetchBody queues count workerId visibilityTimeoutMs) none script) r →
    body.getMethod "jobs" (.array []) = .ok (.array entries) →
    Job.fromDicts t.reader entries = .ok jobs →
    t.fetch queues count workerId visibilityTimeoutMs script = some (.ok jobs)
  push : ∀ request script entry job,
    EndsOn (t.request "POST" "/jobs" request none script) r →
    body.subscript "job" = .ok entry → Job.fromDict t.reader entry = .ok job →
    t.push request script = some (.ok job)

/-- The decision of the transport, or a body that is the stand-in for itself. -/
def Negotiated (r : Response) (body : Json) : Prop :=
  Text.contains "application/json" (contentType r) = true ∨ body = rawBody r

theorem decodeResponse_eq_ok_iff (t : HTTPTransport) {r : Response} {body : Json}
    (h : SuccessBody r body) : t.decodeResponse r = .ok body ↔ Negotiated r body := by
  have hs : ¬ 400 ≤ r.statusCode := by have := h.success; omega
  unfold decodeResponse Negotiated
  rw [if_neg hs, if_neg h.success.2.2, h.json]
  by_cases hc : Text.contains "application/json" (contentType r) = true
  · simp [hc]
  · simp [hc, eq_comm]

theorem result_of_endsOn {t : HTTPTransport} {op : Operation} {key : Option String}
    {script : List ClientOutcome} {r : Response} {body : Json} (hr : SuccessBody r body)
    (h : EndsOn (t.doRequest op key script) r) :
    (t.doRequest op key script).result = some (t.decodeResponse r) := by
  have hretry : ∀ k, ¬ (retryReason r.statusCode k (classifyOperation op.method key)
      t.retryConfig).isSome := by
    intro k hk
    have := le_status_of_retryReason hk
    have := hr.success
    omega
  cases hres : (t.doRequest op key script).result with
  | some result =>
    obtain ⟨before, o, ho, hm⟩ := run_result_eq_some hres
    have hlast : (t.doRequest op key script).outcomes.getLast? = some o := by
      simp [doRequest, ho]
    obtain rfl : o = .response r := Option.some.inj (hlast.symm.trans h)
    rw [attemptMove_final (hretry _)] at hm
    injection hm with hm
    rw [hm]
  | none =>
    -- with a request in flight every answer so far was retried, the last one included
    have hflight := (run_inFlight_iff (t.attemptMove (classifyOperation op.method key)) 0
      script).mpr hres
    obtain ⟨before, hb⟩ := List.getLast?_eq_some_iff.mp h
    have hlt : before.length + 1 <
        (run (t.attemptMove (classifyOperation op.method key)) 0 script).attempts := by
      simp only [doRequest] at hb
      simp [Run.attempts, hflight, hb]
    obtain ⟨o, delay, ho, hm⟩ := run_again_of_lt hlt
    simp only [doRequest] at hb
    rw [hb, List.getElem?_concat_length, Option.some.injEq] at ho
    obtain rfl := ho.symm
    rw [attemptMove_final (hretry _)] at hm
    cases hm

theorem request_result_of_endsOn {t : HTTPTransport} {method path : String} {json : Json}
    {params : Option Fields} {script : List ClientOutcome} {r : Response} {body : Json}
    (hr : SuccessBody r body) (h : EndsOn (t.request method path json params script) r) :
    (t.request method path json params script).result = some (t.decodeResponse r) := by
  unfold request at h ⊢
  split
  · rename_i e he
    rw [he] at h
    simp [EndsOn, refused] at h
  · rename_i key hk
    rw [hk] at h
    exact result_of_endsOn hr h

/-- The body of every successful response is handed on exactly when its content
type was recognised, the stand-in body apart. -/
theorem decodes_iff_negotiated (t : HTTPTransport) (r : Response) (body : Json)
    (hr : SuccessBody r body) : Decodes t r body ↔ Negotiated r body := by
  constructor
  · intro h
    have hs : ¬ (retryReason r.statusCode 0 (classifyOperation "GET" none)
        t.retryConfig).isSome := by
      intro hk
      have := le_status_of_retryReason hk
      have := hr.success
      omega
    have hrun : t.doRequest ⟨"GET", "", .null, none⟩ none [.response r] =
        ⟨[.response r], [], false, some (t.decodeResponse r)⟩ := run_halt (attemptMove_final hs)
    have hv := h.value ⟨"GET", "", .null, none⟩ none [.response r] (by rw [hrun]; rfl)
    rw [hrun] at hv
    exact (decodeResponse_eq_ok_iff t hr).mp (Option.some.inj hv)
  · intro h
    have hd := (decodeResponse_eq_ok_iff t hr).mpr h
    constructor
    · intro op key script he
      rw [result_of_endsOn hr he, hd]
    · intro queues count workerId visibilityTimeoutMs script entries jobs he hj hjobs
      simp only [HTTPTransport.fetch, finish, request_result_of_endsOn hr he, hd, Option.map_some,
        ok_bind, decodeFetched, hj, Json.iterate, hjobs]
    · intro request script entry job he hj hjob
      simp only [HTTPTransport.push, finish, request_result_of_endsOn hr he, hd, Option.map_some,
        ok_bind, decodeJob, hj, hjob]

theorem decodes_json_with_charset :
    Decodes defaultTransport
      ⟨200, [("Content-Type", "application/json; charset=utf-8")], "\x7b\x7d", .ok (.object [])⟩
      (.object []) :=
  (decodes_iff_negotiated defaultTransport _ _ ⟨by decide, rfl, rfl⟩).mpr (Or.inl (by decide))

def leasedJob : Json := .object [("id", .str "j1"), ("type", .str "email.send")]

def leasedJobText : String := "\x7b\"id\": \"j1\", \"type\": \"email.send\"\x7d"

/-- The answers to a fetch and to a push, in the media type that the transport asks for. -/
def fetchAnswer : Response where
  statusCode := 200
  headers := [("content-type", ojsContentType)]
  text := "\x7b\"jobs\": [" ++ leasedJobText ++ "]\x7d"
  json := .ok (.object [("jobs", .array [leasedJob])])

def pushAnswer : Response where
  statusCode := 201
  headers := [("content-type", ojsContentType)]
  text := "\x7b\"job\": " ++ leasedJobText ++ "\x7d"
  json := .ok (.object [("job", leasedJob)])

/-- A server that answers in the requested media type loses a lease and hides a
created job: the fetch is empty and the push fails on a missing key. -/
theorem requested_media_type_not_decoded :
    defaultTransport.fetch ["default"] 1 none 30000 [.response fetchAnswer] = some (.ok []) ∧
    defaultTransport.push (.object [("type", .str "email.send"), ("args", .array [])])
      [.response pushAnswer] = some (.error (.builtin .keyError "'job'")) ∧
    ¬ Decodes defaultTransport fetchAnswer (.object [("jobs", .array [leasedJob])]) := by
  refine ⟨rfl, rfl, fun h => ?_⟩
  have hv := h.value ⟨"GET", "/ojs/v1/jobs", .null, none⟩ none [.response fetchAnswer] rfl
  have hr : (defaultTransport.doRequest ⟨"GET", "/ojs/v1/jobs", .null, none⟩ none
      [.response fetchAnswer]).result = some (.ok (rawBody fetchAnswer)) := rfl
  rw [hr] at hv
  exact absurd (Except.ok.inj (Option.some.inj hv)) (by decide)

end OpenJobSpec.Http
