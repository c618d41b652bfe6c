import OpenJobSpec.Foundation.ExceptRules
import OpenJobSpec.Grpc.ProtobufTime
import OpenJobSpec.Worker.LeasedRun

/-! # Heartbeats over gRPC

The service extends one lease with each heartbeat, so the transport sends one
for each active job, in turn, and answers the worker with one response for all
of them.
-/
namespace OpenJobSpec.Grpc
open ExceptRules Worker

/-! ## Requests and states -/

def heartbeatRequests (workerId : String) (activeJobs : List String)
    (visibilityTimeoutMs : Option ℤ) : Except Exn (List Fields) :=
  let ids := if activeJobs = [] then [workerId] else activeJobs
  ids.mapM fun leaseId => do
    let request : Fields := [("id", .str leaseId), ("worker_id", .str workerId),
      ("current_state", .str "WORKER_STATE_RUNNING")]
    match visibilityTimeoutMs with
    | none => return request
    | some ms => return request ++ [("extend_by", .str (← millisecondsToDuration ms))]

def statePriority : String → ℕ
  | "quiet" => 1
  | "terminate" => 2
  | _ => 0

/-- What a response directs the worker to; only a text can name a state. -/
def directedState (response : Fields) : String :=
  match Fields.get response "directed_state" (.str "WORKER_STATE_RUNNING") with
  | .str directed => Text.removeprefix "worker_state_" (Text.lower directed)
  | _ => ""

/-- The strongest state that a response directs to. -/
def aggregateHeartbeatStates (responses : List Fields) : String :=
  responses.foldl (fun selected response =>
    let state := directedState response
    if statePriority state > statePriority selected then state else selected) "running"

/-! ## One heartbeat of the worker -/

/-- The calls that were made, and what came of them. -/
structure Calls (R : Type) where
  issued : List Fields
  result : Except Raised R

/-- One call after the other; `replies` tells how each of them ends. -/
def callEach (replies : ℕ → Except Raised Fields) : ℕ → List Fields → Calls (List Fields)
  | _, [] => ⟨[], .ok []⟩
  | index, request :: rest =>
    match replies index with
    | .error raised => ⟨[request], .error raised⟩
    | .ok response =>
      let calls := callEach replies (index + 1) rest
      ⟨request :: calls.issued, calls.result.map (response :: ·)⟩

def heartbeat (workerId : String) (activeJobs : List String) (visibilityTimeoutMs : Option ℤ)
    (replies : ℕ → Except Raised Fields) : Calls Fields :=
  match heartbeatRequests workerId activeJobs visibilityTimeoutMs with
  | .error e => ⟨[], .error (.exception e)⟩
  | .ok requests =>
    let calls := callEach replies 0 requests
    ⟨calls.issued, calls.result.map fun responses =>
      [("state", .str (aggregateHeartbeatStates responses)),
        ("jobs_extended", .array (activeJobs.map .str))]⟩

/-- The executions whose lease the worker extends when the heartbeat ends. -/
def extendedExecutions (registered : List ActiveExecution) (result : Except Raised Fields) :
    List ActiveExecution :=
  match result with
  | .error _ => []
  | .ok response =>
    let jobIds := extendedJobIds (Fields.get response "jobs_extended" .null)
    registered.filter fun e => e.jobId ∈ jobIds

/-- Whether the RPC of an active execution, at its place among them, succeeded. -/
def OwnCallSucceeded (active : List ActiveExecution) (replies : ℕ → Except Raised Fields)
    (e : ActiveExecution) : Prop :=
  ∃ i response, active[i]? = some e ∧ replies i = .ok response

def AllSucceed (replies : ℕ → Except Raised Fields) (n : ℕ) : Prop :=
  ∀ i, i < n → ∃ response, replies i = .ok response

/-- The last of the calls alone fails, and the executions of the others are gone by then. -/
def OnlyLastFails (active registered : List ActiveExecution) (replies : ℕ → Except Raised Fields) :
    Prop :=
  ∃ before last raised, active = before ++ [last] ∧ AllSucceed replies before.length ∧
    replies before.length = .error raised ∧ ∀ e ∈ before, e ∉ registered

/-- Every active job has its heartbeat, and of the executions registered when the responses are
in, those are extended whose own heartbeat succeeded. -/
structure LeasesServed (workerId : String) (visibility : VisibilityTimeout)
    (active registered : List ActiveExecution) (replies : ℕ → Except Raised Fields) : Prop where
  issued : ∀ (i : ℕ) (e : ActiveExecution), active[i]? = some e → ∃ request,
    (heartbeat workerId (active.map ActiveExecution.jobId) (some visibility.ms)
      replies).issued[i]? =
      some request ∧ Fields.get request "id" .null = .str e.jobId
  extended : ∀ e ∈ registered,
    e ∈ extendedExecutions registered
        (heartbeat workerId (active.map ActiveExecution.jobId) (some visibility.ms) replies).result
        ↔
      OwnCallSucceeded active replies e

/-! ## The calls -/

variable {workerId : String} {visibility : VisibilityTimeout}
variable {active registered : List ActiveExecution} {replies : ℕ → Except Raised Fields}

theorem heartbeatRequests_eq {ms : ℤ} (h : 0 ≤ ms) (workerId : String) (activeJobs : List String) :
    ∃ request : String → Fields,
      heartbeatRequests workerId activeJobs (some ms) =
          .ok ((if activeJobs = [] then [workerId] else activeJobs).map request) ∧
        ∀ leaseId, Fields.get (request leaseId) "id" .null = .str leaseId := by
  refine ⟨fun leaseId => [("id", .str leaseId), ("worker_id", .str workerId),
    ("current_state", .str "WORKER_STATE_RUNNING"),
    ("extend_by", .str (decimalDuration (Decimal.rounded ⟨ms.toNat, -3⟩)))], ?_, fun _ => rfl⟩
  have hduration : millisecondsToDuration ms =
      .ok (decimalDuration (Decimal.rounded ⟨ms.toNat, -3⟩)) := if_neg (not_lt.mpr h)
  unfold heartbeatRequests
  dsimp only
  rw [hduration, mapM_eq_ok, List.forall₂_map_right_iff]
  exact List.forall₂_same.mpr fun leaseId _ => rfl

theorem callEach_of_ok {index : ℕ} {requests : List Fields}
    (h : ∀ i, i < requests.length → ∃ response, replies (index + i) = .ok response) :
    ∃ responses, callEach replies index requests = ⟨requests, .ok responses⟩ := by
  induction requests generalizing index with
  | nil => exact ⟨[], rfl⟩
  | cons request rest ih =>
    obtain ⟨response, hresponse⟩ := h 0 (Nat.succ_pos _)
    rw [add_zero] at hresponse
    have hrest : ∀ i, i < rest.length → ∃ response, replies (index + 1 + i) = .ok response := by
      intro i hi
      have hnext := h (i + 1) (Nat.succ_lt_succ hi)
      rwa [show index + (i + 1) = index + 1 + i by omega] at hnext
    obtain ⟨responses, hcalls⟩ := ih hrest
    refine ⟨response :: responses, ?_⟩
    rw [callEach, hresponse]
    dsimp only
    rw [hcalls]
    rfl

/-- The first call that fails is the last one made. -/
theorem callEach_of_error {index : ℕ} {before rest : List Fields} {request : Fields}
    {raised : Raised}
    (h : ∀ i, i < before.length → ∃ response, replies (index + i) = .ok response)
    (hraised : replies (index + before.length) = .error raised) :
    callEach replies index (before ++ request :: rest) = ⟨before ++ [request], .error raised⟩ := by
  induction before generalizing index with
  | nil =>
    rw [List.length_nil, add_zero] at hraised
    rw [List.nil_append, callEach, hraised]
    rfl
  | cons first before ih =>
    obtain ⟨response, hresponse⟩ := h 0 (Nat.succ_pos _)
    rw [add_zero] at hresponse
    have hrest : ∀ i, i < before.length → ∃ response, replies (index + 1 + i) = .ok response := by
      intro i hi
      have hnext := h (i + 1) (Nat.succ_lt_succ hi)
      rwa [show index + (i + 1) = index + 1 + i by omega] at hnext
    have hfails : replies (index + 1 + before.length) = .error raised := by
      rw [← hraised, List.length_cons]
      congr 1
      omega
    rw [List.cons_append, callEach, hresponse]
    dsimp only
    rw [ih hrest hfails]
    rfl

/-- Either every call succeeds, or there is a first one that does not. -/
theorem succeeds_or_fails (replies : ℕ → Except Raised Fields) (n : ℕ) :
    AllSucceed replies n ∨
      ∃ k raised, k < n ∧ replies k = .error raised ∧ AllSucceed replies k := by
  induction n with
  | zero => exact Or.inl fun i hi => absurd hi (Nat.not_lt_zero i)
  | succ n ih =>
    rcases ih with hall | ⟨k, raised, hk, hraised, hbefore⟩
    · cases hn : replies n with
      | error raised => exact Or.inr ⟨n, raised, Nat.lt_succ_self n, hn, hall⟩
      | ok response =>
        left
        intro i hi
        rcases Nat.lt_succ_iff_lt_or_eq.mp hi with hlt | rfl
        · exact hall i hlt
        · exact ⟨response, hn⟩
    · exact Or.inr ⟨k, raised, hk.trans (Nat.lt_succ_self n), hraised, hbefore⟩

theorem AllSucceed.offset {n : ℕ} (h : AllSucceed replies n) (i : ℕ) (hi : i < n) :
    ∃ response, replies (0 + i) = .ok response := by
  rw [zero_add]
  exact h i hi

theorem mem_extendedExecutions {state : Json} {jobIds : List String} {e : ActiveExecution} :
    e ∈ extendedExecutions registered
        (.ok [("state", state), ("jobs_extended", .array (jobIds.map .str))]) ↔
      e ∈ registered ∧ e.jobId ∈ jobIds := by
  have hget : Fields.get [("state", state), ("jobs_extended", .array (jobIds.map .str))]
      "jobs_extended" .null = .array (jobIds.map .str) := rfl
  unfold extendedExecutions
  dsimp only
  rw [hget, extendedJobIds_strings, List.mem_filter, decide_eq_true_eq]

/-- With no active job the heartbeat of the worker itself extends nothing. -/
theorem leasesServed_nil (workerId : String) (visibility : VisibilityTimeout)
    (registered : List ActiveExecution) (replies : ℕ → Except Raised Fields) :
    LeasesServed workerId visibility [] registered replies := by
  refine ⟨fun i e he => by simp at he, fun e _ => ?_⟩
  have hown : ¬ OwnCallSucceeded [] replies e := by
    rintro ⟨i, response, he, _⟩
    simp at he
  refine iff_of_false ?_ hown
  unfold heartbeat
  cases heartbeatRequests workerId ([].map ActiveExecution.jobId) (some visibility.ms) with
  | error raised => exact List.not_mem_nil
  | ok requests =>
    dsimp only
    cases (callEach replies 0 requests).result with
    | error raised => exact List.not_mem_nil
    | ok responses => exact fun he => List.not_mem_nil (mem_extendedExecutions.mp he).2

theorem leasesServed_of_all (hne : active ≠ []) (hall : AllSucceed replies active.length) :
    LeasesServed workerId visibility active registered replies ↔
      ∀ e ∈ registered, e.jobId ∈ active.map ActiveExecution.jobId → e ∈ active := by
  obtain ⟨request, hrequests, hid⟩ := heartbeatRequests_eq
    (le_trans zero_le_one visibility.at_least_one) workerId (active.map ActiveExecution.jobId)
  rw [if_neg (by simpa using hne)] at hrequests
  obtain ⟨responses, hcalls⟩ := @callEach_of_ok replies 0
    ((active.map ActiveExecution.jobId).map request) (by simpa using hall.offset)
  have hbeat : heartbeat workerId (active.map ActiveExecution.jobId) (some visibility.ms) replies =
      ⟨(active.map ActiveExecution.jobId).map request,
        .ok [("state", .str (aggregateHeartbeatStates responses)),
          ("jobs_extended", .array ((active.map ActiveExecution.jobId).map .str))]⟩ := by
    unfold heartbeat
    rw [hrequests]
    dsimp only
    rw [hcalls]
    rfl
  have hextended : ∀ e, e ∈ extendedExecutions registered (heartbeat workerId
      (active.map ActiveExecution.jobId) (some visibility.ms) replies).result ↔
      e ∈ registered ∧ e.jobId ∈ active.map ActiveExecution.jobId := by
    intro e
    rw [hbeat]
    exact mem_extendedExecutions
  have hown : ∀ e, OwnCallSucceeded active replies e ↔ e ∈ active := by
    intro e
    constructor
    · rintro ⟨i, response, he, _⟩
      exact List.mem_of_getElem? he
    · intro he
      obtain ⟨i, hi, rfl⟩ := List.mem_iff_getElem.mp he
      obtain ⟨response, hresponse⟩ := hall i hi
      exact ⟨i, response, List.getElem?_eq_getElem hi, hresponse⟩
  constructor
  · intro h e he hjob
    exact (hown e).mp ((h.extended e he).mp ((hextended e).mpr ⟨he, hjob⟩))
  · intro h
    refine ⟨fun i e he => ⟨request e.jobId, ?_, hid e.jobId⟩, fun e he => ?_⟩
    · rw [hbeat]
      simp [he]
    · rw [hextended, hown, and_iff_right he]
      exact ⟨h e he, List.mem_map_of_mem⟩

theorem leasesServed_of_fails {k : ℕ} {raised : Raised} (hk : k < active.length)
    (hraised : replies k = .error raised) (hbefore : AllSucceed replies k) :
    LeasesServed workerId visibility active registered replies ↔
      k + 1 = active.length ∧ ∀ e ∈ active.take k, e ∉ registered := by
  have hne : active ≠ [] := List.ne_nil_of_length_pos (Nat.zero_lt_of_lt hk)
  obtain ⟨request, hrequests, hid⟩ := heartbeatRequests_eq
    (le_trans zero_le_one visibility.at_least_one) workerId (active.map ActiveExecution.jobId)
  rw [if_neg (by simpa using hne)] at hrequests
  let sent := active.map fun e => request e.jobId
  have hsent : (active.map ActiveExecution.jobId).map request = sent := List.map_map
  have hlength : sent.length = active.length := List.length_map _
  have hsplit : sent = sent.take k ++ sent[k] :: sent.drop (k + 1) := by
    rw [List.cons_getElem_drop_succ, List.take_append_drop]
  have htake : (sent.take k).length = k := by
    rw [List.length_take, hlength]
    omega
  have hcalls : callEach replies 0 sent = ⟨sent.take (k + 1), .error raised⟩ := by
    have hstops := @callEach_of_error replies 0 (sent.take k) (sent.drop (k + 1)) sent[k] raised
      (by rw [htake]; exact hbefore.offset) (by rw [htake, zero_add, hraised])
    rwa [← hsplit, List.take_append_getElem] at hstops
  have hbeat : heartbeat workerId (active.map ActiveExecution.jobId) (some visibility.ms) replies =
      ⟨sent.take (k + 1), .error raised⟩ := by
    unfold heartbeat
    rw [hrequests, hsent]
    dsimp only
    rw [hcalls]
    rfl
  have hown : ∀ e, k + 1 = active.length →
      (OwnCallSucceeded active replies e ↔ e ∈ active.take k) := by
    intro e hlast
    constructor
    · rintro ⟨i, response, he, hresponse⟩
      have hi : i < active.length := (List.getElem?_eq_some_iff.mp he).1
      have hik : i ≠ k := by
        rintro rfl
        rw [hraised] at hresponse
        cases hresponse
      exact List.mem_of_getElem? (i := i) (by rw [List.getElem?_take_of_lt (by omega), he])
    · intro he
      obtain ⟨i, hi, hget⟩ := List.mem_iff_getElem.mp he
      rw [List.length_take] at hi
      obtain ⟨response, hresponse⟩ := hbefore i (by omega)
      refine ⟨i, response, ?_, hresponse⟩
      rw [← hget, List.getElem_take, List.getElem?_eq_getElem]
  constructor
  · intro h
    have hlast : k + 1 = active.length := by
      by_contra hmore
      obtain ⟨sent', hissued, _⟩ := h.issued (k + 1) _ (List.getElem?_eq_getElem (by omega))
      have hnone : (sent.take (k + 1))[k + 1]? = none := by
        rw [List.getElem?_eq_none_iff, List.length_take]
        omega
      rw [hbeat, hnone] at hissued
      cases hissued
    refine ⟨hlast, fun e he hregistered => ?_⟩
    have hextended := (h.extended e hregistered).mpr ((hown e hlast).mpr he)
    rw [hbeat] at hextended
    exact List.not_mem_nil hextended
  · rintro ⟨hlast, hgone⟩
    refine ⟨fun i e he => ⟨request e.jobId, ?_, hid e.jobId⟩, fun e he => ?_⟩
    · have hi : i < active.length := (List.getElem?_eq_some_iff.mp he).1
      rw [hbeat, List.getElem?_take_of_lt (by omega), List.getElem?_map, he]
      rfl
    · rw [hbeat]
      refine iff_of_false List.not_mem_nil fun howned => ?_
      exact hgone e ((hown e hlast).mp howned) he

/-- A heartbeat serves every lease exactly when all of its calls succeed and none of the jobs is
started a second time meanwhile, or the last call alone fails and no execution is left of those
before it. -/
theorem grpc_heartbeat_serves_iff (workerId : String) (visibility : VisibilityTimeout)
    (active registered : List ActiveExecution) (replies : ℕ → Except Raised Fields) :
    LeasesServed workerId visibility active registered replies ↔
      (AllSucceed replies active.length ∧
          ∀ e ∈ registered, e.jobId ∈ active.map ActiveExecution.jobId → e ∈ active) ∨
        OnlyLastFails active registered replies := by
  rcases succeeds_or_fails replies active.length with hall | ⟨k, raised, hk, hraised, hbefore⟩
  · have hnotLast : ¬ OnlyLastFails active registered replies := by
      rintro ⟨before, last, raised, rfl, _, hraised, _⟩
      obtain ⟨response, hresponse⟩ := hall before.length (by simp)
      rw [hraised] at hresponse
      cases hresponse
    rw [or_iff_left hnotLast, and_iff_right hall]
    by_cases hne : active = []
    · subst hne
      exact iff_of_true (leasesServed_nil _ _ _ _) fun e _ he => absurd he List.not_mem_nil
    · exact leasesServed_of_all hne hall
  · have hnotAll : ¬ AllSucceed replies active.length := by
      intro hall
      obtain ⟨response, hresponse⟩ := hall k hk
      rw [hraised] at hresponse
      cases hresponse
    rw [or_iff_right fun h => hnotAll h.1, leasesServed_of_fails hk hraised hbefore]
    constructor
    · rintro ⟨hlast, hgone⟩
      refine ⟨active.take k, active[k], raised, ?_, ?_, ?_, hgone⟩
      · rw [List.take_append_getElem, hlast, List.take_length]
      · rw [List.length_take, Nat.min_eq_left hk.le]
        exact hbefore
      · rw [List.length_take, Nat.min_eq_left hk.le, hraised]
    · rintro ⟨before, last, raised', rfl, hsucceed, hraised', hgone⟩
      have hk' : k = before.length := by
        by_contra hne
        rw [List.length_append, List.length_singleton] at hk
        obtain ⟨response, hresponse⟩ := hsucceed k (by omega)
        rw [hraised] at hresponse
        cases hresponse
      subst hk'
      refine ⟨by simp, ?_⟩
      rw [List.take_left]
      exact hgone

/-! ## A stale job in front -/

def notFound : OJSAPIError :=
  ⟨.jobNotFound, 404, ⟨"not_found", "job-1 has no lease", false, [], none⟩⟩

def staleFirst : ℕ → Except Raised Fields
  | 0 => .error (.exception (.api notFound))
  | _ => .ok [("directed_state", .str "WORKER_STATE_RUNNING")]

theorem stale_job_starves_others :
    ¬ LeasesServed "worker-1" ⟨30000, by decide⟩ [⟨0, "job-1"⟩, ⟨1, "job-2"⟩]
      [⟨0, "job-1"⟩, ⟨1, "job-2"⟩] staleFirst := by
  intro h
  obtain ⟨request, hissued, _⟩ := h.issued 1 ⟨1, "job-2"⟩ rfl
  cases hissued

end OpenJobSpec.Grpc
