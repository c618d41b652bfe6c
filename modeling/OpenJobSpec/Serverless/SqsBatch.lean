import OpenJobSpec.Serverless.AwsLambda

/-! # What a batch of queue records answers

A record is deleted from the queue when it is left out of the failures. Each
turn of the loop decides this from its own record and from what its own handler
and its own completion calls met, so the answer is assembled record by record.
-/
namespace OpenJobSpec.Serverless
open Worker RetryLoop

variable {V : Type}

/-- The handler returns a result that can be printed. -/
def Succeeds (config : BridgeConfig V) (job : Job) (world : InvocationWorld V)
    (result : Option V) : Prop :=
  config.handlers job.type = true ∧ world.handled = .ok result ∧
    ∃ printed, config.dumps result = .ok printed

/-- There is no handler, or it raises, or its result cannot be printed. -/
def Fails (config : BridgeConfig V) (job : Job) (world : InvocationWorld V) : Prop :=
  config.handlers job.type = false ∨ (∃ e, world.handled = .error (.exception e)) ∨
    ∃ result e, world.handled = .ok result ∧ config.dumps result = .error e

/-- One of the calls made is `call`, and the transport answered it. -/
def Delivered (calls : List (CompletionCall (Option V))) (script : DeliveryScript)
    (call : CompletionCall (Option V)) : Prop :=
  ∃ (k : ℕ) (reply : DeliveryReply), calls[k]? = some call ∧
    script.delivery.outcomes[k]? = some reply ∧ reply.call = .ok ()

/-- The record may be deleted: its job is done and that was reported as far as there is
somebody to report to, or its failure was taken over by the backend. -/
def Settled (adapter : Adapter V) (record : Json) (world : InvocationWorld V) : Prop :=
  ∃ job, readRecord adapter record = .ok job ∧
    ((∃ result, Succeeds adapter.bridge job world result ∧
        (adapter.bridge.transport = true →
          Delivered (handleRecord adapter record world).calls world.script
            (.ack job.id result))) ∨
      (Fails adapter.bridge job world ∧ adapter.bridge.transport = true ∧
        ∃ error, Delivered (handleRecord adapter record world).calls world.script
          (.nack job.id error)))

/-- A cancellation lands in the handler, in a completion call or in the sleep after one. -/
def InvocationWorld.Cancelled (world : InvocationWorld V) : Prop :=
  world.handled = .error .cancelled ∨
    ∃ reply ∈ world.script.replies,
      reply.call = .error .cancelled ∨ reply.sleep = .error .cancelled

/-! ## One invocation -/

section Invocation
variable {config : BridgeConfig V} {job : Job} {world : InvocationWorld V}

theorem executed_unknown (hknown : config.handlers job.type = false) :
    executed config job world = .error (.exception (handlerNotFoundError job.type)) := by
  simp [executed, execute, hknown]

theorem executed_raised {raised : Raised} (hknown : config.handlers job.type = true)
    (hhandled : world.handled = .error raised) : executed config job world = .error raised := by
  simp [executed, execute, hknown, hhandled]

theorem executed_printed {result : Option V} {printed : String}
    (hknown : config.handlers job.type = true) (hhandled : world.handled = .ok result)
    (hdumps : config.dumps result = .ok printed) : executed config job world = .ok result := by
  simp [executed, execute, validateResult, hknown, hhandled, hdumps, pure, Except.pure]

theorem executed_unprinted {result : Option V} {e : Exn}
    (hknown : config.handlers job.type = true) (hhandled : world.handled = .ok result)
    (hdumps : config.dumps result = .error e) :
    executed config job world =
      .error (.exception (if isTypeOrValueError e then resultSerializationError else e)) := by
  simp [executed, execute, validateResult, hknown, hhandled, hdumps]

/-- An invocation succeeds, fails or is cancelled. -/
theorem executed_cases (config : BridgeConfig V) (job : Job) (world : InvocationWorld V) :
    (∃ result, Succeeds config job world result ∧ executed config job world = .ok result) ∨
      (Fails config job world ∧ ∃ e, executed config job world = .error (.exception e)) ∨
      (world.handled = .error .cancelled ∧ executed config job world = .error .cancelled) := by
  cases hknown : config.handlers job.type with
  | false => exact .inr (.inl ⟨.inl hknown, _, executed_unknown hknown⟩)
  | true =>
    rcases hhandled : world.handled with (e | _) | result
    · exact .inr (.inl ⟨.inr (.inl ⟨e, hhandled⟩), e, executed_raised hknown hhandled⟩)
    · exact .inr (.inr ⟨rfl, executed_raised hknown hhandled⟩)
    · cases hdumps : config.dumps result with
      | error e =>
        exact .inr (.inl ⟨.inr (.inr ⟨result, e, hhandled, hdumps⟩), _,
          executed_unprinted hknown hhandled hdumps⟩)
      | ok printed =>
        exact .inl ⟨result, ⟨hknown, hhandled, printed, hdumps⟩,
          executed_printed hknown hhandled hdumps⟩

theorem Succeeds.executed_eq {result : Option V} (h : Succeeds config job world result) :
    executed config job world = .ok result := by
  obtain ⟨hknown, hhandled, printed, hdumps⟩ := h
  exact executed_printed hknown hhandled hdumps

theorem Fails.executed_eq (h : Fails config job world) :
    ∃ e, executed config job world = .error (.exception e) := by
  cases hknown : config.handlers job.type with
  | false => exact ⟨_, executed_unknown hknown⟩
  | true =>
    rcases h with hunknown | ⟨e, hhandled⟩ | ⟨result, e, hhandled, hdumps⟩
    · rw [hknown] at hunknown
      cases hunknown
    · exact ⟨e, executed_raised hknown hhandled⟩
    · exact ⟨_, executed_unprinted hknown hhandled hdumps⟩

theorem handlerCalls_length_le : (handlerCalls config job).length ≤ 1 := by
  unfold handlerCalls
  split <;> simp

end Invocation

/-! ## One report -/

variable {script : DeliveryScript}

theorem delivery_result (script : DeliveryScript) :
    script.delivery.result = some script.reported :=
  (Option.some_get script.delivery_result_isSome).symm

theorem reported_ok_iff : script.reported = .ok () ↔
    ∃ (k : ℕ) (reply : DeliveryReply), script.delivery.outcomes[k]? = some reply ∧
      reply.call = .ok () := by
  have h : script.delivery.result = some (.ok ()) ↔ _ :=
    @deliver_ok_iff 3 script.replies (by omega) (by exact_mod_cast script.enough)
  rw [delivery_result, Option.some_inj] at h
  exact h

theorem reported_cancelled (h : script.reported = .error .cancelled) :
    ∃ reply ∈ script.replies,
      reply.call = .error .cancelled ∨ reply.sleep = .error .cancelled :=
  @deliver_cancelled 3 script.replies (by omega) ((delivery_result script).trans (congrArg some h))

/-- Where every call made is the same, the delivered ones are those of a report that ended well. -/
theorem delivered_replicate_iff {call other : CompletionCall (Option V)} :
    Delivered (List.replicate script.delivery.attempts call) script other ↔
      other = call ∧ script.reported = .ok () := by
  rw [reported_ok_iff]
  constructor
  · rintro ⟨k, reply, hcall, hreply, hok⟩
    exact ⟨(List.mem_replicate.mp (List.mem_of_getElem? hcall)).2, k, reply, hreply, hok⟩
  · rintro ⟨rfl, k, reply, hreply, hok⟩
    refine ⟨k, reply, ?_, hreply, hok⟩
    have hk := (List.getElem?_eq_some_iff.mp hreply).1
    rw [List.getElem?_replicate, if_pos]
    unfold Run.attempts
    omega

/-! ## One record -/

/-- What the turn of a record may do: at most one handler call, one kind of completion call, and
an answer that deletes the record exactly when it is settled. -/
structure TurnSpec (adapter : Adapter V) (record : Json) (world : InvocationWorld V)
    (turn : EntryRun V (Except Raised Bool)) : Prop where
  handled : turn.handled.length ≤ 1
  one_call : ∃ call, ∀ c ∈ turn.calls, c = call
  deleted_iff : turn.answer = .ok false ↔ Settled adapter record world
  raised : ∀ raised, turn.answer = .error raised → raised = .cancelled ∧ world.Cancelled

section Turn
variable {adapter : Adapter V} {record : Json} {job : Job} {world : InvocationWorld V}

/-- How a turn answers once its report has ended. -/
def afterReport : Except Raised Unit → Except Raised Bool
  | .ok () => .ok false
  | .error .cancelled => .error .cancelled
  | .error (.exception _) => .ok true

theorem afterReport_ok_false_iff {ended : Except Raised Unit} :
    afterReport ended = .ok false ↔ ended = .ok () := by
  rcases ended with (_ | _) | _ <;> simp [afterReport]

theorem afterReport_error {ended : Except Raised Unit} {raised : Raised}
    (h : afterReport ended = .error raised) : raised = .cancelled ∧ ended = .error .cancelled := by
  rcases ended with (_ | _) | _ <;> simp [afterReport] at h ⊢
  exact h.symm

theorem handleRecord_unread {e : Exn} (h : readRecord adapter record = .error e) :
    handleRecord adapter record world = ⟨[], [], .ok true⟩ := by
  rw [handleRecord, h]

theorem handleRecord_cancelled (h : readRecord adapter record = .ok job)
    (he : executed adapter.bridge job world = .error .cancelled) :
    handleRecord adapter record world =
      ⟨handlerCalls adapter.bridge job, [], .error .cancelled⟩ := by
  simp only [handleRecord, h, invoke, he]

theorem handleRecord_succeeded {result : Option V} (h : readRecord adapter record = .ok job)
    (he : executed adapter.bridge job world = .ok result) :
    handleRecord adapter record world = ⟨handlerCalls adapter.bridge job,
      if adapter.bridge.transport then
        List.replicate world.script.delivery.attempts (.ack job.id result) else [],
      if adapter.bridge.transport then
        afterReport world.script.reported
      else .ok false⟩ := by
  cases ht : adapter.bridge.transport with
  | false => simp [handleRecord, h, invoke, he, ht, completedOutcome]
  | true =>
    rcases hr : world.script.reported with (e | _) | _ <;>
      simp [handleRecord, h, invoke, he, ht, reporting, hr, afterReport, TerminalOutcome.call,
        completedOutcome, callbackFailedOutcome]

theorem handleRecord_failed {e : Exn} (h : readRecord adapter record = .ok job)
    (he : executed adapter.bridge job world = .error (.exception e)) :
    handleRecord adapter record world = ⟨handlerCalls adapter.bridge job,
      if adapter.bridge.transport then
        List.replicate world.script.delivery.attempts
          (.nack job.id (errorFields (failureCode e).1 e (failureCode e).2)) else [],
      if adapter.bridge.transport then
        afterReport world.script.reported
      else .ok true⟩ := by
  cases ht : adapter.bridge.transport with
  | false => simp [handleRecord, h, invoke, he, ht]
  | true =>
    rcases hr : world.script.reported with (e' | _) | _ <;>
      simp [handleRecord, h, invoke, he, ht, reporting, hr, afterReport, TerminalOutcome.call,
        failedOutcome, callbackFailedOutcome]

theorem turnSpec_unread {e : Exn} (h : readRecord adapter record = .error e) :
    TurnSpec adapter record world (handleRecord adapter record world) := by
  rw [handleRecord_unread h]
  refine ⟨by simp, ⟨.ack "" none, by simp⟩, ?_, by simp⟩
  simp only [Except.ok.injEq, Bool.true_eq_false, false_iff]
  rintro ⟨job, hjob, _⟩
  rw [h] at hjob
  cases hjob

/-- A report that is made settles the record exactly when one of its calls is answered. -/
theorem turnSpec_reported {call : CompletionCall (Option V)}
    (hturn : handleRecord adapter record world = ⟨handlerCalls adapter.bridge job,
      List.replicate world.script.delivery.attempts call, afterReport world.script.reported⟩)
    (hsettled : Settled adapter record world ↔
      Delivered (handleRecord adapter record world).calls world.script call) :
    TurnSpec adapter record world (handleRecord adapter record world) := by
  rw [hturn] at hsettled ⊢
  refine ⟨handlerCalls_length_le, ⟨call, fun c hc => (List.mem_replicate.mp hc).2⟩, ?_, ?_⟩
  · rw [hsettled, delivered_replicate_iff, afterReport_ok_false_iff]
    exact (and_iff_right rfl).symm
  · intro raised hraised
    obtain ⟨hcancelled, hended⟩ := afterReport_error hraised
    exact ⟨hcancelled, .inr (reported_cancelled hended)⟩

theorem settled_iff_of_succeeds {result : Option V} (h : readRecord adapter record = .ok job)
    (hs : Succeeds adapter.bridge job world result) :
    Settled adapter record world ↔ (adapter.bridge.transport = true →
      Delivered (handleRecord adapter record world).calls world.script (.ack job.id result)) := by
  have hexecuted := hs.executed_eq
  constructor
  · rintro ⟨job', hjob', ⟨result', hs', hdelivered⟩ | ⟨hfails, _⟩⟩
    · cases h.symm.trans hjob'
      cases hexecuted.symm.trans hs'.executed_eq
      exact hdelivered
    · cases h.symm.trans hjob'
      obtain ⟨e, he⟩ := hfails.executed_eq
      cases hexecuted.symm.trans he
  · intro hdelivered
    exact ⟨job, h, .inl ⟨result, hs, hdelivered⟩⟩

theorem settled_iff_of_fails (h : readRecord adapter record = .ok job)
    (hf : Fails adapter.bridge job world) :
    Settled adapter record world ↔ adapter.bridge.transport = true ∧
      ∃ error, Delivered (handleRecord adapter record world).calls world.script
        (.nack job.id error) := by
  obtain ⟨e, he⟩ := hf.executed_eq
  constructor
  · rintro ⟨job', hjob', ⟨result', hs', _⟩ | ⟨_, hdelivered⟩⟩
    · cases h.symm.trans hjob'
      cases he.symm.trans hs'.executed_eq
    · cases h.symm.trans hjob'
      exact hdelivered
  · intro hdelivered
    exact ⟨job, h, .inr ⟨hf, hdelivered⟩⟩

theorem turnSpec_succeeded {result : Option V} (h : readRecord adapter record = .ok job)
    (hs : Succeeds adapter.bridge job world result) :
    TurnSpec adapter record world (handleRecord adapter record world) := by
  have hturn := handleRecord_succeeded h hs.executed_eq
  have hsettled := settled_iff_of_succeeds h hs
  cases ht : adapter.bridge.transport with
  | false =>
    simp only [ht, Bool.false_eq_true, if_false] at hturn
    simp only [ht, Bool.false_eq_true, false_implies, iff_true] at hsettled
    rw [hturn]
    exact ⟨handlerCalls_length_le, ⟨.ack "" none, by simp⟩, by simpa using hsettled, by simp⟩
  | true =>
    simp only [ht, if_true] at hturn
    simp only [ht, true_implies] at hsettled
    exact turnSpec_reported hturn hsettled

theorem turnSpec_failed (h : readRecord adapter record = .ok job)
    (hf : Fails adapter.bridge job world) :
    TurnSpec adapter record world (handleRecord adapter record world) := by
  obtain ⟨e, he⟩ := hf.executed_eq
  have hturn := handleRecord_failed h he
  have hsettled := settled_iff_of_fails h hf
  cases ht : adapter.bridge.transport with
  | false =>
    simp only [ht, Bool.false_eq_true, if_false] at hturn
    simp only [ht, Bool.false_eq_true, false_and, iff_false] at hsettled
    rw [hturn]
    exact ⟨handlerCalls_length_le, ⟨.ack "" none, by simp⟩, by simpa using hsettled, by simp⟩
  | true =>
    simp only [ht, if_true] at hturn
    refine turnSpec_reported hturn ?_
    rw [hsettled, ht, hturn]
    simp only [true_and, delivered_replicate_iff, CompletionCall.nack.injEq, exists_eq_left]

theorem turnSpec_cancelled (h : readRecord adapter record = .ok job)
    (hhandled : world.handled = .error .cancelled)
    (he : executed adapter.bridge job world = .error .cancelled) :
    TurnSpec adapter record world (handleRecord adapter record world) := by
  rw [handleRecord_cancelled h he]
  refine ⟨handlerCalls_length_le, ⟨.ack "" none, by simp⟩, ?_, ?_⟩
  · simp only [reduceCtorEq, false_iff]
    rintro ⟨job', hjob', ⟨result', hs', _⟩ | ⟨hfails, _⟩⟩
    · cases h.symm.trans hjob'
      cases he.symm.trans hs'.executed_eq
    · cases h.symm.trans hjob'
      obtain ⟨e, he'⟩ := hfails.executed_eq
      cases he.symm.trans he'
  · intro raised hraised
    cases hraised
    exact ⟨rfl, .inl hhandled⟩

theorem handleRecord_turnSpec (adapter : Adapter V) (record : Json) (world : InvocationWorld V) :
    TurnSpec adapter record world (handleRecord adapter record world) := by
  cases h : readRecord adapter record with
  | error e => exact turnSpec_unread h
  | ok job =>
    obtain ⟨result, hs, _⟩ | ⟨hf, _⟩ | ⟨hhandled, he⟩ := executed_cases adapter.bridge job world
    · exact turnSpec_succeeded h hs
    · exact turnSpec_failed h hf
    · exact turnSpec_cancelled h hhandled he

end Turn

/-! ## The batch -/

/-- The identifiers of the records that are not left out, one for each, in record order. -/
def reportedIdentifiers (leftOut : ℕ → Bool) (records : List Json) : List String :=
  (records.zipIdx.filter fun entry => !leftOut entry.2).map fun entry => recordMessageId entry.1

/-- What handling a batch may do, whatever each of its records meets. -/
structure PartialBatch (adapter : Adapter V) (records : List Json)
    (worlds : ℕ → InvocationWorld V) (run : BatchRun V) : Prop where
  handled : ∀ turn ∈ run.turns, turn.handled.length ≤ 1
  ack_or_nack : ∀ turn ∈ run.turns, ∀ jobId result, .ack jobId result ∈ turn.calls →
    ∀ jobId' error, .nack jobId' error ∉ turn.calls
  turns : ∀ i turn, run.turns[i]? = some turn →
    ∃ record, records[i]? = some record ∧ turn = handleRecord adapter record (worlds i)
  failures : ∀ failures, run.failures = .ok failures →
    run.turns.length = records.length ∧
      ∃ leftOut : ℕ → Bool, failures = reportedIdentifiers leftOut records ∧
        ∀ i record, records[i]? = some record →
          (leftOut i = true ↔ Settled adapter record (worlds i))
  raised : ∀ raised, run.failures = .error raised →
    raised = .cancelled ∧ ∃ i < records.length, (worlds i).Cancelled

section Batch
variable (adapter : Adapter V) (worlds : ℕ → InvocationWorld V)

def deleted (record : Json) (world : InvocationWorld V) : Bool :=
  match (handleRecord adapter record world).answer with
  | .ok failed => !failed
  | .error _ => false

theorem deleted_iff (record : Json) (world : InvocationWorld V) :
    deleted adapter record world = true ↔ Settled adapter record world := by
  rw [← (handleRecord_turnSpec adapter record world).deleted_iff, deleted]
  rcases (handleRecord adapter record world).answer with _ | (_ | _) <;> simp

theorem handleRecords_turns (i : ℕ) (records : List Json) (k : ℕ)
    (turn : EntryRun V (Except Raised Bool))
    (h : (handleRecords adapter worlds i records).turns[k]? = some turn) :
    ∃ record, records[k]? = some record ∧
      turn = handleRecord adapter record (worlds (i + k)) := by
  induction records generalizing i k with
  | nil => simp [handleRecords] at h
  | cons record rest ih =>
    rw [handleRecords] at h
    cases hanswer : (handleRecord adapter record (worlds i)).answer with
    | error raised =>
      simp only [hanswer] at h
      cases k with
      | zero => exact ⟨record, rfl, (Option.some_inj.mp h).symm⟩
      | succ k => simp at h
    | ok failed =>
      simp only [hanswer] at h
      cases k with
      | zero => exact ⟨record, rfl, (Option.some_inj.mp h).symm⟩
      | succ k =>
        obtain ⟨found, hfound, hturn⟩ := ih (i + 1) k (by simpa using h)
        refine ⟨found, by simpa using hfound, ?_⟩
        rw [hturn]
        congr 2
        omega

theorem handleRecords_failures (i : ℕ) (records : List Json) (failures : List String)
    (h : (handleRecords adapter worlds i records).failures = .ok failures) :
    (handleRecords adapter worlds i records).turns.length = records.length ∧
      failures = ((records.zipIdx i).filter fun entry =>
        !deleted adapter entry.1 (worlds entry.2)).map fun entry => recordMessageId entry.1 := by
  induction records generalizing i failures with
  | nil =>
    cases h
    exact ⟨rfl, rfl⟩
  | cons record rest ih =>
    rw [handleRecords] at h ⊢
    cases hanswer : (handleRecord adapter record (worlds i)).answer with
    | error raised =>
      simp only [hanswer] at h
      cases h
    | ok failed =>
      simp only [hanswer] at h ⊢
      obtain ⟨tail, htail, hfailures⟩ := ExceptRules.bind_eq_ok.mp h
      obtain ⟨hlength, hrest⟩ := ih (i + 1) tail htail
      cases hfailures
      refine ⟨congrArg Nat.succ hlength, ?_⟩
      cases failed <;> simp [deleted, hanswer, hrest]

theorem handleRecords_raised (i : ℕ) (records : List Json) (raised : Raised)
    (h : (handleRecords adapter worlds i records).failures = .error raised) :
    raised = .cancelled ∧ ∃ k < records.length, (worlds (i + k)).Cancelled := by
  induction records generalizing i with
  | nil => cases h
  | cons record rest ih =>
    rw [handleRecords] at h
    have hturn := handleRecord_turnSpec adapter record (worlds i)
    cases hanswer : (handleRecord adapter record (worlds i)).answer with
    | error found =>
      simp only [hanswer] at h
      cases h
      obtain ⟨hcancelled, hworld⟩ := hturn.raised _ hanswer
      exact ⟨hcancelled, 0, Nat.succ_pos _, hworld⟩
    | ok failed =>
      simp only [hanswer] at h
      have htail : (handleRecords adapter worlds (i + 1) rest).failures = .error raised := by
        cases hrest : (handleRecords adapter worlds (i + 1) rest).failures with
        | error found =>
          rw [hrest] at h
          cases h
          rfl
        | ok tail =>
          rw [hrest] at h
          cases h
      obtain ⟨hcancelled, k, hk, hworld⟩ := ih (i + 1) htail
      refine ⟨hcancelled, k + 1, Nat.succ_lt_succ hk, ?_⟩
      rwa [show i + (k + 1) = i + 1 + k by omega]

end Batch

end OpenJobSpec.Serverless
