import OpenJobSpec.Grpc.Transport
import OpenJobSpec.Worker.ProcessJob

/-! # Handler results completed over gRPC

A worker whose handler returned delivers the result through the transport's
acknowledgement. A result that the request message cannot hold fails before
anything is sent, and the failure comes back to the delivery loop as a
connection error.
-/
namespace OpenJobSpec.Grpc
open Worker RetryLoop

variable {S : Type}

def ackReply (protobuf : Protobuf S) (respond : AckRequest S → Fields) (jobId : String)
    (result : Json) : DeliveryReply :=
  match ack protobuf respond jobId result with
  | .ok _ => ⟨.ok (), .ok ()⟩
  | .error e => ⟨.error (.exception e), .ok ()⟩

/-- The execution of a job whose handler returned `result`, left to run to its end. -/
def completeOverGrpc (protobuf : Protobuf S) (respond : AckRequest S → Fields)
    (handlers : String → Bool) (job : Job) (result : Json) : Execution Json :=
  processJob handlers job (some (.ok result))
    (List.replicate 3 (ackReply protobuf respond job.id result))

def acksReceived (protobuf : Protobuf S) (calls : List (CompletionCall Json)) :
    List (AckRequest S) :=
  calls.filterMap fun
    | .ack jobId result => (encodeAck protobuf jobId result).toOption
    | .nack .. => none

/-- The server receives one acknowledgement, with a result in it, and no attempt fails. -/
structure ResultDelivered (protobuf : Protobuf S) (job : Job) (r : Execution Json) : Prop where
  received : ∃ message, acksReceived protobuf r.calls = [⟨job.id, some message⟩]
  no_failure : ∀ reply ∈ r.replies, reply.call = .ok ()

variable {protobuf : Protobuf S} {respond : AckRequest S → Fields} {handlers : String → Bool}
  {job : Job} {result : Json}

theorem encodeAck_eq (hresult : result ≠ .null) :
    encodeAck protobuf job.id result =
      match parseStruct protobuf result with
      | .ok message => .ok ⟨job.id, some message⟩
      | .error failure => .error (codecError "Ack" failure) :=
  if_neg hresult

theorem parseStruct_isOk_iff :
    (∃ message, parseStruct protobuf result = .ok message) ↔
      ∃ fields, result = .object fields ∧
        ∃ message, protobuf.encodeStruct fields = .ok message := by
  cases result <;> simp [parseStruct]

theorem completeOverGrpc_eq (hknown : handlers job.type = true) :
    completeOverGrpc protobuf respond handlers job result =
      .reporting { jobId := job.id } (.completed result)
        (List.replicate 3 (ackReply protobuf respond job.id result)) logged := by
  simp only [completeOverGrpc, processJob, if_pos hknown]

theorem completeOverGrpc_encoded {request : AckRequest S} (hknown : handlers job.type = true)
    (h : encodeAck protobuf job.id result = .ok request) :
    completeOverGrpc protobuf respond handlers job result =
      ⟨[.completed result], [.ack job.id result], [⟨.ok (), .ok ()⟩], some (.ok ())⟩ := by
  have hr : ackReply protobuf respond job.id result = ⟨.ok (), .ok ()⟩ := by
    simp only [ackReply, ack, h]
  rw [completeOverGrpc_eq hknown, hr]
  rfl

theorem acksReceived_not_encoded (job : Job) (result : Json) {e : Exn}
    (h : encodeAck protobuf job.id result = .error e)
    {calls : List (CompletionCall Json)} (hcalls : ∀ c ∈ calls, c = .ack job.id result) :
    acksReceived protobuf calls = [] := by
  induction calls with
  | nil => rfl
  | cons c rest ih =>
    have hc := hcalls c List.mem_cons_self
    have hrest := ih fun d hd => hcalls d (List.mem_cons_of_mem c hd)
    subst hc
    rw [acksReceived, List.filterMap_cons] at *
    simpa only [h, Except.toOption] using hrest

/-- A failure of the conversion that the codec catches comes back as a connection error,
so the result is tried three times and its job is left without an acknowledgement. -/
theorem completeOverGrpc_lost (protobuf : Protobuf S) (respond : AckRequest S → Fields)
    (handlers : String → Bool) (job : Job) (result : Json) {message : String}
    (hknown : handlers job.type = true)
    (hresult : result ≠ .null)
    (hparse : parseStruct protobuf result = .error (.parseError message)) :
    ∃ text, ackReply protobuf respond job.id result =
        ⟨.error (.exception (.connection text)), .ok ()⟩ ∧
      completeOverGrpc protobuf respond handlers job result =
        ⟨[.completed result], List.replicate 3 (.ack job.id result),
          List.replicate 3 (ackReply protobuf respond job.id result), some (.ok ())⟩ := by
  have he : encodeAck protobuf job.id result = .error (codecError "Ack" (.parseError message)) := by
    rw [encodeAck_eq hresult, hparse]
  have hr : ackReply protobuf respond job.id result = ⟨.error (.exception (.connection
      ("gRPC call Ack failed: " ++ (codecError "Ack" (.parseError message)).message))),
      .ok ()⟩ := by
    simp only [ackReply, ack, he]
    rfl
  refine ⟨_, hr, ?_⟩
  rw [completeOverGrpc_eq hknown, hr]
  rfl

/-- A result is delivered over gRPC exactly when it is a JSON object whose members the
runtime can hold. -/
theorem completeOverGrpc_delivered_iff (protobuf : Protobuf S) (respond : AckRequest S → Fields)
    (handlers : String → Bool) (job : Job) (result : Json) (hknown : handlers job.type = true)
    (hresult : result ≠ .null) :
    ResultDelivered protobuf job (completeOverGrpc protobuf respond handlers job result) ↔
      ∃ fields, result = .object fields ∧
        ∃ message, protobuf.encodeStruct fields = .ok message := by
  rw [← parseStruct_isOk_iff]
  constructor
  · intro hd
    obtain ⟨message, hm⟩ := hd.received
    cases hp : parseStruct protobuf result with
    | ok parsed => exact ⟨parsed, rfl⟩
    | error failure =>
      have he : encodeAck protobuf job.id result = .error (codecError "Ack" failure) := by
        rw [encodeAck_eq hresult, hp]
      have hcalls : ∀ c ∈ (completeOverGrpc protobuf respond handlers job result).calls,
          c = .ack job.id result := by
        rw [completeOverGrpc_eq hknown]
        exact (reporting_singleOutcome job.id (.completed result) _ logged).same_call
      rw [acksReceived_not_encoded job result he hcalls] at hm
      cases hm
  · rintro ⟨message, hm⟩
    have he : encodeAck protobuf job.id result = .ok ⟨job.id, some message⟩ := by
      rw [encodeAck_eq hresult, hm]
    rw [completeOverGrpc_encoded hknown he]
    constructor
    · refine ⟨message, ?_⟩
      simp only [acksReceived, List.filterMap_cons, List.filterMap_nil, he, Except.toOption]
    · intro reply hreply
      rw [List.mem_singleton.mp hreply]

def holdingObjects : Protobuf Fields where
  encodeStruct := .ok
  notAnObject value := "Struct must be in a dict which is " ++ value.typeName

def emailJob : Job := { id := "job-1", type := "email.send", state := .active }

theorem object_result_delivered :
    ResultDelivered holdingObjects emailJob
      (completeOverGrpc holdingObjects (fun _ => []) (· = "email.send") emailJob
        (.object [("sent", .bool true)])) :=
  (completeOverGrpc_delivered_iff holdingObjects (fun _ => []) (· = "email.send") emailJob
    (.object [("sent", .bool true)]) (by decide) (by decide)).mpr
    ⟨[("sent", .bool true)], rfl, _, rfl⟩

/-- A handler that returns a string has its job neither acknowledged nor failed, after three
calls that each end in a connection error. -/
theorem string_result_lost :
    let r := completeOverGrpc holdingObjects (fun _ => []) (· = "email.send") emailJob (.str "done")
    ¬ ResultDelivered holdingObjects emailJob r ∧ acksReceived holdingObjects r.calls = [] ∧
      r.calls = List.replicate 3 (.ack "job-1" (.str "done")) ∧
      ∀ reply ∈ r.replies, ∃ text, reply.call = .error (.exception (.connection text)) := by
  intro r
  obtain ⟨text, hreply, hrun⟩ := completeOverGrpc_lost holdingObjects (fun _ => [])
    (· = "email.send") emailJob (.str "done") (by decide) (by decide) rfl
  have hacks : acksReceived holdingObjects r.calls = [] :=
    acksReceived_not_encoded emailJob (.str "done") rfl
      (by rw [show r = _ from hrun]; exact fun c hc => (List.mem_replicate.mp hc).2)
  refine ⟨?_, hacks, ?_, ?_⟩
  · intro hd
    obtain ⟨message, hm⟩ := hd.received
    rw [hacks] at hm
    cases hm
  · rw [show r = _ from hrun]
    rfl
  · intro reply hmem
    rw [show r = _ from hrun, hreply] at hmem
    exact ⟨text, by rw [(List.mem_replicate.mp hmem).2]⟩

end OpenJobSpec.Grpc
