import OpenJobSpec.Crypto.RoundTrip
import OpenJobSpec.Foundation.Runs

/-! # Keys that rotate while jobs are queued

Clients and workers are given new key providers at any time, with jobs encrypted under older keys
still queued. Where workers know a key before clients use it, and keep it while a job needs it,
every job is presented with its own arguments.
-/
namespace OpenJobSpec.Crypto
open ExceptRules Runs

/-- A job as it was encrypted, and the key that encrypted it. -/
structure QueuedJob where
  request : JobRequest
  envelope : JobRequest
  keyId : String
  key : Bytes

/-- What decryption left for the handler of a job. -/
structure Presented where
  request : JobRequest
  args : Except Exn Json

structure KeyRotation where
  client : StaticKeyProvider
  worker : StaticKeyProvider
  queued : List QueuedJob := []
  presented : List Presented := []

inductive RotationStep
  | rotateClient (provider : StaticKeyProvider)
  | rotateWorker (provider : StaticKeyProvider)
  | enqueue (nonce : Nonce) (request : JobRequest)
  | deliver (index : ℕ)
  /-- the job goes back to the queue after it was presented -/
  | redeliver (index : ℕ)

namespace KeyRotation
variable (aesgcm : Aesgcm) (text : JsonText)

def encrypted (client : StaticKeyProvider) (nonce : Nonce) (request : JobRequest) : QueuedJob where
  request := request
  envelope := encryptRequest ⟨client, aesgcm⟩ text nonce request
  keyId := client.currentKey
  key := client.current

/-- A worker runs the decryption middleware on a queued job. -/
def present (worker : StaticKeyProvider) (job : QueuedJob) : Presented where
  request := job.request
  args := decryptArgs ⟨worker, aesgcm⟩ text (job.envelope.meta.getD []) (.array job.envelope.args)

def next (s : KeyRotation) : RotationStep → Option KeyRotation
  | .rotateClient provider => some { s with client := provider }
  | .rotateWorker provider => some { s with worker := provider }
  | .enqueue nonce request =>
    some { s with queued := s.queued ++ [encrypted aesgcm text s.client nonce request] }
  | .deliver index => do
    let job ← s.queued[index]?
    return { s with
      queued := s.queued.eraseIdx index
      presented := s.presented ++ [present aesgcm text s.worker job] }
  | .redeliver index => do
    let job ← s.queued[index]?
    return { s with presented := s.presented ++ [present aesgcm text s.worker job] }

/-- The provider has this key under the id. -/
def Knows (provider : StaticKeyProvider) (keyId : String) (key : Bytes) : Prop :=
  provider.keys.lookup keyId = some key

/-- Clients use a key once workers know it, and workers drop none that clients use or a queued job
needs. -/
def Ordered (s : KeyRotation) : RotationStep → Prop
  | .rotateClient provider =>
    provider.currentKey ≠ "" ∧ Knows s.worker provider.currentKey provider.current
  | .rotateWorker provider => Knows provider s.client.currentKey s.client.current ∧
    ∀ job ∈ s.queued, Knows provider job.keyId job.key
  | _ => True

variable {aesgcm text}

/-- An envelope is read with whatever key its reader has under the id of the one that made it. -/
theorem decryptArgs_encrypted {client worker : StaticKeyProvider} (hid : client.currentKey ≠ "")
    (hknows : Knows worker client.currentKey client.current) (nonce : Nonce)
    (request : JobRequest) :
    (present aesgcm text worker (encrypted aesgcm text client nonce request)).args =
      text.loads (text.dumps request.args) := by
  have hkeyId : (Fields.get (encryptedMeta client.currentKey nonce.bytes request.meta) metaKeyId
      .null).orElse (Fields.get (encryptedMeta client.currentKey nonce.bytes request.meta)
        legacyMetaKeyId (.str "")) = .str client.currentKey := by
    rw [Fields.get_of_lookup (encryptedMeta_keyId _ _ _)]
    simp [Json.orElse, Json.truthy, hid]
  have hnonce : (Fields.get (encryptedMeta client.currentKey nonce.bytes request.meta) metaNonce
      .null).orElse (Fields.get (encryptedMeta client.currentKey nonce.bytes request.meta)
        legacyMetaNonce (.str "")) = .str (Base64.b64encode nonce.bytes) := by
    rw [Fields.get_of_lookup (encryptedMeta_nonce _ _ _), Json.orElse,
      if_pos (nonce_text_truthy nonce)]
  have hgetKey : worker.getKey (.str client.currentKey) = .ok client.current := by
    have hlookup : worker.keys.lookup client.currentKey = some client.current := hknows
    rw [StaticKeyProvider.getKey, hlookup]
  have hargs (s : String) : (Json.array [.str s]).truthy = true := rfl
  change decryptArgs ⟨worker, aesgcm⟩ text
    (encryptedMeta client.currentKey nonce.bytes request.meta)
    (.array [.str (Base64.b64encode
      (aesgcm.encrypt client.current nonce.bytes (text.dumps request.args)))]) = _
  rw [decryptArgs, encryptedMeta_not_empty, encryptedMeta_isEncrypted, hargs, hkeyId, hnonce]
  simp only [Bool.false_eq_true, if_false, not_true, Json.first, ok_bind, Base64.b64decode,
    Base64.decodeText_b64encode, EncryptionCodec.decrypt, hgetKey,
    aesgcm.decrypt_encrypt _ client.current_length nonce.length_eq]

/-- The workers can read what is queued and what clients will enqueue. -/
structure Readable (aesgcm : Aesgcm) (text : JsonText) (s : KeyRotation) : Prop where
  named : s.client.currentKey ≠ ""
  current : Knows s.worker s.client.currentKey s.client.current
  queued : ∀ job ∈ s.queued, Knows s.worker job.keyId job.key ∧
    ∀ worker, Knows worker job.keyId job.key →
      (present aesgcm text worker job).args = text.loads (text.dumps job.request.args)
  presented : ∀ p ∈ s.presented, p.args = text.loads (text.dumps p.request.args)

variable {s t : KeyRotation}

theorem Readable.present (h : Readable aesgcm text s) {index : ℕ} {job : QueuedJob}
    (hjob : s.queued[index]? = some job) :
    ∀ p ∈ s.presented ++ [KeyRotation.present aesgcm text s.worker job],
      p.args = text.loads (text.dumps p.request.args) := by
  intro p hp
  rcases List.mem_append.mp hp with hold | hnew
  · exact h.presented p hold
  · obtain ⟨hknows, hread⟩ := h.queued job (List.mem_of_getElem? hjob)
    rw [List.mem_singleton.mp hnew]
    exact hread s.worker hknows

theorem Readable.next {step : RotationStep} (hordered : Ordered s step)
    (h : Readable aesgcm text s) (hn : s.next aesgcm text step = some t) :
    Readable aesgcm text t := by
  cases step with
  | rotateClient provider =>
    cases hn
    exact ⟨hordered.1, hordered.2, h.queued, h.presented⟩
  | rotateWorker provider =>
    cases hn
    exact ⟨h.named, hordered.1, fun job hjob => ⟨hordered.2 job hjob, (h.queued job hjob).2⟩,
      h.presented⟩
  | enqueue nonce request =>
    cases hn
    refine ⟨h.named, h.current, fun job hjob => ?_, h.presented⟩
    rcases List.mem_append.mp hjob with hold | hnew
    · exact h.queued job hold
    · rw [List.mem_singleton.mp hnew]
      exact ⟨h.current, fun worker hknows => decryptArgs_encrypted h.named hknows nonce request⟩
  | deliver index =>
    simp only [KeyRotation.next, Option.bind_eq_bind, Option.bind_eq_some_iff] at hn
    obtain ⟨job, hjob, ht⟩ := hn
    cases ht
    exact ⟨h.named, h.current, fun other hother => h.queued other (List.mem_of_mem_eraseIdx hother),
      h.present hjob⟩
  | redeliver index =>
    simp only [KeyRotation.next, Option.bind_eq_bind, Option.bind_eq_some_iff] at hn
    obtain ⟨job, hjob, ht⟩ := hn
    cases ht
    exact ⟨h.named, h.current, h.queued, h.present hjob⟩

/-- Where every rotation is ordered, whatever is enqueued and delivered between them, each job is
presented with what JSON makes of its own arguments, and never with its ciphertext or an error. -/
theorem rotation_keeps_arguments (aesgcm : Aesgcm) (text : JsonText)
    {client worker : StaticKeyProvider} (hid : client.currentKey ≠ "")
    (hknows : Knows worker client.currentKey client.current) {steps : List RotationStep}
    (hordered : Along Ordered (next aesgcm text) ⟨client, worker, [], []⟩ steps) :
    ∀ p ∈ (run (next aesgcm text) ⟨client, worker, [], []⟩ steps).presented,
      p.args = text.loads (text.dumps p.request.args) :=
  (run_invariant_along (Readable aesgcm text) (fun _ _ _ hC hI hn => hI.next hC hn) hordered
    ⟨hid, hknows, List.forall_mem_nil _, List.forall_mem_nil _⟩).presented

section Examples

/-- The second key encrypts. -/
def secondKey : StaticKeyProvider := { twoKeys with currentKey := "v2", current_mem := rfl }

/-- A job is delivered after both sides went over to the second key. -/
def rollover : List RotationStep := [.enqueue zeroNonce { type := "a.b", args := [.int 7] },
  .rotateClient secondKey, .rotateWorker secondKey, .deliver 0]

theorem rollover_keeps_arguments :
    ∃ p, (run (next stampCipher plainJson) ⟨twoKeys, twoKeys, [], []⟩ rollover).presented = [p] ∧
      p.args = .ok (.array [.int 7]) := by
  have hordered : Along Ordered (next stampCipher plainJson) ⟨twoKeys, twoKeys, [], []⟩
      rollover := by
    refine ⟨trivial, ⟨by decide, rfl⟩, ⟨rfl, fun job hjob => ?_⟩, trivial, trivial⟩
    rw [List.mem_singleton.mp hjob]
    rfl
  exact ⟨_, rfl, @rotation_keeps_arguments stampCipher plainJson twoKeys twoKeys (by decide) rfl
    rollover hordered _ List.mem_cons_self⟩

end Examples

end KeyRotation
end OpenJobSpec.Crypto
