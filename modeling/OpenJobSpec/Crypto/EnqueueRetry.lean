import OpenJobSpec.Client.RequestValidation
import OpenJobSpec.Crypto.RoundTrip

/-! # Encryption inside an enqueue retry

All middlewares of one enqueue share the working copy of the request. A
middleware outside encryption that calls `next` again hands over what the last
call left there: arguments that are a ciphertext already.
-/
namespace OpenJobSpec.Crypto
open Client

structure EnqueueState where
  /-- the working copy -/
  request : JobRequest
  /-- the copies that the sink was handed -/
  sent : List JobRequest := []
  /-- nonces drawn so far -/
  drawn : ℕ := 0

abbrev EnqueueCall := EnqueueState → Except Raised (Option Job) × EnqueueState

/-- A middleware that passes on the request object it was given. -/
abbrev SharingMiddleware := EnqueueCall → EnqueueCall

/-- `EnqueueMiddlewareChain.execute`. -/
def executeSharing : List SharingMiddleware → EnqueueCall → EnqueueCall
  | [], final => final
  | current :: remaining, final => current (executeSharing remaining final)

/-- The terminal call; the sink answers the n-th push with the n-th reply. -/
def dispatch (replies : ℕ → Except Raised Job) : EnqueueCall := fun s =>
  match validateRequest s.request with
  | .error e => (.error (.exception e), s)
  | .ok () => ((replies s.sent.length).map some, { s with sent := s.sent ++ [s.request] })

/-- `EnqueuePipeline.enqueue`. -/
def enqueue (middlewares : List SharingMiddleware) (replies : ℕ → Except Raised Job)
    (request : JobRequest) : Except Raised Job × EnqueueState :=
  match validateRequest request with
  | .error e => (.error (.exception e), { request })
  | .ok () =>
    match executeSharing middlewares (dispatch replies) { request } with
    | (.ok (some job), s) => (.ok job, s)
    | (.ok none, s) =>
      (.error (.exception (.ojsError "Enqueue middleware rejected the request")), s)
    | (.error raised, s) => (.error raised, s)

section Middleware
variable (codec : EncryptionCodec) (text : JsonText)

def encryptionMiddleware (nonces : ℕ → Nonce) : SharingMiddleware := fun next s =>
  next { s with
    request := encryptRequest codec text (nonces s.drawn) s.request, drawn := s.drawn + 1 }

/-- Calls `next` with the same request, and up to so many times more after it failed. -/
def callAgain : (retries : ℕ) → SharingMiddleware
  | 0, next, s => next s
  | retries + 1, next, s =>
    match next s with
    | (.error (.exception _), t) => callAgain retries next t
    | done => done

/-- The envelopes of one enqueue with a retrying middleware outside encryption. -/
def sentEncrypted (nonces : ℕ → Nonce) (retries : ℕ) (replies : ℕ → Except Raised Job)
    (request : JobRequest) : List JobRequest :=
  (enqueue [callAgain retries, encryptionMiddleware codec text nonces] replies request).2.sent

/-- Decryption gives back the arguments, with the key that the envelope names. -/
def Decrypts (args : List Json) (envelope : JobRequest) : Prop :=
  decryptArgs codec text (envelope.meta.getD []) (.array envelope.args) = .ok (.array args)

end Middleware

/-- The first call fails, and the middleware calls again. -/
def CallsAgain (retries : ℕ) (replies : ℕ → Except Raised Job) : Prop :=
  retries ≠ 0 ∧ ∃ e, replies 0 = .error (.exception e)

section Calls
variable {codec : EncryptionCodec} {text : JsonText} {nonces : ℕ → Nonce}
variable {replies : ℕ → Except Raised Job} {s : EnqueueState} {request : JobRequest}

theorem validateRequest_encryptRequest (nonce : Nonce) (request : JobRequest) :
    validateRequest (encryptRequest codec text nonce request) = validateRequest request := rfl

/-- A call through encryption sends what it encrypts. -/
theorem call_valid (h : validateRequest s.request = .ok ()) :
    encryptionMiddleware codec text nonces (dispatch replies) s =
      ((replies s.sent.length).map some,
        ⟨encryptRequest codec text (nonces s.drawn) s.request,
          s.sent ++ [encryptRequest codec text (nonces s.drawn) s.request], s.drawn + 1⟩) := by
  rw [encryptionMiddleware, dispatch]
  dsimp only
  rw [validateRequest_encryptRequest, h]

theorem call_sent_prefix :
    s.sent <+: (encryptionMiddleware codec text nonces (dispatch replies) s).2.sent := by
  rw [encryptionMiddleware, dispatch]
  dsimp only
  split
  · exact List.prefix_rfl
  · exact List.prefix_append _ _

/-- What the first call sends stays sent. -/
theorem callAgain_sent_prefix (retries : ℕ) (s : EnqueueState) :
    (encryptionMiddleware codec text nonces (dispatch replies) s).2.sent <+:
      (callAgain retries (encryptionMiddleware codec text nonces (dispatch replies))
        s).2.sent := by
  induction retries generalizing s with
  | zero => exact List.prefix_rfl
  | succ retries ih =>
    rw [callAgain]
    split
    next e t heq =>
      rw [heq]
      exact call_sent_prefix.trans (ih t)
    next => exact List.prefix_rfl

theorem sentEncrypted_invalid {retries : ℕ} {e : Exn} (h : validateRequest request = .error e) :
    sentEncrypted codec text nonces retries replies request = [] := by
  simp only [sentEncrypted, enqueue, h]

theorem sentEncrypted_valid (retries : ℕ) (h : validateRequest request = .ok ()) :
    sentEncrypted codec text nonces retries replies request =
      (callAgain retries (encryptionMiddleware codec text nonces (dispatch replies))
        { request }).2.sent := by
  simp only [sentEncrypted, enqueue, h, executeSharing]
  split <;> simp_all

/-- The first call, once the request is valid. -/
theorem first_call (h : validateRequest request = .ok ()) :
    encryptionMiddleware codec text nonces (dispatch replies) { request } =
      ((replies 0).map some, ⟨encryptRequest codec text (nonces 0) request,
        [encryptRequest codec text (nonces 0) request], 1⟩) :=
  call_valid h

theorem sentEncrypted_once {retries : ℕ} (h : validateRequest request = .ok ())
    (honce : ¬ CallsAgain retries replies) :
    sentEncrypted codec text nonces retries replies request =
      [encryptRequest codec text (nonces 0) request] := by
  rw [sentEncrypted_valid retries h]
  cases retries with
  | zero => rw [callAgain, first_call h]
  | succ retries =>
    rw [callAgain, first_call h]
    rcases hreply : replies 0 with (e | _) | job
    · exact absurd ⟨retries.succ_ne_zero, e, hreply⟩ honce
    · rfl
    · rfl

/-- A second call encrypts what the first one sent. -/
theorem second_sent {retries : ℕ} (h : validateRequest request = .ok ())
    (hagain : CallsAgain retries replies) :
    encryptRequest codec text (nonces 1) (encryptRequest codec text (nonces 0) request) ∈
      sentEncrypted codec text nonces retries replies request := by
  obtain ⟨hretries, e, he⟩ := hagain
  obtain ⟨n, rfl⟩ := Nat.exists_eq_succ_of_ne_zero hretries
  rw [sentEncrypted_valid _ h, Nat.succ_eq_add_one, callAgain, first_call h, he]
  refine ( callAgain_sent_prefix n _).subset ?_
  have hvalid : validateRequest (encryptRequest codec text (nonces 0) request) = .ok () := h
  rw [call_valid hvalid]
  simp

/-- The key that a request names is the same once it is encrypted. -/
theorem readKeyId_encryptRequest (nonce : Nonce) (request : JobRequest) :
    readKeyId codec.provider (encryptRequest codec text nonce request).meta =
      readKeyId codec.provider request.meta := by
  unfold readKeyId
  split
  · change Fields.get (encryptedMeta codec.provider.currentKey nonce.bytes request.meta) _ _ = _
    rw [Fields.get, encryptedMeta_legacyKeyId]
    rfl
  · rfl

/-- Arguments encrypted twice do not come back under one decryption. -/
theorem not_decrypts_second (hkey : KeyNamed codec.provider request.meta) :
    ¬ Decrypts codec text request.args
      (encryptRequest codec text (nonces 1) (encryptRequest codec text (nonces 0) request)) := by
  unfold Decrypts
  have hkey' : KeyNamed codec.provider (encryptRequest codec text (nonces 0) request).meta := by
    rw [KeyNamed, readKeyId_encryptRequest]
    exact hkey
  rw [decryptArgs_encryptRequest_named hkey']
  set ciphertext := codec.aesgcm.encrypt codec.provider.current (nonces 0).bytes
    (text.dumps request.args) with hciphertext
  -- the first ciphertext, as a string, is too long to be among the arguments it encrypts
  change text.loads (text.dumps [.str (Base64.b64encode ciphertext)]) ≠ _
  rw [text.loads_string]
  intro h
  have hargs : request.args = [.str (Base64.b64encode ciphertext)] := by
    simpa [eq_comm] using h
  have hloads : text.loads (text.dumps request.args) =
      .ok (.array (.str (Base64.b64encode ciphertext) :: [])) := by
    rw [hargs, text.loads_string]
  have hdecoded := Base64.decodeText_b64encode ciphertext
  exact ciphertext_ne codec.provider.current_length hdecoded hloads

end Calls

/-- Every envelope sent decrypts to the original arguments exactly when none is sent, or the key is
named and encryption runs once. -/
theorem encryption_under_retries_iff (codec : EncryptionCodec) (text : JsonText)
    (nonces : ℕ → Nonce) (request : JobRequest) (retries : ℕ) (replies : ℕ → Except Raised Job)
    (hlossless : text.loads (text.dumps request.args) = .ok (.array request.args))
    (hreject : RejectsOtherKeys codec text (nonces 0) request.args) :
    (∀ envelope ∈ sentEncrypted codec text nonces retries replies request,
        Decrypts codec text request.args envelope) ↔
      validateRequest request ≠ .ok () ∨
        (KeyNamed codec.provider request.meta ∧ ¬ CallsAgain retries replies) := by
  rcases hvalid : validateRequest request with e | ⟨⟩
  · simp [sentEncrypted_invalid hvalid]
  · simp only [ne_eq, not_true, false_or]
    constructor
    · intro h
      have hfirst : encryptRequest codec text (nonces 0) request ∈
          sentEncrypted codec text nonces retries replies request := by
        rw [sentEncrypted_valid retries hvalid]
        refine ( callAgain_sent_prefix retries _).subset ?_
        rw [first_call hvalid]
        exact List.mem_singleton_self _
      have hkey : KeyNamed codec.provider request.meta := by_contra fun hkey =>
        decryptArgs_encryptRequest_unnamed hkey hreject _ (h _ hfirst)
      exact ⟨hkey, fun hagain => not_decrypts_second hkey (h _ (second_sent hvalid hagain))⟩
    · rintro ⟨hkey, honce⟩ envelope henvelope
      rw [sentEncrypted_once hvalid honce, List.mem_singleton] at henvelope
      subst henvelope
      exact (decryptArgs_encryptRequest_named hkey).trans hlossless

section Examples

def integerRequest : JobRequest := { type := "a", queue := "q", args := [.int 7] }

/-- A sink whose first push fails. -/
def failsFirst : ℕ → Except Raised Job
  | 0 => .error (.exception (.connection "refused"))
  | _ => .ok { id := "1", type := "a", state := .available }

def countingNonce (n : ℕ) : Nonce := ⟨List.replicate 12 (UInt8.ofNat n), List.length_replicate⟩

theorem single_call_readable :
    ∃ envelope ∈ sentEncrypted stampCodec plainJson countingNonce 0 failsFirst integerRequest,
      Decrypts stampCodec plainJson integerRequest.args envelope := by
  have hvalid : validateRequest integerRequest = .ok () := by decide +kernel
  have honce : ¬ CallsAgain 0 failsFirst := fun h => h.1 rfl
  have hall := (encryption_under_retries_iff stampCodec plainJson countingNonce integerRequest 0
    failsFirst rfl (stamp_rejectsOtherKeys _ _)).mpr (Or.inr ⟨rfl, honce⟩)
  have hsent : sentEncrypted stampCodec plainJson countingNonce 0 failsFirst integerRequest =
      [encryptRequest stampCodec plainJson (countingNonce 0) integerRequest] :=
    sentEncrypted_once hvalid honce
  rw [hsent] at hall ⊢
  exact ⟨_, List.mem_cons_self, hall _ List.mem_cons_self⟩

theorem second_call_unreadable :
    ¬ ∀ envelope ∈ sentEncrypted stampCodec plainJson countingNonce 1 failsFirst integerRequest,
      Decrypts stampCodec plainJson integerRequest.args envelope := by
  intro h
  have hvalid : validateRequest integerRequest = .ok () := by decide +kernel
  have hkey : KeyNamed stampCodec.provider integerRequest.meta := rfl
  have hagain : CallsAgain 1 failsFirst := ⟨one_ne_zero, _, rfl⟩
  exact not_decrypts_second hkey (h _ (second_sent hvalid hagain))

end Examples

end OpenJobSpec.Crypto
