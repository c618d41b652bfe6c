import OpenJobSpec.Attest.HostileReceipts

/-! # The attestor that signs nothing

Its receipts bind their claims by the payload alone: whoever changes a claim has to change the
evidence with it. An attestor with a key takes none of them for its own.
-/
namespace OpenJobSpec.Attest
open ExceptRules

variable {Zone : Type} (offsets : Zone → ℕ → Bool → Option ℤ)

def quoteTypeNone : PyText := "none"

def algorithmNone : PyText := "none"

namespace NoneAttestor

/-- `attest`, with the random bytes of its nonce. -/
def attest (entropy : PQCOnlyAttestor.Entropy) (envelope : AttestInput Zone) :
    Except Exn (AttestResult Zone) := do
  let nonce := hexText entropy.val
  let evidence ← canonicalPayload offsets {
    envelope
    quoteType := quoteTypeNone
    nonce
    issuedAt := envelope.timestamp
    algorithm := algorithmNone
    keyId := []
    receiptId := envelope.receiptId }
  return {
    quote := some { type := quoteTypeNone, evidence, nonce, issuedAt := envelope.timestamp }
    signature := { algorithm := algorithmNone, value := [], keyId := [] } }

/-- The claims that the payload is made of again. -/
def claims (receipt : Receipt Zone) (envelope : AttestInput Zone) (quote : Quote Zone) :
    Claims Zone where
  envelope := envelope
  quoteType := quote.type
  nonce := quote.nonce
  issuedAt := quote.issuedAt
  algorithm := algorithmNone
  keyId := []
  receiptId := envelope.receiptId
  jurisdiction := receipt.jurisdiction
  modelFingerprint := receipt.modelFingerprint

/-- What `verify` does with a receipt that has a quote. -/
def verifyQuote (receipt : Receipt Zone) (envelope : Option (AttestInput Zone))
    (quote : Quote Zone) : Except Exn Unit := do
  check (quote.type = quoteTypeNone) "attest: unexpected quote type"
  check (receipt.signature = ⟨algorithmNone, [], []⟩) "attest: invalid no-op signature claims"
  let envelope := envelope.getD (ownEnvelope receipt quote)
  check (receipt.jobId = envelope.jobId) "attest: receipt job_id mismatch"
  check (receipt.jobType = envelope.jobType) "attest: receipt job_type mismatch"
  check (receipt.argsHash = envelope.argsHash) "attest: receipt args_hash mismatch"
  check (receipt.resultHash = envelope.resultHash) "attest: receipt result_hash mismatch"
  check (receipt.receiptId = envelope.receiptId) "attest: receipt_id mismatch"
  let expected ← canonicalPayload offsets (claims receipt envelope quote)
  check (expected = quote.evidence) "attest: quote evidence does not match the claimed envelope"

def verify (receipt : Receipt Zone) (envelope : Option (AttestInput Zone)) : Except Exn Unit :=
  match receipt.quote with
  | none => .error (refusal "attest: receipt has no quote")
  | some quote => verifyQuote offsets receipt envelope quote

/-- What the checks establish. -/
structure Checked (receipt : Receipt Zone) (envelope : AttestInput Zone) (quote : Quote Zone) :
    Prop where
  type : quote.type = quoteTypeNone
  signature : receipt.signature = ⟨algorithmNone, [], []⟩
  jobId : receipt.jobId = envelope.jobId
  jobType : receipt.jobType = envelope.jobType
  argsHash : receipt.argsHash = envelope.argsHash
  resultHash : receipt.resultHash = envelope.resultHash
  receiptId : receipt.receiptId = envelope.receiptId
  evidence : canonicalPayload offsets (claims receipt envelope quote) = .ok quote.evidence

variable {offsets}

theorem verifyQuote_eq_ok {receipt : Receipt Zone} {envelope : Option (AttestInput Zone)}
    {quote : Quote Zone} : verifyQuote offsets receipt envelope quote = .ok () ↔
      Checked offsets receipt (envelope.getD (ownEnvelope receipt quote)) quote := by
  unfold verifyQuote
  simp only [check_bind_eq_ok]
  constructor
  · rintro ⟨h₁, h₂, h₃, h₄, h₅, h₆, h₇, h⟩
    obtain ⟨payload, hpayload, h⟩ := bind_eq_ok.mp h
    obtain rfl := check_eq_ok.mp h
    exact ⟨h₁, h₂, h₃, h₄, h₅, h₆, h₇, hpayload⟩
  · rintro ⟨h₁, h₂, h₃, h₄, h₅, h₆, h₇, hpayload⟩
    exact ⟨h₁, h₂, h₃, h₄, h₅, h₆, h₇, bind_eq_ok.mpr ⟨_, hpayload, check_eq_ok.mpr rfl⟩⟩

theorem verify_eq_ok {receipt : Receipt Zone} {envelope : Option (AttestInput Zone)} :
    verify offsets receipt envelope = .ok () ↔ ∃ quote, receipt.quote = some quote ∧
      Checked offsets receipt (envelope.getD (ownEnvelope receipt quote)) quote := by
  unfold verify
  cases receipt.quote with
  | none => simp
  | some quote =>
    rw [verifyQuote_eq_ok]
    simp

/-- What it issues for an envelope, it accepts for the envelope and without one. -/
theorem issued_accepted (entropy : PQCOnlyAttestor.Entropy) {e : AttestInput Zone}
    (hscalar : e.scalar = true) (he : Representable offsets e.timestamp) :
    ∃ result receipt, attest offsets entropy e = .ok result ∧
      result.toReceipt e [] = .ok receipt ∧ verify offsets receipt (some e) = .ok () ∧
      verify offsets receipt none = .ok () := by
  obtain ⟨evidence, hevidence⟩ := canonicalPayload_of_representable {
    envelope := e
    quoteType := quoteTypeNone
    nonce := hexText entropy.val
    issuedAt := e.timestamp
    algorithm := algorithmNone
    keyId := []
    receiptId := e.receiptId } (by
      have hnonce : (hexText entropy.val).all PyText.isScalar = true :=
        List.all_eq_true.mpr fun c hc => PyText.isScalar_of_isAscii (hexText_ascii _ c hc)
      simp only [AttestInput.scalar, List.all_cons, List.all_nil, Bool.and_true,
        Bool.and_eq_true] at hscalar
      simp [Claims.scalar, Claims.texts, hscalar, hnonce, PyText.all_isScalar_ofString,
        quoteTypeNone, algorithmNone]) he he
  refine ⟨_, _, bind_eq_ok.mpr ⟨evidence, hevidence, rfl⟩, toReceipt_eq _ e, ?_, ?_⟩
  · exact verify_eq_ok.mpr ⟨_, rfl, rfl, rfl, rfl, rfl, rfl, rfl, rfl, hevidence⟩
  · exact verify_eq_ok.mpr ⟨_, rfl, rfl, rfl, rfl, rfl, rfl, rfl, rfl, hevidence⟩

/-- Two accepted receipts with the same evidence make the same claims. -/
theorem accepted_agree {r r' : Receipt Zone} {e e' : AttestInput Zone} {q q' : Quote Zone}
    (h : Checked offsets r e q) (h' : Checked offsets r' e' q')
    (hevidence : q.evidence = q'.evidence) :
    SameClaims offsets (claims r e q) (claims r' e' q') ∧ r.jobId = r'.jobId ∧
      r.jobType = r'.jobType ∧ r.argsHash = r'.argsHash ∧ r.resultHash = r'.resultHash ∧
      r.receiptId = r'.receiptId := by
  have hsame := canonicalPayload_inj h.evidence (hevidence ▸ h'.evidence)
  exact ⟨hsame, h.jobId.trans (hsame.jobId.trans h'.jobId.symm),
    h.jobType.trans (hsame.jobType.trans h'.jobType.symm),
    h.argsHash.trans (hsame.argsHash.trans h'.argsHash.symm),
    h.resultHash.trans (hsame.resultHash.trans h'.resultHash.symm),
    h.receiptId.trans (hsame.receiptId.trans h'.receiptId.symm)⟩

variable [DecidableEq Zone] {digest : Bytes → Bytes → Bytes}

/-- A receipt that an attestor with a key accepts is signed with its algorithm. -/
theorem algorithm_of_signed {attestor : PQCOnlyAttestor} {now : ZonedDateTime Zone}
    {receipt : Receipt Zone} {envelope : Option (AttestInput Zone)}
    (h : attestor.verify offsets digest now receipt envelope = .ok ()) :
    receipt.signature.algorithm = PyText.ofString "hmac-sha256" := by
  unfold PQCOnlyAttestor.verify ReceiptVerifier.verify at h
  split at h
  next => cases h
  next quote hquote =>
    obtain ⟨hclaims, -⟩ := Attest.verifyQuote_eq_ok.mp h
    exact hclaims.algorithm

/-- The attestor without a key accepts what it issues, and binds every claim to the evidence but the
time that a receipt says of itself, which may be any; no receipt that it accepts for any envelope is
one that an attestor with a key accepts for any. -/
theorem unsigned_receipts (offsets : Zone → ℕ → Bool → Option ℤ) :
    (∀ (entropy : PQCOnlyAttestor.Entropy) (e : AttestInput Zone), e.scalar = true →
      Representable offsets e.timestamp → ∃ result receipt, attest offsets entropy e = .ok result ∧
        result.toReceipt e [] = .ok receipt ∧ verify offsets receipt (some e) = .ok () ∧
        verify offsets receipt none = .ok ()) ∧
    (∀ r r' : Receipt Zone, ∀ e e', verify offsets r e = .ok () → verify offsets r' e' = .ok () →
      ∃ q q', r.quote = some q ∧ r'.quote = some q' ∧ (q.evidence = q'.evidence →
        SameClaims offsets (claims r (e.getD (ownEnvelope r q)) q)
          (claims r' (e'.getD (ownEnvelope r' q')) q') ∧
          r.jobId = r'.jobId ∧ r.jobType = r'.jobType ∧ r.argsHash = r'.argsHash ∧
          r.resultHash = r'.resultHash ∧ r.receiptId = r'.receiptId)) ∧
    (∀ (r : Receipt Zone) (time : ZonedDateTime Zone) envelope,
      verify offsets { r with issuedAt := time } envelope = verify offsets r envelope) ∧
    ∀ (r : Receipt Zone) envelope, verify offsets r envelope = .ok () →
      ∀ (attestor : PQCOnlyAttestor) (digest : Bytes → Bytes → Bytes) now envelope',
        attestor.verify offsets digest now r envelope' ≠ .ok () := by
  refine ⟨fun entropy e => issued_accepted entropy, fun r r' e e' h h' => ?_,
    fun r time envelope => rfl, fun r envelope h attestor digest now envelope' hsigned => ?_⟩
  · obtain ⟨q, hq, hchecked⟩ := verify_eq_ok.mp h
    obtain ⟨q', hq', hchecked'⟩ := verify_eq_ok.mp h'
    exact ⟨q, q', hq, hq', accepted_agree hchecked hchecked'⟩
  · obtain ⟨q, -, hchecked⟩ := verify_eq_ok.mp h
    have halgorithm := algorithm_of_signed hsigned
    rw [hchecked.signature] at halgorithm
    have hname : "none" = "hmac-sha256" := PyText.ofString_injective halgorithm
    exact absurd hname (by decide)

end NoneAttestor
end OpenJobSpec.Attest
