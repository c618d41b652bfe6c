import OpenJobSpec.Attest.Receipt

/-! # Verification of receipts, and the attestor that issues them

The digest of a keyed message is a parameter; its hexadecimal text is computed
here.
-/
namespace OpenJobSpec.Attest
open ExceptRules

/-! ## Hexadecimal text -/

/-- `data.hex()`. -/
def hexText (data : Bytes) : PyText :=
  data.flatMap fun byte => [.scalar (Text.hexDigit (byte.toNat / 16)),
    .scalar (Text.hexDigit (byte.toNat % 16))]

def isHexDigit : PyChar → Bool
  | .scalar c =>
    let n := c.toNat
    48 ≤ n ∧ n ≤ 57 ∨ 65 ≤ n ∧ n ≤ 70 ∨ 97 ≤ n ∧ n ≤ 102
  | .surrogate _ => false

def isAsciiSpace : PyChar → Bool
  | .scalar c => c.toNat = 32 ∨ 9 ≤ c.toNat ∧ c.toNat ≤ 13
  | .surrogate _ => false

/-- Whether `bytes.fromhex(text)` accepts a text: blanks may stand between bytes. -/
def isHex : PyText → Bool
  | [] => true
  | [c] => isAsciiSpace c
  | c :: d :: rest =>
    if isAsciiSpace c then isHex (d :: rest) else isHexDigit c && isHexDigit d && isHex rest

/-- `hmac.compare_digest` of two texts. -/
def compareDigest (a b : PyText) : Except Exn Bool :=
  if (a ++ b).all PyText.isAscii then .ok (a = b)
  else .error
    (.builtin .typeError "comparing strings with non-ASCII characters is not supported")

/-! ## The verifier -/

/-- Raises a `ReceiptVerificationError` unless a condition holds. -/
def check (condition : Prop) [Decidable condition] (message : String) : Except Exn Unit :=
  if condition then .ok () else .error (refusal message)

structure ReceiptVerifier where
  secret : Bytes
  keyId : PyText
  /-- in microseconds -/
  maxAge : Option ℤ := some (300 * 10 ^ 6)
  maxFutureSkew : ℤ := 30 * 10 ^ 6

variable {Zone : Type} [DecidableEq Zone] (offsets : Zone → ℕ → Bool → Option ℤ)
variable (digest : Bytes → Bytes → Bytes)

/-- The claims that a receipt makes about an envelope. -/
def Receipt.claims (receipt : Receipt Zone) (envelope : AttestInput Zone) (quote : Quote Zone) :
    Claims Zone where
  envelope := envelope
  quoteType := quote.type
  nonce := quote.nonce
  issuedAt := quote.issuedAt
  algorithm := receipt.signature.algorithm
  keyId := receipt.signature.keyId
  receiptId := receipt.receiptId
  jurisdiction := receipt.jurisdiction
  modelFingerprint := receipt.modelFingerprint

namespace ReceiptVerifier
variable (verifier : ReceiptVerifier)

/-- `_verify_claims`. -/
def verifyClaims (receipt : Receipt Zone) (envelope : AttestInput Zone) (quote : Quote Zone) :
    Except Exn Unit := do
  check (receipt.jobId = envelope.jobId) "attest: receipt job_id mismatch"
  check (receipt.jobType = envelope.jobType) "attest: receipt job_type mismatch"
  check (receipt.argsHash = envelope.argsHash) "attest: receipt args_hash mismatch"
  check (receipt.resultHash = envelope.resultHash) "attest: receipt result_hash mismatch"
  check (receipt.receiptId = envelope.receiptId) "attest: receipt_id mismatch"
  check (receipt.signature.algorithm = PyText.ofString "hmac-sha256")
    "attest: unexpected signature algorithm"
  check (receipt.signature.keyId = verifier.keyId) "attest: unexpected signing key"
  check (receipt.issuedAt.equals offsets quote.issuedAt = true)
    "attest: receipt and quote timestamps differ"
  check (quote.issuedAt.equals offsets envelope.timestamp = true)
    "attest: quote timestamp does not match envelope"
  check (32 ≤ quote.nonce.length) "attest: quote nonce is too short"
  check (isHex quote.nonce = true) "attest: quote nonce is not hexadecimal"

/-- `_aware`. -/
def aware (value : ZonedDateTime Zone) : Except Exn Unit :=
  check ((value.utcoffset offsets).isSome = true) "attest: timestamps must be timezone-aware"

/-- `_verify_freshness`, when the clock shows `now`. -/
def verifyFreshness (now : ZonedDateTime Zone) (quote : Quote Zone) : Except Exn Unit := do
  aware offsets now
  aware offsets quote.issuedAt
  let ahead ← quote.issuedAt.sub offsets now
  check (ahead ≤ verifier.maxFutureSkew) "attest: quote timestamp is in the future"
  match verifier.maxAge with
  | none => return
  | some maxAge =>
    let age ← now.sub offsets quote.issuedAt
    check (age ≤ maxAge) "attest: quote is stale"

/-- What `verify` does with a receipt that has a quote. -/
def verifyQuote (now : ZonedDateTime Zone) (receipt : Receipt Zone) (envelope : AttestInput Zone)
    (quote : Quote Zone) : Except Exn Unit := do
  verifier.verifyClaims offsets receipt envelope quote
  let expectedPayload ← canonicalPayload offsets (receipt.claims envelope quote)
  check (expectedPayload = quote.evidence)
    "attest: quote evidence does not match the claimed envelope"
  let signed ← compareDigest (hexText (digest verifier.secret expectedPayload))
    receipt.signature.value
  check (signed = true) "attest: HMAC-SHA256 signature verification failed"
  verifier.verifyFreshness offsets now quote

def verify (now : ZonedDateTime Zone) (receipt : Receipt Zone) (envelope : AttestInput Zone) :
    Except Exn Unit :=
  match receipt.quote with
  | none => .error (refusal "attest: receipt has no quote")
  | some quote => verifier.verifyQuote offsets digest now receipt envelope quote

end ReceiptVerifier

/-! ## The attestor -/

/-- An attestor with a secret and the name of its key. -/
structure PQCOnlyAttestor where
  secret : Bytes
  keyId : PyText
  maxAge : Option ℤ := some (300 * 10 ^ 6)
  secret_ne : secret ≠ []
  keyId_ne : keyId ≠ []

namespace PQCOnlyAttestor

def new (secret : Bytes) (keyId : PyText) (maxAge : Option ℤ) : Except Exn PQCOnlyAttestor :=
  if hsecret : secret = [] then
    .error (.builtin .valueError "attest: secret must not be empty")
  else if hkeyId : keyId = [] then
    .error (.builtin .valueError "attest: key_id must not be empty")
  else .ok ⟨secret, keyId, maxAge, hsecret, hkeyId⟩

variable (attestor : PQCOnlyAttestor)

def verifier : ReceiptVerifier where
  secret := attestor.secret
  keyId := attestor.keyId
  maxAge := attestor.maxAge

/-- The random bytes of a nonce. -/
abbrev Entropy := { bytes : Bytes // bytes.length = 16 }

/-- `attest`, with the random bytes of its nonce. -/
def attest (entropy : Entropy) (envelope : AttestInput Zone) :
    Except Exn (AttestResult Zone) := do
  let nonce := hexText entropy.val
  let evidence ← canonicalPayload offsets {
    envelope
    quoteType := "pqc-only"
    nonce
    issuedAt := envelope.timestamp
    algorithm := "hmac-sha256"
    keyId := attestor.keyId
    receiptId := envelope.receiptId }
  return {
    quote := some { type := "pqc-only", evidence, nonce, issuedAt := envelope.timestamp }
    signature := {
      algorithm := "hmac-sha256"
      value := hexText (digest attestor.secret evidence)
      keyId := attestor.keyId } }

/-- `verify`: without an envelope the claims of the receipt itself are verified. -/
def verify (now : ZonedDateTime Zone) (receipt : Receipt Zone)
    (envelope : Option (AttestInput Zone)) : Except Exn Unit :=
  match receipt.quote with
  | none => .error (refusal "attest: receipt has no quote")
  | some quote =>
    attestor.verifier.verify offsets digest now receipt (envelope.getD {
      jobId := receipt.jobId
      jobType := receipt.jobType
      argsHash := receipt.argsHash
      resultHash := receipt.resultHash
      receiptId := receipt.receiptId
      timestamp := quote.issuedAt })

end PQCOnlyAttestor

end OpenJobSpec.Attest
