import OpenJobSpec.Foundation.ExceptRules
import OpenJobSpec.Python.JsonText
import OpenJobSpec.Python.ZonedDateTime

/-! # Attestation receipts and the payload that they sign

The payload is canonical JSON over every claim of a receipt, with its two
timestamps in UTC.
-/
namespace OpenJobSpec.Attest
open JsonText

section Types
variable (Zone : Type)

/-- The envelope of a job as it is attested. -/
structure AttestInput where
  jobId : PyText
  jobType : PyText
  argsHash : PyText
  resultHash : PyText
  timestamp : ZonedDateTime Zone
  receiptId : PyText := []

structure Quote where
  type : PyText
  evidence : Bytes
  nonce : PyText
  issuedAt : ZonedDateTime Zone

structure Jurisdiction where
  region : PyText
  datacenter : PyText
  prover : PyText
deriving DecidableEq

structure ModelFingerprint where
  sha256 : PyText
  registryUrl : PyText
deriving DecidableEq

structure Signature where
  algorithm : PyText
  value : PyText
  keyId : PyText
deriving DecidableEq

structure AttestResult where
  quote : Option (Quote Zone)
  jurisdiction : Option Jurisdiction := none
  modelFingerprint : Option ModelFingerprint := none
  signature : Signature

structure Receipt where
  jobId : PyText
  signature : Signature
  issuedAt : ZonedDateTime Zone
  quote : Option (Quote Zone) := none
  jurisdiction : Option Jurisdiction := none
  modelFingerprint : Option ModelFingerprint := none
  jobType : PyText := []
  argsHash : PyText := []
  resultHash : PyText := []
  receiptId : PyText := []

/-- What the payload is made of. -/
structure Claims where
  envelope : AttestInput Zone
  quoteType : PyText
  nonce : PyText
  issuedAt : ZonedDateTime Zone
  algorithm : PyText
  keyId : PyText
  receiptId : PyText := []
  jurisdiction : Option Jurisdiction := none
  modelFingerprint : Option ModelFingerprint := none

end Types

variable {Zone : Type} (offsets : Zone → ℕ → Bool → Option ℤ)

/-- `ReceiptVerificationError`. -/
def refusal (message : String) : Exn := .other "ReceiptVerificationError" message

/-- `AttestResult.to_receipt`. -/
def AttestResult.toReceipt (result : AttestResult Zone) (envelope : AttestInput Zone)
    (receiptId : PyText) : Except Exn (Receipt Zone) :=
  let resolved := if receiptId = [] then envelope.receiptId else receiptId
  if resolved ≠ envelope.receiptId then
    .error (.builtin .valueError "receipt_id must be supplied on AttestInput before attestation")
  else .ok {
    jobId := envelope.jobId
    signature := result.signature
    issuedAt := match result.quote with
      | some quote => quote.issuedAt
      | none => envelope.timestamp
    quote := result.quote
    jurisdiction := result.jurisdiction
    modelFingerprint := result.modelFingerprint
    jobType := envelope.jobType
    argsHash := envelope.argsHash
    resultHash := envelope.resultHash
    receiptId := resolved }

/-- Without an id of its own a receipt takes that of its envelope. -/
theorem toReceipt_eq (result : AttestResult Zone) (e : AttestInput Zone) :
    result.toReceipt e [] = .ok {
      jobId := e.jobId
      signature := result.signature
      issuedAt := match result.quote with
        | some quote => quote.issuedAt
        | none => e.timestamp
      quote := result.quote
      jurisdiction := result.jurisdiction
      modelFingerprint := result.modelFingerprint
      jobType := e.jobType
      argsHash := e.argsHash
      resultHash := e.resultHash
      receiptId := e.receiptId } :=
  if_neg fun h => h rfl

/-! ## The payload -/

def attestationPayloadVersion : String := "ojs-attest-v1"

/-- `_timestamp`: only an aware time that lies in a year of four digits in UTC has a text. -/
def timestamp (value : ZonedDateTime Zone) : Except Exn String :=
  match value.utc offsets with
  | none => .error (refusal "attest: timestamps must be timezone-aware")
  | some instant =>
    if 0 ≤ instant ∧ instant < endOfTime then .ok (isoformatUtc instant.toNat)
    else .error (.builtin .overflowError "date value out of range")

def jurisdictionValue : Option Jurisdiction → PayloadValue
  | none => .null
  | some j => .object [("datacenter", j.datacenter), ("prover", j.prover), ("region", j.region)]

def fingerprintValue : Option ModelFingerprint → PayloadValue
  | none => .null
  | some f => .object [("registry_url", f.registryUrl), ("sha256", f.sha256)]

def payload (claims : Claims Zone) (issuedAt timestamp : String) : List (String × PayloadValue) :=
  [("algorithm", .text claims.algorithm), ("args_hash", .text claims.envelope.argsHash),
    ("issued_at", .text issuedAt), ("job_id", .text claims.envelope.jobId),
    ("job_type", .text claims.envelope.jobType), ("key_id", .text claims.keyId),
    ("jurisdiction", jurisdictionValue claims.jurisdiction),
    ("model_fingerprint", fingerprintValue claims.modelFingerprint),
    ("nonce", .text claims.nonce), ("quote_type", .text claims.quoteType),
    ("receipt_id", .text claims.receiptId), ("result_hash", .text claims.envelope.resultHash),
    ("timestamp", .text timestamp), ("version", .text attestationPayloadVersion)]

def canonicalPayload (claims : Claims Zone) : Except Exn Bytes := do
  let issuedAt ← timestamp offsets claims.issuedAt
  let envelopeTime ← timestamp offsets claims.envelope.timestamp
  (dumps (payload claims issuedAt envelopeTime)).encode

/-! ## The payload determines the claims -/

/-- The texts of the claims. -/
def Claims.texts (claims : Claims Zone) : List PyText :=
  [claims.algorithm, claims.envelope.argsHash, claims.envelope.jobId, claims.envelope.jobType,
    claims.keyId]
    ++ claims.jurisdiction.toList.flatMap (fun j => [j.datacenter, j.prover, j.region])
    ++ claims.modelFingerprint.toList.flatMap (fun f => [f.registryUrl, f.sha256])
    ++ [claims.nonce, claims.quoteType, claims.receiptId, claims.envelope.resultHash]

/-- No text of the claims has half of a surrogate pair. -/
def Claims.scalar (claims : Claims Zone) : Bool :=
  claims.texts.all fun text => text.all PyText.isScalar

theorem all_isScalar_payload (claims : Claims Zone) (issuedAt timestamp : String) :
    (dumps (payload claims issuedAt timestamp)).all PyText.isScalar = claims.scalar := by
  have hjurisdiction : (jurisdictionValue claims.jurisdiction).isScalar =
      (claims.jurisdiction.toList.flatMap fun j => [j.datacenter, j.prover, j.region]).all
        fun text => text.all PyText.isScalar := by
    cases claims.jurisdiction <;> simp [jurisdictionValue, PayloadValue.isScalar]
  have hfingerprint : (fingerprintValue claims.modelFingerprint).isScalar =
      (claims.modelFingerprint.toList.flatMap fun f => [f.registryUrl, f.sha256]).all
        fun text => text.all PyText.isScalar := by
    cases claims.modelFingerprint <;> simp [fingerprintValue, PayloadValue.isScalar]
  rw [all_isScalar_dumps]
  unfold payload Claims.scalar Claims.texts
  simp only [List.all_append, ← hjurisdiction, ← hfingerprint, List.all_cons, List.all_nil,
    PayloadValue.isScalar, PyText.all_isScalar_ofString]
  simp only [Bool.and_true, Bool.true_and, Bool.and_assoc]

/-- The same claims, their times as instants. -/
structure SameClaims (c c' : Claims Zone) : Prop where
  jobId : c.envelope.jobId = c'.envelope.jobId
  jobType : c.envelope.jobType = c'.envelope.jobType
  argsHash : c.envelope.argsHash = c'.envelope.argsHash
  resultHash : c.envelope.resultHash = c'.envelope.resultHash
  receiptId : c.receiptId = c'.receiptId
  quoteType : c.quoteType = c'.quoteType
  nonce : c.nonce = c'.nonce
  algorithm : c.algorithm = c'.algorithm
  keyId : c.keyId = c'.keyId
  jurisdiction : c.jurisdiction = c'.jurisdiction
  modelFingerprint : c.modelFingerprint = c'.modelFingerprint
  issuedAt : c.issuedAt.utc offsets = c'.issuedAt.utc offsets
  timestamp : c.envelope.timestamp.utc offsets = c'.envelope.timestamp.utc offsets

variable {offsets}

theorem timestamp_eq_ok {value : ZonedDateTime Zone} {text : String}
    (h : timestamp offsets value = .ok text) :
    ∃ instant : ℕ, value.utc offsets = some (instant : ℤ) ∧ text = isoformatUtc instant := by
  unfold timestamp at h
  split at h
  next => cases h
  next instant hutc =>
    split at h
    next hrange =>
      cases h
      exact ⟨instant.toNat, by rw [hutc, Int.toNat_of_nonneg hrange.1], rfl⟩
    next => cases h

theorem timestamp_inj {value value' : ZonedDateTime Zone} {text : String}
    (h : timestamp offsets value = .ok text) (h' : timestamp offsets value' = .ok text) :
    value.utc offsets = value'.utc offsets := by
  obtain ⟨instant, hutc, rfl⟩ := timestamp_eq_ok h
  obtain ⟨instant', hutc', htext⟩ := timestamp_eq_ok h'
  rw [hutc, hutc', isoformatUtc_injective htext]

theorem jurisdictionValue_inj {j j' : Option Jurisdiction}
    (h : (jurisdictionValue j).sorted = (jurisdictionValue j').sorted) : j = j' := by
  cases j with
  | none =>
    cases j' with
    | none => rfl
    | some j' => cases h
  | some j =>
    cases j' with
    | none => cases h
    | some j' =>
      have hmembers := PayloadValue.object.inj h
      have hlookup (key : String) := congrArg (List.lookup key) hmembers
      simp only [lookup_sortKeys] at hlookup
      have hregion : j.region = j'.region := Option.some.inj (hlookup "region")
      have hdatacenter : j.datacenter = j'.datacenter := Option.some.inj (hlookup "datacenter")
      have hprover : j.prover = j'.prover := Option.some.inj (hlookup "prover")
      cases j
      cases j'
      simp only at hregion hdatacenter hprover
      rw [hregion, hdatacenter, hprover]

theorem fingerprintValue_inj {f f' : Option ModelFingerprint}
    (h : (fingerprintValue f).sorted = (fingerprintValue f').sorted) : f = f' := by
  cases f with
  | none =>
    cases f' with
    | none => rfl
    | some f' => cases h
  | some f =>
    cases f' with
    | none => cases h
    | some f' =>
      have hmembers := PayloadValue.object.inj h
      have hlookup (key : String) := congrArg (List.lookup key) hmembers
      simp only [lookup_sortKeys] at hlookup
      have hregistry : f.registryUrl = f'.registryUrl := Option.some.inj (hlookup "registry_url")
      have hsha : f.sha256 = f'.sha256 := Option.some.inj (hlookup "sha256")
      cases f
      cases f'
      simp only at hregistry hsha
      rw [hregistry, hsha]

/-- Claims with the same payload are the same. -/
theorem canonicalPayload_inj {c c' : Claims Zone} {bytes : Bytes}
    (h : canonicalPayload offsets c = .ok bytes) (h' : canonicalPayload offsets c' = .ok bytes) :
    SameClaims offsets c c' := by
  obtain ⟨issuedAt, hissuedAt, h⟩ := ExceptRules.bind_eq_ok.mp h
  obtain ⟨time, htime, h⟩ := ExceptRules.bind_eq_ok.mp h
  obtain ⟨issuedAt', hissuedAt', h'⟩ := ExceptRules.bind_eq_ok.mp h'
  obtain ⟨time', htime', h'⟩ := ExceptRules.bind_eq_ok.mp h'
  have hlookup := lookup_eq_of_dumps (PyText.encode_inj h h')
  have htext (key : String) {s s' : PyText}
      (hs : (payload c issuedAt time).lookup key = some (.text s))
      (hs' : (payload c' issuedAt' time').lookup key = some (.text s')) : s = s' := by
    have hkey := hlookup key
    rw [hs, hs'] at hkey
    exact PayloadValue.text.inj (Option.some.inj hkey)
  have hissued := PyText.ofString_injective (htext "issued_at" rfl rfl)
  have henvelope := PyText.ofString_injective (htext "timestamp" rfl rfl)
  exact {
    jobId := htext "job_id" rfl rfl
    jobType := htext "job_type" rfl rfl
    argsHash := htext "args_hash" rfl rfl
    resultHash := htext "result_hash" rfl rfl
    receiptId := htext "receipt_id" rfl rfl
    quoteType := htext "quote_type" rfl rfl
    nonce := htext "nonce" rfl rfl
    algorithm := htext "algorithm" rfl rfl
    keyId := htext "key_id" rfl rfl
    jurisdiction := jurisdictionValue_inj (Option.some.inj (hlookup "jurisdiction"))
    modelFingerprint := fingerprintValue_inj (Option.some.inj (hlookup "model_fingerprint"))
    issuedAt := timestamp_inj hissuedAt (hissued ▸ hissuedAt')
    timestamp := timestamp_inj htime (henvelope ▸ htime') }

end OpenJobSpec.Attest
