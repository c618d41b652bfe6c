import OpenJobSpec.Attest.ReceiptBinding

/-! # Which receipts the verifier cannot refuse

A receipt is refused with one class of exception. Another one escapes past the
first checks where a time has no text in UTC, where a text has no bytes, or
where the signature is compared as a text that is not ASCII.
-/
namespace OpenJobSpec.Attest
open ExceptRules

def IsRefusal (e : Exn) : Prop := ∃ message, e = refusal message

variable {Zone : Type} {offsets : Zone → ℕ → Bool → Option ℤ}

/-- A time that is naive, or within the years of four digits in UTC. -/
def InRange (offsets : Zone → ℕ → Bool → Option ℤ) (time : ZonedDateTime Zone) : Prop :=
  ∀ instant, time.utc offsets = some instant → 0 ≤ instant ∧ instant < endOfTime

/-- What the texts and the times of a payload must be for it to have bytes. -/
def Printable (offsets : Zone → ℕ → Bool → Option ℤ) (claims : Claims Zone) : Prop :=
  InRange offsets claims.issuedAt ∧ (Representable offsets claims.issuedAt →
    InRange offsets claims.envelope.timestamp ∧
      (Representable offsets claims.envelope.timestamp → claims.scalar = true))

theorem refusal_onlyRaises {α : Type} (message : String) :
    OnlyRaises IsRefusal (.error (refusal message) : Except Exn α) := by
  intro e he
  cases he
  exact ⟨message, rfl⟩

theorem check_onlyRaises (condition : Prop) [Decidable condition] (message : String) :
    OnlyRaises IsRefusal (check condition message) := by
  unfold check
  split
  · exact .ok ()
  · exact refusal_onlyRaises message

theorem timestamp_onlyRaises_iff (time : ZonedDateTime Zone) :
    OnlyRaises IsRefusal (timestamp offsets time) ↔ InRange offsets time := by
  unfold timestamp InRange
  rcases time.utc offsets with _ | instant
  · exact iff_of_true (refusal_onlyRaises _) nofun
  · by_cases hrange : 0 ≤ instant ∧ instant < endOfTime
    · simp [hrange, OnlyRaises]
    · simp [hrange, OnlyRaises, IsRefusal, refusal]

theorem timestamp_isOk_iff (time : ZonedDateTime Zone) :
    (∃ text, timestamp offsets time = .ok text) ↔ Representable offsets time := by
  refine ⟨fun ⟨text, h⟩ => ?_, Representable.timestamp⟩
  unfold timestamp at h
  split at h
  next => cases h
  next instant hutc =>
    split at h
    next hrange => exact ⟨instant, hutc, hrange⟩
    next => cases h

/-- What follows a time's text does not depend on the text. -/
theorem timestamp_bind_onlyRaises_iff {α : Type} (time : ZonedDateTime Zone) {P : Prop}
    {rest : String → Except Exn α} (hrest : ∀ text, OnlyRaises IsRefusal (rest text) ↔ P) :
    OnlyRaises IsRefusal (timestamp offsets time >>= rest) ↔
      InRange offsets time ∧ (Representable offsets time → P) := by
  rw [onlyRaises_bind_iff, timestamp_onlyRaises_iff, ← timestamp_isOk_iff]
  refine and_congr_right fun _ => ?_
  constructor
  · rintro h ⟨text, htext⟩
    exact (hrest text).mp (h text htext)
  · exact fun h text htext => (hrest text).mpr (h ⟨text, htext⟩)

theorem encode_onlyRaises_iff (text : PyText) :
    OnlyRaises IsRefusal text.encode ↔ text.all PyText.isScalar = true := by
  unfold PyText.encode
  split
  next h => exact iff_of_true (.ok _) h
  next h => exact iff_of_false (fun hraises => by simpa [IsRefusal, refusal] using hraises _ rfl) h

/-- The payload is refused or printed, unless a time or a text stands in the way. -/
theorem canonicalPayload_onlyRaises_iff (claims : Claims Zone) :
    OnlyRaises IsRefusal (canonicalPayload offsets claims) ↔ Printable offsets claims :=
  timestamp_bind_onlyRaises_iff _ fun issuedAt => timestamp_bind_onlyRaises_iff _ fun time => by
    rw [encode_onlyRaises_iff, all_isScalar_payload]

theorem check_bind_onlyRaises_iff {condition : Prop} [Decidable condition] {message : String}
    {rest : Unit → Except Exn Unit} :
    OnlyRaises IsRefusal (check condition message >>= rest) ↔
      (condition → OnlyRaises IsRefusal (rest ())) := by
  rw [onlyRaises_bind_iff, and_iff_right (check_onlyRaises condition message)]
  constructor
  · exact fun h hcondition => h () (check_eq_ok.mpr hcondition)
  · rintro h ⟨⟩ hcheck
    exact h (check_eq_ok.mp hcheck)

/-- The digest is ASCII, so that only the text it is compared with can be at fault. -/
theorem compareDigest_onlyRaises_iff (data : Bytes) (value : PyText) :
    OnlyRaises IsRefusal (compareDigest (hexText data) value) ↔
      value.all PyText.isAscii = true := by
  have hdata : (hexText data).all PyText.isAscii = true :=
    List.all_eq_true.mpr (hexText_ascii data)
  unfold compareDigest
  rw [List.all_append, hdata, Bool.true_and]
  split
  next h => exact iff_of_true (.ok _) h
  next h => exact iff_of_false (fun hraises => by simpa [IsRefusal, refusal] using hraises _ rfl) h

variable [DecidableEq Zone] {digest : Bytes → Bytes → Bytes}

theorem verifyClaims_onlyRaises (verifier : ReceiptVerifier) (receipt : Receipt Zone)
    (envelope : AttestInput Zone) (quote : Quote Zone) :
    OnlyRaises IsRefusal (verifier.verifyClaims offsets receipt envelope quote) := by
  unfold ReceiptVerifier.verifyClaims
  iterate 10 refine (check_onlyRaises _ _).bind fun _ => ?_
  exact check_onlyRaises _ _

theorem verifyFreshness_onlyRaises (verifier : ReceiptVerifier) (now : ZonedDateTime Zone)
    (quote : Quote Zone) :
    OnlyRaises IsRefusal (verifier.verifyFreshness offsets now quote) := by
  unfold ReceiptVerifier.verifyFreshness ReceiptVerifier.aware
  rw [check_bind_onlyRaises_iff]
  intro hnow
  rw [check_bind_onlyRaises_iff]
  intro hissued
  obtain ⟨age, hage⟩ := ZonedDateTime.sub_of_aware hnow hissued
  obtain ⟨ahead, hahead⟩ := ZonedDateTime.sub_of_aware hissued hnow
  rw [hahead, ok_bind]
  refine (check_onlyRaises _ _).bind fun _ => ?_
  cases verifier.maxAge with
  | none => exact .ok ()
  | some maxAge =>
    simp only [hage, ok_bind]
    exact check_onlyRaises _ _

/-- Once the claims of a receipt are checked, its times and texts can be printed, and its signature
is ASCII if the evidence is what was printed. -/
def Harmless (offsets : Zone → ℕ → Bool → Option ℤ) (verifier : ReceiptVerifier)
    (receipt : Receipt Zone) (envelope : AttestInput Zone) (quote : Quote Zone) : Prop :=
  ClaimsChecked offsets verifier receipt envelope quote →
    Printable offsets (receipt.claims envelope quote) ∧
      (canonicalPayload offsets (receipt.claims envelope quote) = .ok quote.evidence →
        receipt.signature.value.all PyText.isAscii = true)

theorem verifyQuote_onlyRaises_iff (verifier : ReceiptVerifier) (now : ZonedDateTime Zone)
    (receipt : Receipt Zone) (envelope : AttestInput Zone) (quote : Quote Zone) :
    OnlyRaises IsRefusal (verifier.verifyQuote offsets digest now receipt envelope quote) ↔
      Harmless offsets verifier receipt envelope quote := by
  -- what comes after the evidence was found to be the payload
  have hrest : ∀ payload : Bytes, OnlyRaises IsRefusal (do
      let signed ← compareDigest (hexText (digest verifier.secret payload)) receipt.signature.value
      check (signed = true) "attest: HMAC-SHA256 signature verification failed"
      verifier.verifyFreshness offsets now quote) ↔
      receipt.signature.value.all PyText.isAscii = true := fun payload => by
    rw [onlyRaises_bind_iff, compareDigest_onlyRaises_iff]
    exact and_iff_left fun signed _ => (check_onlyRaises _ _).bind fun _ =>
      verifyFreshness_onlyRaises verifier now quote
  unfold ReceiptVerifier.verifyQuote Harmless
  rw [onlyRaises_bind_iff,
    and_iff_right (verifyClaims_onlyRaises verifier receipt envelope quote), onlyRaises_bind_iff,
    canonicalPayload_onlyRaises_iff]
  simp only [check_bind_onlyRaises_iff, hrest]
  constructor
  · intro h hclaims
    obtain ⟨hprintable, hpayload⟩ := h () (verifyClaims_eq_ok.mpr hclaims)
    exact ⟨hprintable, fun hevidence => hpayload _ hevidence rfl⟩
  · rintro h ⟨⟩ hclaims
    obtain ⟨hprintable, hascii⟩ := h (verifyClaims_eq_ok.mp hclaims)
    refine ⟨hprintable, fun payload hpayload hevidence => hascii ?_⟩
    rw [hpayload, hevidence]

/-- The envelope that a receipt without one is verified against. -/
def ownEnvelope (receipt : Receipt Zone) (quote : Quote Zone) : AttestInput Zone where
  jobId := receipt.jobId
  jobType := receipt.jobType
  argsHash := receipt.argsHash
  resultHash := receipt.resultHash
  receiptId := receipt.receiptId
  timestamp := quote.issuedAt

/-- A receipt is accepted or refused, and nothing else escapes, exactly when its quote is harmless
against the envelope that it is verified against. -/
theorem receipt_verification_total_iff (offsets : Zone → ℕ → Bool → Option ℤ)
    (digest : Bytes → Bytes → Bytes) (attestor : PQCOnlyAttestor) (now : ZonedDateTime Zone)
    (receipt : Receipt Zone) (envelope : Option (AttestInput Zone)) :
    OnlyRaises IsRefusal (attestor.verify offsets digest now receipt envelope) ↔
      ∀ quote, receipt.quote = some quote →
        Harmless offsets attestor.verifier receipt (envelope.getD (ownEnvelope receipt quote))
          quote := by
  unfold PQCOnlyAttestor.verify ReceiptVerifier.verify
  rcases receipt.quote with _ | quote
  · exact iff_of_true (refusal_onlyRaises _) nofun
  · refine (verifyQuote_onlyRaises_iff _ now receipt _ quote).trans ?_
    exact ⟨fun h found hfound => Option.some.inj hfound ▸ h, fun h => h quote rfl⟩

/-! ## Receipts that any sender can write -/

def forgedQuote (type : PyText) (issuedAt : ZonedDateTime ℤ) (evidence : Bytes) : Quote ℤ :=
  ⟨type, evidence, hexText sampleEntropy.val, issuedAt⟩

/-- A receipt that passes the first checks for any quote type, time, evidence and signature. -/
def forgedReceipt (type : PyText) (issuedAt : ZonedDateTime ℤ) (evidence : Bytes)
    (value : PyText) : Receipt ℤ where
  jobId := "job-1"
  jobType := "email.send"
  argsHash := "sha256:a1"
  resultHash := "sha256:b2"
  signature := ⟨"hmac-sha256", value, sampleAttestor.keyId⟩
  issuedAt := issuedAt
  quote := some (forgedQuote type issuedAt evidence)

theorem forgedReceipt_checked (type : PyText) (issuedAt : ZonedDateTime ℤ) (evidence : Bytes)
    (value : PyText) :
    ClaimsChecked fixedOffset sampleAttestor.verifier (forgedReceipt type issuedAt evidence value)
      (ownEnvelope (forgedReceipt type issuedAt evidence value)
        (forgedQuote type issuedAt evidence)) (forgedQuote type issuedAt evidence) where
  jobId := rfl
  jobType := rfl
  argsHash := rfl
  resultHash := rfl
  receiptId := rfl
  algorithm := rfl
  keyId := rfl
  issuedAt := ZonedDateTime.equals_self ..
  timestamp := ZonedDateTime.equals_self ..
  nonce_length := (length_hexText sampleEntropy.val).ge
  nonce_hex := isHex_hexText _

/-- Midnight on the first day of year 1, an hour ahead of UTC. -/
def beforeYearOne : ZonedDateTime ℤ := ⟨0, false, some (3600 * 10 ^ 6), by decide⟩

theorem sampleInput_representable : Representable fixedOffset sampleInput.timestamp :=
  ⟨63904064400000000, by decide, by decide, by decide⟩

/-- A signature that is not ASCII, a time before year 1 in UTC, and half of a surrogate pair. -/
theorem forged_receipts_escape :
    ¬ OnlyRaises IsRefusal (sampleAttestor.verify fixedOffset sampleDigest sampleNow
        (forgedReceipt "pqc-only" sampleInput.timestamp sampleBytes "é") none) ∧
      ¬ OnlyRaises IsRefusal (sampleAttestor.verify fixedOffset sampleDigest sampleNow
        (forgedReceipt "pqc-only" beforeYearOne [] "") none) ∧
      ¬ OnlyRaises IsRefusal (sampleAttestor.verify fixedOffset sampleDigest sampleNow
        (forgedReceipt [.surrogate 0] sampleInput.timestamp [] "") none) := by
  have hharmless : ∀ type issuedAt evidence value,
      OnlyRaises IsRefusal (sampleAttestor.verify fixedOffset sampleDigest sampleNow
        (forgedReceipt type issuedAt evidence value) none) → _ :=
    fun type issuedAt evidence value h => (verifyQuote_onlyRaises_iff _ sampleNow _ _ _).mp h
      (forgedReceipt_checked type issuedAt evidence value)
  refine ⟨fun h => ?_, fun h => ?_, fun h => ?_⟩
  · obtain ⟨-, hascii⟩ := hharmless _ _ _ _ h
    exact absurd (hascii canonicalPayload_sampleClaims) (by decide)
  · obtain ⟨⟨hrange, -⟩, -⟩ := hharmless _ _ _ _ h
    have hinstant := hrange (-3600 * 10 ^ 6) rfl
    exact absurd hinstant.1 (by decide)
  · obtain ⟨⟨-, htime⟩, -⟩ := hharmless _ _ _ _ h
    exact absurd ((htime sampleInput_representable).2 sampleInput_representable) (by decide)

end OpenJobSpec.Attest
