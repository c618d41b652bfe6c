import OpenJobSpec.Attest.ReceiptVerifier

/-! # A signature binds the claims of its receipt

Accepted receipts with one signature make the same claims, but for the time at
which the receipt itself says it was issued: that time is not signed, only
compared with the one of the quote, and within one zone the comparison does not
see the fold. The verifier accepts what the attestor issues as long as it is
fresh.
-/
namespace OpenJobSpec.Attest
open ExceptRules PrefixCode

/-! ## Hexadecimal text -/

theorem hexDigit_facts : ∀ n < 16, isHexDigit (.scalar (Text.hexDigit n)) = true ∧
    isAsciiSpace (.scalar (Text.hexDigit n)) = false ∧
      PyText.isAscii (.scalar (Text.hexDigit n)) = true ∧ Text.hexDigit n ≠ '.' := by
  decide

def byteChars (byte : UInt8) : PyText :=
  [.scalar (Text.hexDigit (byte.toNat / 16)), .scalar (Text.hexDigit (byte.toNat % 16))]

theorem hexText_eq (data : Bytes) : hexText data = data.flatMap byteChars := rfl

theorem high_lt (byte : UInt8) : byte.toNat / 16 < 16 := by
  have := byte.toNat_lt
  omega

theorem low_lt (byte : UInt8) : byte.toNat % 16 < 16 := Nat.mod_lt _ (by decide)

theorem byteChars_selfEnding : SelfEnding byteChars := by
  intro a b x y h
  obtain ⟨hhigh, h⟩ := List.cons.inj h
  obtain ⟨hlow, hxy⟩ := List.cons.inj h
  have hdigit : ∀ m < 16, ∀ n < 16, Text.hexDigit m = Text.hexDigit n → m = n := by decide
  have hhigh := hdigit _ (high_lt a) _ (high_lt b) (PyChar.scalar.inj hhigh)
  have hlow := hdigit _ (low_lt a) _ (low_lt b) (PyChar.scalar.inj hlow)
  refine ⟨UInt8.toNat_inj.mp ?_, hxy⟩
  omega

theorem hexText_injective : Function.Injective hexText := by
  intro data data' h
  -- a letter that is no digit ends the run of bytes
  have hstop (byte : UInt8) : ∃ c rest, byteChars byte = c :: rest ∧ c ≠ .scalar '.' :=
    ⟨_, _, rfl, fun heq => (hexDigit_facts _ (high_lt byte)).2.2.2 (PyChar.scalar.inj heq)⟩
  exact (byteChars_selfEnding.sequence hstop).injective
    (congrArg (fun text : PyText => text ++ [.scalar '.']) h)

theorem hexText_ascii (data : Bytes) : ∀ c ∈ hexText data, PyText.isAscii c = true := by
  intro c hc
  rw [hexText_eq, List.mem_flatMap] at hc
  obtain ⟨byte, _, hc⟩ := hc
  rcases List.mem_cons.mp hc with rfl | hc
  · exact (hexDigit_facts _ (high_lt byte)).2.2.1
  · rw [List.mem_singleton.mp hc]
    exact (hexDigit_facts _ (low_lt byte)).2.2.1

theorem length_hexText (data : Bytes) : (hexText data).length = 2 * data.length := by
  rw [hexText_eq]
  induction data with
  | nil => rfl
  | cons byte rest ih =>
    rw [List.flatMap_cons, List.length_append, ih, List.length_cons]
    change 2 + 2 * rest.length = _
    omega

theorem isHex_hexText (data : Bytes) : isHex (hexText data) = true := by
  rw [hexText_eq]
  induction data with
  | nil => rfl
  | cons byte rest ih =>
    have hhigh := hexDigit_facts _ (high_lt byte)
    have hlow := hexDigit_facts _ (low_lt byte)
    change isHex (.scalar (Text.hexDigit (byte.toNat / 16))
      :: .scalar (Text.hexDigit (byte.toNat % 16)) :: rest.flatMap byteChars) = true
    rw [isHex, hhigh.2.1, hhigh.1, hlow.1, ih]
    rfl

/-! ## Checks -/

theorem check_eq_ok {condition : Prop} [Decidable condition] {message : String} :
    check condition message = .ok () ↔ condition := by
  unfold check
  split
  next h => exact iff_of_true rfl h
  next h => exact iff_of_false (fun heq => by cases heq) h

/-- A check comes before what follows it. -/
theorem check_bind_eq_ok {condition : Prop} [Decidable condition] {message : String}
    {rest : Unit → Except Exn Unit} :
    (check condition message >>= rest) = .ok () ↔ condition ∧ rest () = .ok () := by
  rw [bind_eq_ok]
  constructor
  · rintro ⟨⟨⟩, hcheck, hrest⟩
    exact ⟨check_eq_ok.mp hcheck, hrest⟩
  · rintro ⟨hcondition, hrest⟩
    exact ⟨(), check_eq_ok.mpr hcondition, hrest⟩

variable {Zone : Type} {offsets : Zone → ℕ → Bool → Option ℤ}

/-! ## Times that have a text -/

/-- An aware time within the years of four digits in UTC. -/
def Representable (offsets : Zone → ℕ → Bool → Option ℤ) (time : ZonedDateTime Zone) : Prop :=
  ∃ instant, time.utc offsets = some instant ∧ 0 ≤ instant ∧ instant < endOfTime

theorem Representable.aware {time : ZonedDateTime Zone} (h : Representable offsets time) :
    (time.utcoffset offsets).isSome := by
  obtain ⟨instant, hutc, -⟩ := h
  obtain ⟨offset, hoffset, -⟩ := Option.map_eq_some_iff.mp hutc
  exact Option.isSome_iff_exists.mpr ⟨offset, hoffset⟩

theorem Representable.timestamp {time : ZonedDateTime Zone} (h : Representable offsets time) :
    ∃ text, timestamp offsets time = .ok text := by
  obtain ⟨instant, hutc, hrange⟩ := h
  unfold Attest.timestamp
  rw [hutc]
  exact ⟨_, if_pos hrange⟩

theorem canonicalPayload_of_representable (claims : Claims Zone) (hscalar : claims.scalar = true)
    (hissuedAt : Representable offsets claims.issuedAt)
    (htimestamp : Representable offsets claims.envelope.timestamp) :
    ∃ bytes, canonicalPayload offsets claims = .ok bytes := by
  obtain ⟨issuedAt, hissuedAt⟩ := hissuedAt.timestamp
  obtain ⟨time, htime⟩ := htimestamp.timestamp
  obtain ⟨bytes, hbytes⟩ := PyText.encode_of_scalar
    ((all_isScalar_payload claims issuedAt time).trans hscalar)
  exact ⟨bytes, bind_eq_ok.mpr ⟨_, hissuedAt, bind_eq_ok.mpr ⟨_, htime, hbytes⟩⟩⟩

/-! ## What an accepted receipt says -/

variable [DecidableEq Zone]

/-- What the first checks establish. -/
structure ClaimsChecked (offsets : Zone → ℕ → Bool → Option ℤ) (verifier : ReceiptVerifier)
    (receipt : Receipt Zone) (envelope : AttestInput Zone) (quote : Quote Zone) : Prop where
  jobId : receipt.jobId = envelope.jobId
  jobType : receipt.jobType = envelope.jobType
  argsHash : receipt.argsHash = envelope.argsHash
  resultHash : receipt.resultHash = envelope.resultHash
  receiptId : receipt.receiptId = envelope.receiptId
  algorithm : receipt.signature.algorithm = PyText.ofString "hmac-sha256"
  keyId : receipt.signature.keyId = verifier.keyId
  issuedAt : receipt.issuedAt.equals offsets quote.issuedAt = true
  timestamp : quote.issuedAt.equals offsets envelope.timestamp = true
  nonce_length : 32 ≤ quote.nonce.length
  nonce_hex : isHex quote.nonce = true

theorem verifyClaims_eq_ok {verifier : ReceiptVerifier} {receipt : Receipt Zone}
    {envelope : AttestInput Zone} {quote : Quote Zone} :
    verifier.verifyClaims offsets receipt envelope quote = .ok () ↔
      ClaimsChecked offsets verifier receipt envelope quote := by
  unfold ReceiptVerifier.verifyClaims
  simp only [check_bind_eq_ok, check_eq_ok]
  constructor
  · rintro ⟨h₁, h₂, h₃, h₄, h₅, h₆, h₇, h₈, h₉, h₁₀, h₁₁⟩
    exact ⟨h₁, h₂, h₃, h₄, h₅, h₆, h₇, h₈, h₉, h₁₀, h₁₁⟩
  · rintro ⟨h₁, h₂, h₃, h₄, h₅, h₆, h₇, h₈, h₉, h₁₀, h₁₁⟩
    exact ⟨h₁, h₂, h₃, h₄, h₅, h₆, h₇, h₈, h₉, h₁₀, h₁₁⟩

theorem compareDigest_hexText (data : Bytes) {value : PyText} :
    compareDigest (hexText data) value = .ok true ↔ value = hexText data := by
  unfold compareDigest
  constructor
  · intro h
    split at h
    next => exact (of_decide_eq_true (Except.ok.inj h)).symm
    next => cases h
  · rintro rfl
    rw [if_pos (List.all_eq_true.mpr fun c hc => ?_), decide_eq_true rfl]
    exact hexText_ascii data c (by simpa using hc)

variable {digest : Bytes → Bytes → Bytes}

theorem verifyQuote_eq_ok {verifier : ReceiptVerifier} {now : ZonedDateTime Zone}
    {receipt : Receipt Zone} {envelope : AttestInput Zone} {quote : Quote Zone} :
    verifier.verifyQuote offsets digest now receipt envelope quote = .ok () ↔
      ClaimsChecked offsets verifier receipt envelope quote ∧
      canonicalPayload offsets (receipt.claims envelope quote) = .ok quote.evidence ∧
      receipt.signature.value = hexText (digest verifier.secret quote.evidence) ∧
      verifier.verifyFreshness offsets now quote = .ok () := by
  unfold ReceiptVerifier.verifyQuote
  rw [bind_eq_ok]
  constructor
  · rintro ⟨⟨⟩, hclaims, h⟩
    obtain ⟨payload, hpayload, h⟩ := bind_eq_ok.mp h
    obtain ⟨rfl, h⟩ := check_bind_eq_ok.mp h
    obtain ⟨signed, hsigned, h⟩ := bind_eq_ok.mp h
    obtain ⟨rfl, hfresh⟩ := check_bind_eq_ok.mp h
    exact ⟨verifyClaims_eq_ok.mp hclaims, hpayload, (compareDigest_hexText _).mp hsigned, hfresh⟩
  · rintro ⟨hclaims, hpayload, hsigned, hfresh⟩
    refine ⟨(), verifyClaims_eq_ok.mpr hclaims, bind_eq_ok.mpr ⟨_, hpayload, ?_⟩⟩
    refine check_bind_eq_ok.mpr ⟨rfl, bind_eq_ok.mpr ⟨true, ?_, ?_⟩⟩
    · exact (compareDigest_hexText _).mpr hsigned
    · exact check_bind_eq_ok.mpr ⟨rfl, hfresh⟩

/-- The time that an accepted receipt says of itself may be any that equals the quote's. -/
theorem verify_of_equals {attestor : PQCOnlyAttestor} {now time : ZonedDateTime Zone}
    {receipt : Receipt Zone} {envelope : AttestInput Zone} {quote : Quote Zone}
    (h : attestor.verify offsets digest now receipt (some envelope) = .ok ())
    (hquote : receipt.quote = some quote) (htime : time.equals offsets quote.issuedAt = true) :
    attestor.verify offsets digest now { receipt with issuedAt := time } (some envelope) =
      .ok () := by
  simp only [PQCOnlyAttestor.verify, ReceiptVerifier.verify, hquote, Option.getD_some] at h ⊢
  obtain ⟨hclaims, hsigned⟩ := verifyQuote_eq_ok.mp h
  exact verifyQuote_eq_ok.mpr ⟨{ hclaims with issuedAt := htime }, hsigned⟩

/-- What two accepted receipts have in common that carry one signature, each for its own
envelope. -/
structure ReceiptsAgree (offsets : Zone → ℕ → Bool → Option ℤ) (r r' : Receipt Zone)
    (e e' : AttestInput Zone) (q q' : Quote Zone) : Prop where
  claims : SameClaims offsets (r.claims e q) (r'.claims e' q')
  jobId : r.jobId = r'.jobId
  jobType : r.jobType = r'.jobType
  argsHash : r.argsHash = r'.argsHash
  resultHash : r.resultHash = r'.resultHash
  evidence : q.evidence = q'.evidence
  issuedAt : r.issuedAt.equals offsets q.issuedAt = true
  issuedAt' : r'.issuedAt.equals offsets q'.issuedAt = true

/-! ## The time that a receipt says of itself -/

/-- How far the fold takes a time from one that the wall of its zone shows alike; a time that has
no offset with the other fold is nowhere. -/
def foldShift (offsets : Zone → ℕ → Bool → Option ℤ) (value other : ZonedDateTime Zone) :
    Option ℤ :=
  if value.zone = other.zone then do
    let offset ← value.utcoffset offsets
    let offset' ← other.utcoffset offsets
    return offset' - offset
  else some 0

/-- Python's equality leaves open by how much the fold shifts a time. -/
theorem utc_of_equals {value other : ZonedDateTime Zone} {instant : ℤ}
    (h : value.equals offsets other = true) (hother : other.utc offsets = some instant) :
    value.utc offsets = (foldShift offsets value other).map (instant + ·) := by
  unfold ZonedDateTime.equals at h
  unfold foldShift
  obtain ⟨offset', hoffset', hinstant⟩ := Option.map_eq_some_iff.mp hother
  split at h
  next hzone =>
    have hwall : value.wall = other.wall := of_decide_eq_true h
    rw [if_pos hzone, hoffset', ZonedDateTime.utc]
    cases value.utcoffset offsets with
    | none => rfl
    | some offset =>
      simp only [Option.map_some, Option.bind_eq_bind, Option.bind_some, Option.pure_def,
        Option.some.injEq]
      rw [hwall, ← hinstant]
      omega
  next hzone =>
    rw [if_neg hzone, Option.map_some, Int.add_zero]
    split at h
    next => cases h
    next =>
      rw [hother] at h
      cases hvalue : value.utc offsets with
      | none =>
        rw [hvalue] at h
        cases h
      | some instant' =>
        rw [hvalue] at h
        exact congrArg some (of_decide_eq_true h)

/-- A time with the fold of the other, or of another zone, is the same instant. -/
theorem foldShift_of_fold {value other : ZonedDateTime Zone} {instant : ℤ}
    (h : value.equals offsets other = true) (hother : other.utc offsets = some instant)
    (hfold : value.zone = other.zone → value.fold = other.fold) :
    foldShift offsets value other = some 0 := by
  unfold foldShift
  split
  next hzone =>
    unfold ZonedDateTime.equals at h
    rw [if_pos hzone] at h
    have hwall : value.wall = other.wall := of_decide_eq_true h
    obtain ⟨offset', hoffset', -⟩ := Option.map_eq_some_iff.mp hother
    have hoffset : value.utcoffset offsets = other.utcoffset offsets := by
      unfold ZonedDateTime.utcoffset ZonedDateTime.offsetAt
      rw [hzone, hwall, hfold hzone]
    rw [hoffset, hoffset']
    simp
  next => rfl

/-- Two receipts that agree otherwise give one instant for their own time exactly when the fold
shifts both by as much from the times of their quotes. -/
theorem ReceiptsAgree.issuedAt_iff {r r' : Receipt Zone} {e e' : AttestInput Zone}
    {q q' : Quote Zone} (h : ReceiptsAgree offsets r r' e e' q q') {instant : ℤ}
    (hinstant : q.issuedAt.utc offsets = some instant) :
    r.issuedAt.utc offsets = r'.issuedAt.utc offsets ↔
      foldShift offsets r.issuedAt q.issuedAt = foldShift offsets r'.issuedAt q'.issuedAt := by
  have hinstant' : q'.issuedAt.utc offsets = some instant := h.claims.issuedAt ▸ hinstant
  rw [utc_of_equals h.issuedAt hinstant, utc_of_equals h.issuedAt' hinstant']
  exact (Option.map_injective (add_right_injective instant)).eq_iff

theorem accepted_agree (hdigest : ∀ secret, Function.Injective (digest secret))
    {v v' : ReceiptVerifier} (hsecret : v.secret = v'.secret) {now now' : ZonedDateTime Zone}
    {r r' : Receipt Zone} {e e' : AttestInput Zone}
    (h : v.verify offsets digest now r e = .ok ())
    (h' : v'.verify offsets digest now' r' e' = .ok ())
    (hvalue : r.signature.value = r'.signature.value) :
    ∃ q q', r.quote = some q ∧ r'.quote = some q' ∧ ReceiptsAgree offsets r r' e e' q q' ∧
      (r.issuedAt.utc offsets = r'.issuedAt.utc offsets ↔
        foldShift offsets r.issuedAt q.issuedAt = foldShift offsets r'.issuedAt q'.issuedAt) := by
  unfold ReceiptVerifier.verify at h h'
  split at h
  next => cases h
  next q hq =>
    split at h'
    next => cases h'
    next q' hq' =>
      obtain ⟨hclaims, hpayload, hsigned, -⟩ := verifyQuote_eq_ok.mp h
      obtain ⟨hclaims', hpayload', hsigned', -⟩ := verifyQuote_eq_ok.mp h'
      have hevidence : q.evidence = q'.evidence := by
        apply hdigest v.secret
        apply hexText_injective
        rw [← hsigned, hvalue, hsigned', hsecret]
      have hsame := canonicalPayload_inj hpayload (hevidence ▸ hpayload')
      obtain ⟨text, htext, -⟩ := bind_eq_ok.mp hpayload
      obtain ⟨instant, hinstant, -⟩ := timestamp_eq_ok htext
      have hagree : ReceiptsAgree offsets r r' e e' q q' := {
        claims := hsame
        jobId := hclaims.jobId.trans (hsame.jobId.trans hclaims'.jobId.symm)
        jobType := hclaims.jobType.trans (hsame.jobType.trans hclaims'.jobType.symm)
        argsHash := hclaims.argsHash.trans (hsame.argsHash.trans hclaims'.argsHash.symm)
        resultHash := hclaims.resultHash.trans (hsame.resultHash.trans hclaims'.resultHash.symm)
        evidence := hevidence
        issuedAt := hclaims.issuedAt
        issuedAt' := hclaims'.issuedAt }
      exact ⟨q, q', hq, hq', hagree, hagree.issuedAt_iff hinstant⟩

/-! ## What the attestor issues -/

/-- A time is not older than `maxAge` by the clock, nor ahead of it by more than the skew. -/
def Fresh (offsets : Zone → ℕ → Bool → Option ℤ) (maxAge : Option ℤ) (skew : ℤ)
    (now time : ZonedDateTime Zone) : Prop :=
  (now.utcoffset offsets).isSome ∧ ∃ age ahead, now.sub offsets time = .ok age ∧
    time.sub offsets now = .ok ahead ∧ ahead ≤ skew ∧ ∀ limit ∈ maxAge, age ≤ limit

theorem verifyFreshness_eq_ok {verifier : ReceiptVerifier} {now : ZonedDateTime Zone}
    {quote : Quote Zone} (haware : (quote.issuedAt.utcoffset offsets).isSome) :
    verifier.verifyFreshness offsets now quote = .ok () ↔
      Fresh offsets verifier.maxAge verifier.maxFutureSkew now quote.issuedAt := by
  unfold ReceiptVerifier.verifyFreshness ReceiptVerifier.aware Fresh
  rw [check_bind_eq_ok, check_bind_eq_ok]
  refine and_congr_right fun hnow => ?_
  obtain ⟨age, hage⟩ := ZonedDateTime.sub_of_aware hnow haware
  obtain ⟨ahead, hahead⟩ := ZonedDateTime.sub_of_aware haware hnow
  rw [hahead, ok_bind, check_bind_eq_ok, hage]
  cases hmax : verifier.maxAge with
  | none =>
    constructor
    · rintro ⟨-, hskew, -⟩
      exact ⟨age, ahead, rfl, rfl, hskew, by simp⟩
    · rintro ⟨age', ahead', hage', hahead', hskew, -⟩
      cases hahead'
      exact ⟨haware, hskew, rfl⟩
  | some maxAge =>
    simp only [ok_bind, check_eq_ok]
    constructor
    · rintro ⟨-, hskew, hlimit⟩
      exact ⟨age, ahead, rfl, rfl, hskew, by simpa using hlimit⟩
    · rintro ⟨age', ahead', hage', hahead', hskew, hlimit⟩
      cases hage'
      cases hahead'
      exact ⟨haware, hskew, hlimit maxAge rfl⟩

/-- No text of the envelope has half of a surrogate pair. -/
def AttestInput.scalar (e : AttestInput Zone) : Bool :=
  [e.jobId, e.jobType, e.argsHash, e.resultHash, e.receiptId].all fun text =>
    text.all PyText.isScalar

theorem issued_accepted_iff (attestor : PQCOnlyAttestor) (entropy : PQCOnlyAttestor.Entropy)
    (e : AttestInput Zone) (now : ZonedDateTime Zone)
    (hkeyId : attestor.keyId.all PyText.isScalar = true) (hscalar : e.scalar = true)
    (he : Representable offsets e.timestamp) :
    ∃ result receipt, attestor.attest offsets digest entropy e = .ok result ∧
      result.toReceipt e [] = .ok receipt ∧
      (attestor.verify offsets digest now receipt (some e) = .ok () ↔
        Fresh offsets attestor.maxAge (30 * 10 ^ 6) now e.timestamp) := by
  obtain ⟨evidence, hevidence⟩ := canonicalPayload_of_representable {
    envelope := e
    quoteType := "pqc-only"
    nonce := hexText entropy.val
    issuedAt := e.timestamp
    algorithm := "hmac-sha256"
    keyId := attestor.keyId
    receiptId := e.receiptId } (by
      have hnonce : (hexText entropy.val).all PyText.isScalar = true :=
        List.all_eq_true.mpr fun c hc => PyText.isScalar_of_isAscii (hexText_ascii _ c hc)
      simp only [AttestInput.scalar, List.all_cons, List.all_nil, Bool.and_true,
        Bool.and_eq_true] at hscalar
      simp [Claims.scalar, Claims.texts, hkeyId, hscalar, hnonce,
        PyText.all_isScalar_ofString]) he he
  refine ⟨_, _, bind_eq_ok.mpr ⟨evidence, hevidence, rfl⟩, toReceipt_eq _ e, ?_⟩
  refine verifyQuote_eq_ok.trans ?_
  rw [verifyFreshness_eq_ok he.aware]
  constructor
  · rintro ⟨-, -, -, hfresh⟩
    exact hfresh
  · intro hfresh
    refine ⟨?_, hevidence, rfl, hfresh⟩
    exact {
      jobId := rfl
      jobType := rfl
      argsHash := rfl
      resultHash := rfl
      receiptId := rfl
      algorithm := rfl
      keyId := rfl
      issuedAt := ZonedDateTime.equals_self ..
      timestamp := ZonedDateTime.equals_self ..
      nonce_length := by
        rw [length_hexText, entropy.property]
      nonce_hex := isHex_hexText _ }

/-- Claims are bound by their payload, and those of accepted receipts by their signature, with the
receipts' own times exactly when the fold shifts both alike. A receipt that was issued for an
envelope is accepted for it exactly as long as it is fresh. -/
theorem receipts_bind_claims (offsets : Zone → ℕ → Bool → Option ℤ)
    (digest : Bytes → Bytes → Bytes) (hdigest : ∀ secret, Function.Injective (digest secret)) :
    (∀ c c' : Claims Zone, ∀ bytes, canonicalPayload offsets c = .ok bytes →
      canonicalPayload offsets c' = .ok bytes → SameClaims offsets c c') ∧
    (∀ v v' : ReceiptVerifier, v.secret = v'.secret → ∀ (now now' : ZonedDateTime Zone) r r' e e',
      v.verify offsets digest now r e = .ok () → v'.verify offsets digest now' r' e' = .ok () →
        r.signature.value = r'.signature.value →
          ∃ q q', r.quote = some q ∧ r'.quote = some q' ∧ ReceiptsAgree offsets r r' e e' q q' ∧
            (r.issuedAt.utc offsets = r'.issuedAt.utc offsets ↔
              foldShift offsets r.issuedAt q.issuedAt =
                foldShift offsets r'.issuedAt q'.issuedAt)) ∧
    ∀ (attestor : PQCOnlyAttestor) (entropy : PQCOnlyAttestor.Entropy) (e : AttestInput Zone)
      (now : ZonedDateTime Zone), attestor.keyId.all PyText.isScalar = true → e.scalar = true →
        Representable offsets e.timestamp →
        ∃ result receipt, attestor.attest offsets digest entropy e = .ok result ∧
          result.toReceipt e [] = .ok receipt ∧
          (attestor.verify offsets digest now receipt (some e) = .ok () ↔
            Fresh offsets attestor.maxAge (30 * 10 ^ 6) now e.timestamp) :=
  ⟨fun _ _ _ h h' => canonicalPayload_inj h h',
    fun _ _ hsecret _ _ _ _ _ _ h h' hvalue => accepted_agree hdigest hsecret h h' hvalue,
    issued_accepted_iff⟩

/-! ## A receipt of five minutes -/

/-- A zone of a fixed offset, in microseconds. -/
def fixedOffset (zone : ℤ) (_ : ℕ) (_ : Bool) : Option ℤ := some zone

/-- Ten o'clock on 15 January 2026, an hour ahead of UTC. -/
def sampleInput : AttestInput ℤ where
  jobId := "job-1"
  jobType := "email.send"
  argsHash := "sha256:a1"
  resultHash := "sha256:b2"
  timestamp := ⟨63904068000000000, false, some (3600 * 10 ^ 6), by decide⟩

/-- Five minutes later, in UTC. -/
def sampleNow : ZonedDateTime ℤ := ⟨63904064700000000, false, some 0, by decide⟩

def sampleAttestor : PQCOnlyAttestor where
  secret := [115, 101, 99, 114, 101, 116]
  keyId := "key-1"
  secret_ne := by decide
  keyId_ne := by decide

def sampleEntropy : PQCOnlyAttestor.Entropy :=
  ⟨[0, 1, 2, 3, 4, 5, 6, 7, 8, 9, 10, 11, 12, 13, 14, 15], rfl⟩

def sampleText : String :=
  "\x7b\"algorithm\":\"hmac-sha256\",\"args_hash\":\"sha256:a1\","
    ++ "\"issued_at\":\"2026-01-15T09:00:00Z\",\"job_id\":\"job-1\",\"job_type\":\"email.send\","
    ++ "\"jurisdiction\":null,\"key_id\":\"key-1\",\"model_fingerprint\":null,"
    ++ "\"nonce\":\"000102030405060708090a0b0c0d0e0f\",\"quote_type\":\"pqc-only\","
    ++ "\"receipt_id\":\"\",\"result_hash\":\"sha256:b2\","
    ++ "\"timestamp\":\"2026-01-15T09:00:00Z\",\"version\":\"ojs-attest-v1\"\x7d"

def sampleBytes : Bytes := sampleText.toUTF8.data.toList

def sampleClaims : Claims ℤ where
  envelope := sampleInput
  quoteType := "pqc-only"
  nonce := hexText sampleEntropy.val
  issuedAt := sampleInput.timestamp
  algorithm := "hmac-sha256"
  keyId := sampleAttestor.keyId

theorem canonicalPayload_sampleClaims :
    canonicalPayload fixedOffset sampleClaims = .ok sampleBytes := by
  decide +kernel

/-- The HMAC-SHA256 of the sample under its secret; any other message is its own digest, too long
to be that one. -/
def sampleDigest (secret message : Bytes) : Bytes :=
  if secret = sampleAttestor.secret ∧ message = sampleBytes then
    [89, 111, 228, 253, 151, 108, 85, 20, 176, 2, 39, 35, 100, 238, 222, 110, 254, 23, 227, 136,
      37, 49, 60, 220, 105, 250, 180, 142, 113, 25, 144, 219]
  else message ++ List.replicate 33 0

theorem sampleDigest_injective (secret : Bytes) : Function.Injective (sampleDigest secret) := by
  intro m m' h
  unfold sampleDigest at h
  have hlength := congrArg List.length h
  split at h
  next hm =>
    split at h
    next hm' => rw [hm.2, hm'.2]
    next hm' =>
      rw [if_pos hm, if_neg hm', List.length_append, List.length_replicate] at hlength
      simp only [List.length_cons, List.length_nil] at hlength
      omega
  next hm =>
    split at h
    next hm' =>
      rw [if_neg hm, if_pos hm', List.length_append, List.length_replicate] at hlength
      simp only [List.length_cons, List.length_nil] at hlength
      omega
    next => exact List.append_cancel_right h

theorem sampleReceipt_accepted :
    ∃ result receipt,
      sampleAttestor.attest fixedOffset sampleDigest sampleEntropy sampleInput = .ok result ∧
      result.toReceipt sampleInput [] = .ok receipt ∧
      sampleAttestor.verify fixedOffset sampleDigest sampleNow receipt (some sampleInput) =
        .ok () := by
  have hfresh : Fresh fixedOffset sampleAttestor.maxAge (30 * 10 ^ 6) sampleNow
      sampleInput.timestamp :=
    ⟨rfl, 300 * 10 ^ 6, -300 * 10 ^ 6, by decide, by decide, by decide, by
      rintro limit ⟨rfl⟩
      decide⟩
  obtain ⟨result, receipt, hresult, hreceipt, haccepted⟩ :=
    (receipts_bind_claims fixedOffset sampleDigest sampleDigest_injective).2.2 sampleAttestor
      sampleEntropy sampleInput sampleNow rfl rfl
      ⟨63904064400000000, by decide, by decide, by decide⟩
  exact ⟨result, receipt, hresult, hreceipt, haccepted.mpr hfresh⟩

/-! ## An hour that the wall shows twice -/

/-- Two o'clock on 25 October 2026 as a wall in Berlin shows it. -/
def repeatedHour : ℕ := 63928490400000000

/-- In that hour the fold tells summer time from winter time; after it there is winter time. -/
def berlinOffset (_ : Unit) (wall : ℕ) (fold : Bool) : Option ℤ :=
  if wall < repeatedHour ∨ wall < repeatedHour + 3600 * 10 ^ 6 ∧ fold = false then
    some (7200 * 10 ^ 6)
  else some (3600 * 10 ^ 6)

def repeatedInput : AttestInput Unit where
  jobId := "job-1"
  jobType := "email.send"
  argsHash := "sha256:a1"
  resultHash := "sha256:b2"
  timestamp := ⟨repeatedHour, false, some (), by decide⟩

/-- The time of the input an hour later, when the wall shows it again. -/
def repeatedLater : ZonedDateTime Unit := { repeatedInput.timestamp with fold := true }

/-- A minute past two, before the clocks go back. -/
def repeatedNow : ZonedDateTime Unit := ⟨repeatedHour + 60 * 10 ^ 6, false, some (), by decide⟩

/-- Whatever the digest, an issued receipt is accepted with the same signature when the fold of its
own time is turned over, which makes it another instant. -/
theorem fold_of_issuedAt_unbound :
    ∃ r r' : Receipt Unit,
      sampleAttestor.verify berlinOffset sampleDigest repeatedNow r (some repeatedInput) = .ok () ∧
      sampleAttestor.verify berlinOffset sampleDigest repeatedNow r' (some repeatedInput) = .ok () ∧
      r'.signature = r.signature ∧
      r'.issuedAt.utc berlinOffset ≠ r.issuedAt.utc berlinOffset := by
  have hrepresentable : Representable berlinOffset repeatedInput.timestamp :=
    ⟨63928483200000000, by decide, by decide, by decide⟩
  have hfresh : Fresh berlinOffset sampleAttestor.maxAge (30 * 10 ^ 6) repeatedNow
      repeatedInput.timestamp :=
    ⟨rfl, 60 * 10 ^ 6, -60 * 10 ^ 6, by decide, by decide, by decide, by
      rintro limit ⟨rfl⟩
      decide⟩
  obtain ⟨result, receipt, hresult, hreceipt, haccepted⟩ := issued_accepted_iff sampleAttestor
    sampleEntropy repeatedInput repeatedNow rfl rfl hrepresentable
  obtain ⟨evidence, hevidence, hresult⟩ := bind_eq_ok.mp hresult
  cases hresult
  rw [toReceipt_eq] at hreceipt
  cases hreceipt
  have haccepted := haccepted.mpr hfresh
  refine ⟨_, _, haccepted,
    verify_of_equals haccepted rfl (?_ : repeatedLater.equals _ _ = true), rfl, ?_⟩
  · exact ZonedDateTime.equals_of_wall _ rfl rfl
  · change repeatedLater.utc berlinOffset ≠ repeatedInput.timestamp.utc berlinOffset
    decide

end OpenJobSpec.Attest
