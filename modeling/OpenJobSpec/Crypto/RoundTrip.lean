import OpenJobSpec.Crypto.Encryption

/-! # What comes back of encrypted arguments

Under the meta of an encrypted request, arguments that begin with a string are
taken for a ciphertext, and all others are left alone. Which key reads them is
named by the current key id, unless that id is empty.
-/
namespace OpenJobSpec.Crypto
open ExceptRules

variable (codec : EncryptionCodec) (text : JsonText)

/-- The key id that is read back from the meta of an encrypted request. -/
def readKeyId (provider : StaticKeyProvider) («meta» : Option Fields) : Json :=
  if provider.currentKey = "" then Fields.get («meta».getD []) legacyMetaKeyId (.str "")
  else .str provider.currentKey

/-- The key id that is read back names the key that encrypted. -/
def KeyNamed (provider : StaticKeyProvider) («meta» : Option Fields) : Prop :=
  provider.getKey (readKeyId provider «meta») = .ok provider.current

/-- The first argument can be taken for a ciphertext. -/
def StartsWithString (args : List Json) : Prop := ∃ s rest, args = .str s :: rest

/-- A ciphertext is rejected under every other key of the provider. -/
def RejectsOtherKeys (nonce : Nonce) (args : List Json) : Prop :=
  ∀ entry ∈ codec.provider.keys, entry.2 ≠ codec.provider.current → ∀ plaintext,
    codec.aesgcm.decrypt entry.2 nonce.bytes
      (codec.aesgcm.encrypt codec.provider.current nonce.bytes (text.dumps args)) ≠ .ok plaintext

section Meta
variable (keyId : String) (nonce : Bytes) («meta» : Option Fields)

theorem encryptedMeta_encodings :
    (encryptedMeta keyId nonce «meta»).lookup metaEncodings =
      some (.array [.str encodingEncrypted]) := by
  unfold encryptedMeta
  rw [Fields.lookup_set, if_neg (by decide), Fields.lookup_set, if_neg (by decide),
    Fields.lookup_set, if_pos rfl]

theorem encryptedMeta_keyId :
    (encryptedMeta keyId nonce «meta»).lookup metaKeyId = some (.str keyId) := by
  unfold encryptedMeta
  rw [Fields.lookup_set, if_neg (by decide), Fields.lookup_set, if_pos rfl]

theorem encryptedMeta_nonce :
    (encryptedMeta keyId nonce «meta»).lookup metaNonce =
      some (.str (Base64.b64encode nonce)) := by
  unfold encryptedMeta
  rw [Fields.lookup_set, if_pos rfl]

theorem encryptedMeta_legacyKeyId :
    (encryptedMeta keyId nonce «meta»).lookup legacyMetaKeyId =
      («meta».getD []).lookup legacyMetaKeyId := by
  unfold encryptedMeta
  rw [Fields.lookup_set, if_neg (by decide), Fields.lookup_set, if_neg (by decide),
    Fields.lookup_set, if_neg (by decide)]

theorem encryptedMeta_isEncrypted :
    isEncrypted (encryptedMeta keyId nonce «meta») = true := by
  rw [isEncrypted, Fields.get_of_lookup (encryptedMeta_encodings keyId nonce «meta»)]
  simp

theorem encryptedMeta_not_empty : (encryptedMeta keyId nonce «meta»).isEmpty = false := by
  cases h : encryptedMeta keyId nonce «meta» with
  | nil =>
    have hfound := encryptedMeta_keyId keyId nonce «meta»
    rw [h] at hfound
    cases hfound
  | cons entry rest => rfl

end Meta

theorem nonce_text_truthy (nonce : Nonce) :
    (Json.str (Base64.b64encode nonce.bytes)).truthy = true := by
  have hle := Base64.length_le_b64encode nonce.bytes
  rw [nonce.length_eq] at hle
  have hne : Base64.b64encode nonce.bytes ≠ "" := by
    intro h
    rw [h] at hle
    exact absurd hle (by decide)
  simp [Json.truthy, hne]

/-- The key id that decryption looks up. -/
theorem keyId_read (nonce : Nonce) («meta» : Option Fields) :
    (Fields.get (encryptedMeta codec.provider.currentKey nonce.bytes «meta») metaKeyId .null).orElse
      (Fields.get (encryptedMeta codec.provider.currentKey nonce.bytes «meta») legacyMetaKeyId
        (.str "")) = readKeyId codec.provider «meta» := by
  rw [Fields.get_of_lookup (encryptedMeta_keyId _ _ _), Fields.get, encryptedMeta_legacyKeyId,
    readKeyId]
  by_cases h : codec.provider.currentKey = ""
  · simp [Json.orElse, Json.truthy, h, Fields.get]
  · simp [Json.orElse, Json.truthy, h]

/-- Arguments that do not begin with a string are left alone. -/
theorem decryptArgs_untouched («meta» : Fields) {args : List Json} (h : ¬ StartsWithString args) :
    decryptArgs codec text «meta» (.array args) = .ok (.array args) := by
  unfold decryptArgs
  split
  · rfl
  split
  · rfl
  split
  · rfl
  cases args with
  | nil => simp [Json.truthy] at *
  | cons first rest =>
    cases first with
    | str s => exact absurd ⟨s, rest, rfl⟩ h
    | _ => rfl

/-- Arguments that begin with a string are read as a ciphertext under the nonce of the meta. -/
theorem decryptArgs_string (nonce : Nonce) («meta» : Option Fields) (s : String)
    (rest : List Json) :
    decryptArgs codec text (encryptedMeta codec.provider.currentKey nonce.bytes «meta»)
        (.array (.str s :: rest)) =
      Base64.decodeText s >>= fun ciphertext =>
        codec.provider.getKey (readKeyId codec.provider «meta») >>= fun key =>
          codec.aesgcm.decrypt key nonce.bytes ciphertext >>= text.loads := by
  have hnonce : (Fields.get (encryptedMeta codec.provider.currentKey nonce.bytes «meta») metaNonce
      .null).orElse (Fields.get (encryptedMeta codec.provider.currentKey nonce.bytes «meta»)
        legacyMetaNonce (.str "")) = .str (Base64.b64encode nonce.bytes) := by
    rw [Fields.get_of_lookup (encryptedMeta_nonce _ _ _), Json.orElse,
      if_pos (nonce_text_truthy nonce)]
  have hargs : (Json.array (.str s :: rest)).truthy = true := rfl
  rw [decryptArgs, encryptedMeta_not_empty, encryptedMeta_isEncrypted, hargs, keyId_read, hnonce]
  simp only [Bool.false_eq_true, if_false, not_true, Json.first, ok_bind, Base64.b64decode,
    Base64.decodeText_b64encode, EncryptionCodec.decrypt, bind_assoc]

section Encrypted
variable {codec text} {nonce : Nonce} {request : JobRequest}

/-- An encrypted request is read with the key that its meta names. -/
theorem decryptArgs_encryptRequest :
    decryptArgs codec text ((encryptRequest codec text nonce request).meta.getD [])
        (.array (encryptRequest codec text nonce request).args) =
      codec.provider.getKey (readKeyId codec.provider request.meta) >>= fun key =>
        codec.aesgcm.decrypt key nonce.bytes
          (codec.aesgcm.encrypt codec.provider.current nonce.bytes (text.dumps request.args))
            >>= text.loads := by
  have h := decryptArgs_string codec text nonce request.meta (Base64.b64encode
    (codec.aesgcm.encrypt codec.provider.current nonce.bytes (text.dumps request.args))) []
  rw [Base64.decodeText_b64encode, ok_bind] at h
  exact h

theorem decryptArgs_encryptRequest_named (h : KeyNamed codec.provider request.meta) :
    decryptArgs codec text ((encryptRequest codec text nonce request).meta.getD [])
        (.array (encryptRequest codec text nonce request).args) =
      text.loads (text.dumps request.args) := by
  rw [decryptArgs_encryptRequest, h, ok_bind,
    codec.aesgcm.decrypt_encrypt _ codec.provider.current_length nonce.length_eq, ok_bind]

/-- Under any other key nothing is read. -/
theorem decryptArgs_encryptRequest_unnamed (h : ¬ KeyNamed codec.provider request.meta)
    (hreject : RejectsOtherKeys codec text nonce request.args) (args : Json) :
    decryptArgs codec text ((encryptRequest codec text nonce request).meta.getD [])
        (.array (encryptRequest codec text nonce request).args) ≠ .ok args := by
  rw [decryptArgs_encryptRequest]
  intro hok
  obtain ⟨key, hkey, hread⟩ := bind_eq_ok.mp hok
  obtain ⟨plaintext, hplain, -⟩ := bind_eq_ok.mp hread
  obtain ⟨id, hid⟩ := codec.provider.mem_of_getKey hkey
  have hne : key ≠ codec.provider.current := by
    rintro rfl
    exact h hkey
  exact hreject _ hid hne plaintext hplain

/-- A ciphertext is longer than any string that its plaintext can hold in front. -/
theorem ciphertext_ne {key : Bytes} {s : String} {rest : List Json}
    {plaintext : Bytes} (hkey : key.length = keyBytes)
    (hs : Base64.decodeText s = .ok (codec.aesgcm.encrypt key nonce.bytes plaintext)) :
    text.loads plaintext ≠ .ok (.array (.str s :: rest)) := by
  intro hloads
  have hdecoded := Base64.decodeText_length_le hs
  have hstring := text.string_length_le hloads
  rw [codec.aesgcm.length_encrypt _ hkey nonce.length_eq] at hdecoded
  omega

/-- Read as a ciphertext, arguments that begin with a string do not come back as they were. -/
theorem decryptArgs_string_ne («meta» : Option Fields) (s : String) (rest : List Json) :
    decryptArgs codec text (encryptedMeta codec.provider.currentKey nonce.bytes «meta»)
        (.array (.str s :: rest)) ≠ .ok (.array (.str s :: rest)) := by
  rw [decryptArgs_string]
  intro hok
  obtain ⟨ciphertext, hs, hrest⟩ := bind_eq_ok.mp hok
  obtain ⟨key, hkey, hread⟩ := bind_eq_ok.mp hrest
  obtain ⟨plaintext, hplain, hloads⟩ := bind_eq_ok.mp hread
  obtain ⟨id, hid⟩ := codec.provider.mem_of_getKey hkey
  have hlength := codec.provider.key_length _ hid
  rw [codec.aesgcm.encrypt_of_decrypt hlength nonce.length_eq hplain] at hs
  exact ciphertext_ne hlength hs hloads

end Encrypted

theorem stamp_rejectsOtherKeys (nonce : Nonce) (args : List Json) :
    RejectsOtherKeys stampCodec plainJson nonce args := by
  intro entry hentry hne plaintext hok
  rcases List.mem_cons.mp hentry with rfl | hentry
  · exact hne rfl
  rcases List.mem_singleton.mp hentry with rfl
  have hkey : (List.replicate 32 (2 : UInt8)).length = keyBytes := rfl
  have hc := stampCipher.encrypt_of_decrypt hkey nonce.length_eq hok
  have hlength : (stamp twoKeys.current nonce.bytes).length =
      (stamp (List.replicate 32 2) nonce.bytes).length := by
    rw [length_stamp twoKeys.current_length nonce.length_eq, length_stamp hkey nonce.length_eq]
  have hstamp := (List.append_inj' hc hlength).2
  -- the first bytes of the two stamps differ by one
  obtain ⟨b, rest, hb⟩ : ∃ b rest, nonce.bytes = b :: rest := by
    cases hn : nonce.bytes with
    | nil => exact absurd (hn ▸ nonce.length_eq) (by decide)
    | cons b rest => exact ⟨b, rest, rfl⟩
  rw [hb] at hstamp
  have hhead := (List.cons.inj hstamp).1
  exact absurd ((UInt8.add_left_inj b).mp hhead) (by decide)

end OpenJobSpec.Crypto
