import OpenJobSpec.Foundation.ExceptRules
import OpenJobSpec.Python.Base64
import OpenJobSpec.Python.Text
import OpenJobSpec.Wire.JobRequest

/-! # Client-side encryption of job arguments

The arguments travel as one string, and the meta says how to read it back. The
cipher is a parameter with the laws of an authenticated cipher; so is the JSON
text of a value, of which little is needed here.
-/
namespace OpenJobSpec.Crypto
open ExceptRules

def metaEncodings : String := "ojs.codec.encodings"
def metaKeyId : String := "ojs.codec.key_id"
def metaNonce : String := "ojs.codec.nonce"
def encodingEncrypted : String := "binary/encrypted"
def legacyMetaEncrypted : String := "ojs_encoded"
def legacyMetaKeyId : String := "ojs_key_id"
def legacyMetaNonce : String := "ojs_nonce"
def nonceBytes : ℕ := 12
def keyBytes : ℕ := 32

/-- `AESGCM(key)` without associated data; a rejected ciphertext raises. -/
structure Aesgcm where
  encrypt : (key nonce data : Bytes) → Bytes
  decrypt : (key nonce data : Bytes) → Except Exn Bytes
  decrypt_encrypt : ∀ {key nonce : Bytes} (data : Bytes), key.length = keyBytes →
    nonce.length = nonceBytes → decrypt key nonce (encrypt key nonce data) = .ok data
  /-- what is accepted was made with the same key and nonce -/
  encrypt_of_decrypt : ∀ {key nonce data plaintext : Bytes}, key.length = keyBytes →
    nonce.length = nonceBytes → decrypt key nonce data = .ok plaintext →
    data = encrypt key nonce plaintext
  /-- the tag takes 16 bytes -/
  length_encrypt : ∀ {key nonce : Bytes} (data : Bytes), key.length = keyBytes →
    nonce.length = nonceBytes → (encrypt key nonce data).length = data.length + 16

/-- `json.dumps(args).encode("utf-8")` and `json.loads`. -/
structure JsonText where
  dumps : List Json → Bytes
  loads : Bytes → Except Exn Json
  loads_string : ∀ s, loads (dumps [.str s]) = .ok (.array [.str s])
  /-- a string takes at least one byte of a text for each of its characters -/
  string_length_le : ∀ {text : Bytes} {s : String} {rest : List Json},
    loads text = .ok (.array (.str s :: rest)) → s.length ≤ text.length

structure StaticKeyProvider where
  keys : List (String × Bytes)
  currentKey : String
  current_mem : (keys.lookup currentKey).isSome = true
  key_length : ∀ entry ∈ keys, entry.2.length = keyBytes

namespace StaticKeyProvider

def create (keys : List (String × Bytes)) (currentKey : String) :
    Except Exn StaticKeyProvider :=
  if hcurrent : (keys.lookup currentKey).isSome = true then
    match hbad : keys.find? (fun entry => entry.2.length ≠ keyBytes) with
    | some (kid, k) =>
      .error (.builtin .valueError ("key " ++ Text.repr kid ++ " must be " ++ toString keyBytes
        ++ " bytes for AES-256 (got " ++ toString k.length ++ ")"))
    | none =>
      .ok ⟨keys, currentKey, hcurrent, fun entry hentry => by
        simpa using List.find?_eq_none.mp hbad entry hentry⟩
  else .error (.builtin .valueError
    ("current_key " ++ Text.repr currentKey ++ " not found in keys"))

variable (p : StaticKeyProvider)

/-- `repr` of a key id that a meta held; a float or a container is named by its type. -/
def reprId : Json → String
  | .null => "None"
  | .bool b => if b then "True" else "False"
  | .int n => toString n
  | .str s => Text.repr s
  | other => other.typeName

/-- `get_key` of whatever the meta held. -/
def getKey (keyId : Json) : Except Exn Bytes :=
  match keyId with
  | .str id =>
    match p.keys.lookup id with
    | some key => .ok key
    | none => .error (.builtin .keyError ("unknown key ID: " ++ reprId keyId))
  | .array _ | .object _ =>
    .error (.builtin .typeError ("unhashable type: '" ++ keyId.typeName ++ "'"))
  | other => .error (.builtin .keyError ("unknown key ID: " ++ reprId other))

/-- The key of the current id. -/
def current : Bytes := (p.keys.lookup p.currentKey).get p.current_mem

theorem lookup_current : p.keys.lookup p.currentKey = some p.current :=
  (Option.some_get p.current_mem).symm

theorem getKey_current : p.getKey (.str p.currentKey) = .ok p.current := by
  rw [getKey, lookup_current]

theorem mem_of_getKey {keyId : Json} {key : Bytes} (h : p.getKey keyId = .ok key) :
    ∃ id, (id, key) ∈ p.keys := by
  unfold getKey at h
  split at h
  next id =>
    split at h
    next found hfound =>
      cases h
      obtain ⟨before, after, hkeys, -⟩ := List.lookup_eq_some_iff.mp hfound
      exact ⟨id, by simp [hkeys]⟩
    next => cases h
  next => cases h
  next => cases h
  next => cases h

theorem current_length : p.current.length = keyBytes := by
  obtain ⟨id, hid⟩ := p.mem_of_getKey p.getKey_current
  exact p.key_length _ hid

end StaticKeyProvider

/-- What `os.urandom` gives for a nonce. -/
structure Nonce where
  bytes : Bytes
  length_eq : bytes.length = nonceBytes

structure EncryptionCodec where
  provider : StaticKeyProvider
  aesgcm : Aesgcm

namespace EncryptionCodec
variable (codec : EncryptionCodec)

/-- The ciphertext, the nonce and the id of the key. -/
def encrypt (nonce : Nonce) (plaintext : Bytes) : Bytes × Bytes × String :=
  (codec.aesgcm.encrypt codec.provider.current nonce.bytes plaintext, nonce.bytes,
    codec.provider.currentKey)

def decrypt (ciphertext nonce : Bytes) (keyId : Json) : Except Exn Bytes := do
  let key ← codec.provider.getKey keyId
  codec.aesgcm.decrypt key nonce ciphertext

end EncryptionCodec

section Middleware
variable (codec : EncryptionCodec) (text : JsonText)

/-- The meta that goes with a ciphertext. -/
def encryptedMeta (keyId : String) (nonce : Bytes) («meta» : Option Fields) : Fields :=
  (((«meta».getD []).set metaEncodings (.array [.str encodingEncrypted])).set metaKeyId
    (.str keyId)).set metaNonce (.str (Base64.b64encode nonce))

/-- What `_encrypt_mw` makes of a request before it calls the next one. -/
def encryptRequest (nonce : Nonce) (request : JobRequest) : JobRequest :=
  let (ciphertext, nonce, keyId) := codec.encrypt nonce (text.dumps request.args)
  { request with
    args := [.str (Base64.b64encode ciphertext)]
    «meta» := some (encryptedMeta keyId nonce request.meta) }

/-- Detection by the codec's keys, or by the legacy one. -/
def isEncrypted («meta» : Fields) : Bool :=
  (match Fields.get «meta» metaEncodings .null with
    | .array encodings => (.str encodingEncrypted) ∈ encodings
    | _ => false)
  || (Fields.get «meta» legacyMetaEncrypted .null).truthy

/-- What `_decrypt_mw` leaves in `ctx.job.args` before it calls the next one. -/
def decryptArgs («meta» : Fields) (args : Json) : Except Exn Json :=
  if «meta».isEmpty then .ok args
  else if ¬ isEncrypted «meta» then .ok args
  else if ¬ args.truthy then .ok args
  else
    args.first >>= fun encodedCiphertext =>
      match encodedCiphertext with
      | .str _ =>
        let keyId := (Fields.get «meta» metaKeyId .null).orElse
          (Fields.get «meta» legacyMetaKeyId (.str ""))
        let nonceB64 := (Fields.get «meta» metaNonce .null).orElse
          (Fields.get «meta» legacyMetaNonce (.str ""))
        Base64.b64decode encodedCiphertext >>= fun ciphertext =>
          Base64.b64decode nonceB64 >>= fun nonce =>
            codec.decrypt ciphertext nonce keyId >>= text.loads
      | _ => .ok args

end Middleware

/-! ## A cipher and a JSON text with these laws -/

section Laws

/-- Sixteen bytes made of the key and the nonce. -/
def stamp (key nonce : Bytes) : Bytes :=
  List.zipWith (· + ·) (key.take 16) (nonce ++ [0, 0, 0, 0])

theorem length_stamp {key nonce : Bytes} (hkey : key.length = keyBytes)
    (hnonce : nonce.length = nonceBytes) : (stamp key nonce).length = 16 := by
  simp [stamp, hkey, hnonce, keyBytes, nonceBytes]

/-- A cipher that hides nothing, but accepts only what it made with the same key and nonce. -/
def stampCipher : Aesgcm where
  encrypt key nonce data := data ++ stamp key nonce
  decrypt key nonce data :=
    if data.drop (data.length - 16) = stamp key nonce then .ok (data.take (data.length - 16))
    else .error (.other "InvalidTag" "")
  decrypt_encrypt := by
    intro key nonce data hkey hnonce
    simp [length_stamp hkey hnonce]
  encrypt_of_decrypt := by
    intro key nonce data plaintext _ _ h
    split at h
    next hstamp =>
      cases h
      rw [← hstamp, List.take_append_drop]
    next => cases h
  length_encrypt := by
    intro key nonce data hkey hnonce
    rw [List.length_append, length_stamp hkey hnonce]

def quoted (s : String) : Bytes := 91 :: 34 :: (s.toByteArray.data.toList ++ [34, 93])

/-- The string in a text of one quoted string without escapes. -/
def unquoted : Bytes → Option String
  | 91 :: 34 :: rest => String.fromUTF8? ⟨(rest.take (rest.length - 2)).toArray⟩
  | _ => none

theorem unquoted_quoted (s : String) : unquoted (quoted s) = some s := by
  have hbytes : (⟨s.toByteArray.data.toList.toArray⟩ : ByteArray) = s.toByteArray := by simp
  have hbody : (s.toByteArray.data.toList ++ [34, 93]).take
      ((s.toByteArray.data.toList ++ [34, 93]).length - 2) = s.toByteArray.data.toList := by simp
  rw [quoted, unquoted, hbody, hbytes, String.fromUTF8?, dif_pos s.isValidUTF8]
  rfl

theorem length_le_size (s : String) : s.length ≤ s.toByteArray.size := by
  have h : ∀ cs : List Char, cs.length ≤ (String.ofList cs).utf8ByteSize := by
    intro cs
    induction cs with
    | nil => exact Nat.zero_le _
    | cons c cs ih =>
      have hc := c.utf8Size_pos
      rw [String.ofList_cons, String.utf8ByteSize_append, String.utf8ByteSize_singleton,
        List.length_cons]
      omega
  have hs := h s.toList
  rwa [String.ofList_toList, String.length_toList] at hs

theorem length_le_of_unquoted {text : Bytes} {s : String} (h : unquoted text = some s) :
    s.length ≤ text.length := by
  unfold unquoted at h
  split at h
  next rest =>
    unfold String.fromUTF8? at h
    split at h
    next hvalid =>
      cases h
      have hle := length_le_size (String.fromUTF8 _ hvalid)
      refine hle.trans ?_
      change (rest.take (rest.length - 2)).toArray.size ≤ _
      simp only [List.size_toArray, List.length_take, List.length_cons]
      omega
    next => cases h
  next => cases h

/-- One unescaped string, or the integer 7, in a list of its own. -/
def plainJson : JsonText where
  dumps
    | [.str s] => quoted s
    | _ => [91, 55, 93]
  loads text :=
    match unquoted text with
    | some s => .ok (.array [.str s])
    | none => .ok (.array [.int 7])
  loads_string s := by simp only [unquoted_quoted]
  string_length_le := by
    intro text s rest h
    cases hs : unquoted text with
    | none =>
      rw [hs] at h
      cases h
    | some found =>
      rw [hs] at h
      cases h
      exact length_le_of_unquoted hs

/-- Two keys, of which the first encrypts. -/
def twoKeys : StaticKeyProvider where
  keys := [("v1", List.replicate 32 1), ("v2", List.replicate 32 2)]
  currentKey := "v1"
  current_mem := rfl
  key_length := by decide

def stampCodec : EncryptionCodec := ⟨twoKeys, stampCipher⟩

def zeroNonce : Nonce := ⟨List.replicate 12 0, rfl⟩

end Laws

end OpenJobSpec.Crypto
