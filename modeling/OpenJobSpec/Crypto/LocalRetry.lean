import OpenJobSpec.Crypto.RoundTrip
import OpenJobSpec.Worker.ExecutionRetry

/-! # Decryption inside a local retry

A retry outside the decryption middleware runs it again on the same context. The
arguments were replaced by then, and the meta still says that they are encrypted.
-/
namespace OpenJobSpec.Crypto
open Worker

/-- The part of a job context that decryption and the handler see. -/
structure Execution where
  args : Json
  «meta» : Fields
  /-- how often the decryption middleware was entered -/
  attempts : ℕ := 0
  /-- what each call of the handler found in `ctx.job.args` -/
  presented : List Json := []

section Chain
variable (codec : EncryptionCodec) (text : JsonText)

def decryptionMiddleware : ExecutionMiddleware Execution := fun next s =>
  let s := { s with attempts := s.attempts + 1 }
  match decryptArgs codec text s.meta s.args with
  | .error e => (.error (.exception e), s)
  | .ok args => next { s with args }

/-- A handler that leaves the context alone; its n-th call has the n-th outcome. -/
def handler (outcomes : ℕ → Except Raised Json) : Exec Execution := fun s =>
  (outcomes s.presented.length, { s with presented := s.presented ++ [s.args] })

/-- The context of a fetched job whose meta came through the backend. -/
def received (request : JobRequest) : Execution where
  args := .array request.args
  «meta» := request.meta.getD []

/-- A worker with a retry outside decryption, on a job that was enqueued encrypted. -/
def executeEncrypted (nonce : Nonce) (request : JobRequest) (retry : ExecutionRetry)
    (sleep : ℕ → ℚ → Option Raised) (outcomes : ℕ → Except Raised Json) : Execution :=
  (executeChain [retry.run sleep, decryptionMiddleware codec text] (handler outcomes)
    (received (encryptRequest codec text nonce request))).2

end Chain

/-- Every attempt came to the handler, which found the original arguments. -/
def PresentsOriginal (args : List Json) (s : Execution) : Prop :=
  s.presented = List.replicate s.attempts (.array args)

/-- The first call of the handler fails, and a second attempt is allowed and slept for. -/
def Retried (retry : ExecutionRetry) (sleep : ℕ → ℚ → Option Raised)
    (outcomes : ℕ → Except Raised Json) : Prop :=
  retry.maxRetries ≠ 0 ∧ (∃ e, outcomes 0 = .error (.exception e)) ∧
    ∃ delay, retry.delay 0 = .ok delay ∧ sleep 0 delay = none

/-- An attempt was lost before the handler, or the handler found something else. -/
def Spoiled (args : List Json) (s : Execution) : Prop :=
  s.presented.length < s.attempts ∨ ∃ found ∈ s.presented, found ≠ .array args

section Attempt
variable {codec : EncryptionCodec} {text : JsonText} {outcomes : ℕ → Except Raised Json}
variable {s : Execution} {args : List Json}

theorem attempt_ok {found : Json} (h : decryptArgs codec text s.meta s.args = .ok found) :
    decryptionMiddleware codec text (handler outcomes) s =
      (outcomes s.presented.length,
        ⟨found, s.meta, s.attempts + 1, s.presented ++ [found]⟩) := by
  simp only [decryptionMiddleware, h, handler]

theorem attempt_error {e : Exn} (h : decryptArgs codec text s.meta s.args = .error e) :
    decryptionMiddleware codec text (handler outcomes) s =
      (.error (.exception e), { s with attempts := s.attempts + 1 }) := by
  simp only [decryptionMiddleware, h]

theorem Spoiled.not_presents (h : Spoiled args s) : ¬ PresentsOriginal args s := by
  intro hp
  unfold PresentsOriginal at hp
  rcases h with hlt | ⟨found, hfound, hne⟩
  · rw [hp, List.length_replicate] at hlt
    exact lt_irrefl _ hlt
  · rw [hp] at hfound
    exact hne (List.eq_of_mem_replicate hfound)

theorem Spoiled.attempt (h : Spoiled args s) :
    Spoiled args (decryptionMiddleware codec text (handler outcomes) s).2 := by
  rcases hd : decryptArgs codec text s.meta s.args with e | found
  · rw [attempt_error hd]
    rcases h with hlt | hfound
    · exact Or.inl (hlt.trans s.attempts.lt_succ_self)
    · exact Or.inr hfound
  · rw [attempt_ok hd]
    rcases h with hlt | ⟨other, hother, hne⟩
    · exact Or.inl (by simpa using hlt)
    · exact Or.inr ⟨other, List.mem_append_left _ hother, hne⟩

/-- An attempt whose decryption does not give the original arguments is lost. -/
theorem spoiled_of_decryptArgs_ne
    (hlen : s.presented.length = s.attempts)
    (h : decryptArgs codec text s.meta s.args ≠ .ok (.array args)) :
    Spoiled args (decryptionMiddleware codec text (handler outcomes) s).2 := by
  rcases hd : decryptArgs codec text s.meta s.args with e | found
  · rw [attempt_error hd]
    exact Or.inl (by simp [hlen])
  · rw [attempt_ok hd]
    refine Or.inr ⟨found, by simp, ?_⟩
    rintro rfl
    exact h hd

/-- An attempt whose decryption gives the original arguments presents them. -/
theorem PresentsOriginal.attempt (hp : PresentsOriginal args s)
    (h : decryptArgs codec text s.meta s.args = .ok (.array args)) :
    PresentsOriginal args (decryptionMiddleware codec text (handler outcomes) s).2 := by
  rw [attempt_ok h]
  unfold PresentsOriginal at hp ⊢
  rw [hp, List.replicate_succ']

end Attempt

section Run
variable {codec : EncryptionCodec} {text : JsonText} (nonce : Nonce) {request : JobRequest}
variable {retry : ExecutionRetry} {sleep : ℕ → ℚ → Option Raised}
variable (outcomes : ℕ → Except Raised Json)

/-- Where the first attempt at a job whose key is named ends. -/
theorem first_attempt (hkey : KeyNamed codec.provider request.meta)
    (hlossless : text.loads (text.dumps request.args) = .ok (.array request.args)) :
    decryptionMiddleware codec text (handler outcomes)
        (received (encryptRequest codec text nonce request)) =
      (outcomes 0, ⟨.array request.args,
        encryptedMeta codec.provider.currentKey nonce.bytes request.meta, 1,
        [.array request.args]⟩) :=
  attempt_ok ((decryptArgs_encryptRequest_named hkey).trans hlossless)

theorem executeEncrypted_eq :
    executeEncrypted codec text nonce request retry sleep outcomes =
      (retry.run sleep (decryptionMiddleware codec text (handler outcomes))
        (received (encryptRequest codec text nonce request))).2 := rfl

variable {nonce outcomes}

theorem not_presents_of_not_named (hkey : ¬ KeyNamed codec.provider request.meta)
    (hreject : RejectsOtherKeys codec text nonce request.args) :
    ¬ PresentsOriginal request.args
      (executeEncrypted codec text nonce request retry sleep outcomes) := by
  refine Spoiled.not_presents (ExecutionRetry.runFrom_of_first (Spoiled request.args)
    (fun _ h => h.attempt) _ _ ?_)
  exact spoiled_of_decryptArgs_ne rfl (decryptArgs_encryptRequest_unnamed hkey hreject _)

/-- A second pass over arguments that begin with a string takes them for a ciphertext. -/
theorem not_presents_of_retried (hkey : KeyNamed codec.provider request.meta)
    (hlossless : text.loads (text.dumps request.args) = .ok (.array request.args))
    (hstring : StartsWithString request.args) (hretried : Retried retry sleep outcomes) :
    ¬ PresentsOriginal request.args
      (executeEncrypted codec text nonce request retry sleep outcomes) := by
  obtain ⟨hmax, ⟨e, he⟩, delay, hdelay, hsleep⟩ := hretried
  have hfirst := first_attempt nonce outcomes hkey hlossless
  rw [executeEncrypted_eq,
    ExecutionRetry.run_eq_second hmax (by rw [hfirst]; exact he) hdelay hsleep, hfirst]
  refine Spoiled.not_presents (ExecutionRetry.runFrom_of_first (Spoiled request.args)
    (fun _ h => h.attempt) _ _ ?_)
  refine spoiled_of_decryptArgs_ne rfl ?_
  obtain ⟨s, rest, hargs⟩ := hstring
  rw [hargs]
  exact decryptArgs_string_ne request.meta s rest

/-- Arguments that do not begin with a string come through every further pass. -/
theorem presents_of_untouched (hkey : KeyNamed codec.provider request.meta)
    (hlossless : text.loads (text.dumps request.args) = .ok (.array request.args))
    (huntouched : ¬ StartsWithString request.args) :
    PresentsOriginal request.args
      (executeEncrypted codec text nonce request retry sleep outcomes) := by
  let Kept := fun s : Execution =>
    s.args = .array request.args ∧ PresentsOriginal request.args s
  have hkept : ∀ s, Kept s → Kept (decryptionMiddleware codec text (handler outcomes) s).2 := by
    rintro s ⟨hargs, hp⟩
    have hpass : decryptArgs codec text s.meta s.args = .ok (.array request.args) := by
      rw [hargs, decryptArgs_untouched codec text s.meta huntouched]
    exact ⟨by rw [attempt_ok hpass], hp.attempt hpass⟩
  have hfirst : Kept (decryptionMiddleware codec text (handler outcomes)
      (received (encryptRequest codec text nonce request))).2 := by
    rw [first_attempt nonce outcomes hkey hlossless]
    exact ⟨rfl, rfl⟩
  exact (ExecutionRetry.runFrom_of_first Kept hkept _ _ hfirst).2

theorem presents_of_not_retried (hkey : KeyNamed codec.provider request.meta)
    (hlossless : text.loads (text.dumps request.args) = .ok (.array request.args))
    (hretried : ¬ Retried retry sleep outcomes) :
    PresentsOriginal request.args
      (executeEncrypted codec text nonce request retry sleep outcomes) := by
  have hfirst := first_attempt nonce outcomes hkey hlossless
  rw [executeEncrypted_eq, ExecutionRetry.run_eq_first, hfirst]
  · rfl
  · intro e delay he hdelay hmax hsleep
    rw [hfirst] at he
    exact hretried ⟨hmax, ⟨e, he⟩, delay, hdelay, hsleep⟩

end Run

/-- The handler finds the original arguments at every attempt exactly when the key is named and
either the arguments do not begin with a string or there is no second attempt. -/
theorem decryption_under_retries_iff (codec : EncryptionCodec) (text : JsonText) (nonce : Nonce)
    (request : JobRequest) (retry : ExecutionRetry) (sleep : ℕ → ℚ → Option Raised)
    (outcomes : ℕ → Except Raised Json)
    (hlossless : text.loads (text.dumps request.args) = .ok (.array request.args))
    (hreject : RejectsOtherKeys codec text nonce request.args) :
    PresentsOriginal request.args
        (executeEncrypted codec text nonce request retry sleep outcomes) ↔
      KeyNamed codec.provider request.meta ∧
        (StartsWithString request.args → ¬ Retried retry sleep outcomes) := by
  constructor
  · intro h
    have hkey : KeyNamed codec.provider request.meta :=
      by_contra fun hkey => not_presents_of_not_named hkey hreject h
    exact ⟨hkey, fun hstring hretried => not_presents_of_retried hkey hlossless hstring hretried h⟩
  · rintro ⟨hkey, honce⟩
    by_cases hstring : StartsWithString request.args
    · exact presents_of_not_retried hkey hlossless (honce hstring)
    · exact presents_of_untouched hkey hlossless hstring

section Examples

def oneRetry : ExecutionRetry where
  maxRetries := 1
  baseDelay := .float 1
  maxDelay := .float 30
  jitter := false
  randomValue _ := 0
  baseDelay_nonneg := by decide
  maxDelay_nonneg := by decide

/-- A handler whose first call fails. -/
def failsOnce : ℕ → Except Raised Json
  | 0 => .error (.exception (.other "ValueError" "temporary"))
  | _ => .ok .null

theorem oneRetry_delay : oneRetry.delay 0 = .ok 1 := by decide +kernel

theorem oneRetry_retried : Retried oneRetry (fun _ _ => none) failsOnce :=
  ⟨by decide, ⟨_, rfl⟩, 1, oneRetry_delay, rfl⟩

theorem integer_survives_retry :
    PresentsOriginal [.int 7] (executeEncrypted stampCodec plainJson zeroNonce
      { type := "a", args := [.int 7] } oneRetry (fun _ _ => none) failsOnce) :=
  (decryption_under_retries_iff stampCodec plainJson zeroNonce { type := "a", args := [.int 7] }
    oneRetry (fun _ _ => none) failsOnce rfl (stamp_rejectsOtherKeys _ _)).mpr
    ⟨rfl, fun hstring => by obtain ⟨s, rest, hs⟩ := hstring; cases hs⟩

theorem address_lost_on_retry :
    ¬ PresentsOriginal [.str "secret@example.com"] (executeEncrypted stampCodec plainJson zeroNonce
      { type := "a", args := [.str "secret@example.com"] } oneRetry (fun _ _ => none) failsOnce) :=
  not_presents_of_retried rfl (plainJson.loads_string _) ⟨_, _, rfl⟩ oneRetry_retried

end Examples

end OpenJobSpec.Crypto
