import OpenJobSpec.Http.Transport

/-! # Which answers of the client leave the SDK's error taxonomy

Callers branch on `OJSError` and its subclasses. Four kinds of answer make an
operation raise something else: a request exception that no except clause names,
an error response whose JSON body is not an object, a body on which the decoder
gives up with no `ValueError`, and a retry so late that its backoff cannot be
computed.
-/
namespace OpenJobSpec.Http
open RetryLoop HTTPTransport

/-- The outcome of a finished run stays within the taxonomy. -/
def Classified (result : Except Exn Json) : Prop :=
  match result with
  | .ok _ => True
  | .error e => e.isOJSError = true

def KeepsStatus (o : ClientOutcome) (result : Except Exn Json) : Prop :=
  ∀ r, o = .response r → 400 ≤ r.statusCode →
    ∃ e, result = .error (.api e) ∧ e.statusCode = r.statusCode

/-- The taxonomy is closed on a run: whatever it ends with is classified, and an
error response that it ends on keeps its status. -/
def TaxonomyClosed (run : RequestRun) : Prop :=
  ∀ result, run.result = some result → Classified result ∧
    ∀ o, run.outcomes.getLast? = some o → KeepsStatus o result

def Caught (cls : RequestErrorClass) : Prop :=
  cls.isInstance .connectError = true ∨ cls.isInstance .timeoutException = true ∨
    cls.isInstance .readError = true ∨ cls.isInstance .writeError = true ∨
    cls.isInstance .poolTimeout = true

/-- A response whose body is given to the decoder. -/
def Decoded (r : Response) : Prop :=
  400 ≤ r.statusCode ∨ r.statusCode ≠ 204 ∧ Text.contains "application/json" (contentType r) = true

/-- A response that the transport can read: the body of an error is an object, or no JSON at all,
and a decoder that gives up raises a `ValueError`. -/
structure Mappable (r : Response) : Prop where
  mapping : 400 ≤ r.statusCode → ∀ body, r.json = .ok body → body.isMapping = true
  value_error : Decoded r → ∀ cls message, r.json = .error (cls, message) → cls = .valueError

/-- The answers of a client that keep an operation within the taxonomy, from an
attempt on: retried responses whose backoff computes, then one that is mapped. -/
def Covered (t : HTTPTransport) (safety : OperationSafety) : ℕ → List ClientOutcome → Prop
  | _, [] => True
  | _, .error cls _ :: _ => Caught cls
  | attempt, .response r :: rest =>
    if (retryReason r.statusCode attempt safety t.retryConfig).isSome then
      BackoffComputes attempt (t.retryAfter r) ∧ Covered t safety (attempt + 1) rest
    else Mappable r

variable {t : HTTPTransport} {safety : OperationSafety}

/-- The body of an error response is read as an object, or what goes wrong is no API error. -/
theorem errorBody_cases {r : Response} (hs : 400 ≤ r.statusCode) :
    (Mappable r ∧ ∃ body, errorBody r = .ok body ∧ body.isMapping = true) ∨
      ¬ Mappable r ∧ ((∃ body, errorBody r = .ok body ∧ ¬ body.isMapping = true) ∨
        ∃ cls message, errorBody r = .error (.builtin cls message)) := by
  cases h : r.json with
  | ok body =>
    have hbody : errorBody r = .ok body := by simp only [errorBody, h]
    by_cases hm : body.isMapping = true
    · refine Or.inl ⟨⟨fun _ other hother => ?_, fun _ cls message he => ?_⟩, body, hbody, hm⟩
      · rw [h] at hother
        cases hother
        exact hm
      · rw [h] at he
        cases he
    · exact Or.inr ⟨fun hr => hm (hr.mapping hs body h), Or.inl ⟨body, hbody, hm⟩⟩
  | error failure =>
    obtain ⟨cls, message⟩ := failure
    by_cases hc : cls = .valueError
    · subst hc
      refine Or.inl ⟨⟨fun _ other hother => ?_, fun _ cls message he => ?_⟩,
        parseErrorBody r.text, by simp only [errorBody, h], rfl⟩
      · rw [h] at hother
        cases hother
      · rw [h] at he
        cases he
        rfl
    · refine Or.inr ⟨fun hr => hc (hr.value_error (Or.inl hs) cls message h),
        Or.inr ⟨cls, message, ?_⟩⟩
      unfold errorBody
      rw [h]
      cases cls <;> first | rfl | exact absurd rfl hc

theorem mapRequestError_isOJSError (t : HTTPTransport) (cls : RequestErrorClass)
    (message : String) : (t.mapRequestError cls message).isOJSError = true ↔ Caught cls := by
  unfold mapRequestError Caught
  split
  · rename_i h
    simp [Exn.isOJSError, h]
  · rename_i hc
    split
    · rename_i h
      simp [Exn.isOJSError, h]
    · rename_i ht
      split
      · rename_i h
        simp only [Exn.isOJSError, true_iff]
        exact Or.inr (Or.inr h)
      · rename_i h
        simp only [Exn.isOJSError, Bool.false_eq_true, false_iff]
        rintro (h' | h' | h')
        · exact hc h'
        · exact ht h'
        · exact h h'

theorem decodeResponse_error_iff (t : HTTPTransport) {r : Response} (hs : 400 ≤ r.statusCode) :
    (Classified (t.decodeResponse r) ∧ KeepsStatus (.response r) (t.decodeResponse r)) ↔
      Mappable r := by
  rcases errorBody_cases hs with
    ⟨hr, body, hbody, hm⟩ | ⟨hr, ⟨body, hbody, hm⟩ | ⟨cls, message, he⟩⟩
  · obtain ⟨e, he, hes⟩ := Errors.raiseForError_object t.reader r.statusCode r.headers hm
    have hd : t.decodeResponse r = .error (.api e) := by
      rw [decodeResponse, if_pos hs, hbody, ← he]
      rfl
    rw [hd]
    refine iff_of_true ⟨rfl, ?_⟩ hr
    rintro _ ⟨⟩ _
    exact ⟨e, rfl, hes⟩
  · obtain ⟨message, he⟩ := Errors.raiseForError_not_object t.reader r.statusCode r.headers
      (by simpa using hm)
    have hd : t.decodeResponse r = .error (.builtin .attributeError message) := by
      rw [decodeResponse, if_pos hs, hbody, ← he]
      rfl
    rw [hd]
    exact iff_of_false (fun h => Bool.false_ne_true h.1) hr
  · have hd : t.decodeResponse r = .error (.builtin cls message) := by
      rw [decodeResponse, if_pos hs, he]
      rfl
    rw [hd]
    exact iff_of_false (fun h => Bool.false_ne_true h.1) hr

theorem decodeResponse_success_iff (t : HTTPTransport) {r : Response} (hs : ¬ 400 ≤ r.statusCode) :
    Classified (t.decodeResponse r) ↔ Mappable r := by
  have hmappable : Mappable r ↔
      (Decoded r → ∀ cls message, r.json = .error (cls, message) → cls = .valueError) :=
    ⟨fun h => h.value_error, fun h => ⟨fun h' => absurd h' hs, h⟩⟩
  rw [hmappable, decodeResponse, if_neg hs]
  split
  next h204 =>
    refine iff_of_true trivial ?_
    rintro (h | h)
    · exact absurd h hs
    · exact absurd h204 h.1
  next h204 =>
    split
    next htype =>
      refine iff_of_true trivial ?_
      rintro (h | h)
      · exact absurd h hs
      · exact absurd h.2 htype
    next htype =>
      have hdecoded : Decoded r := Or.inr ⟨h204, not_not.mp htype⟩
      split
      next value h => exact iff_of_true trivial fun _ cls message he => by rw [h] at he; cases he
      next message h =>
        refine iff_of_true rfl fun _ cls message he => ?_
        rw [h] at he
        cases he
        rfl
      next cls message hc h =>
        refine iff_of_false Bool.false_ne_true fun hall => ?_
        have hvalue := hall hdecoded cls message h
        subst hvalue
        exact hc rfl

theorem decodeResponse_classified_iff (t : HTTPTransport) (r : Response) :
    (Classified (t.decodeResponse r) ∧ KeepsStatus (.response r) (t.decodeResponse r)) ↔
      Mappable r := by
  by_cases hs : 400 ≤ r.statusCode
  · exact decodeResponse_error_iff t hs
  · rw [← decodeResponse_success_iff t hs, and_iff_left_iff_imp]
    rintro _ _ ⟨⟩ h
    exact absurd h hs

theorem taxonomyClosed_singleton (o : ClientOutcome) (result : Except Exn Json) :
    TaxonomyClosed ⟨[o], [], false, some result⟩ ↔ Classified result ∧ KeepsStatus o result := by
  simp [TaxonomyClosed]

theorem taxonomyClosed_again {k : ℕ} {o : ClientOutcome} {rest : List ClientOutcome} {delay : ℚ}
    (h : t.attemptMove safety k o = .again delay) :
    TaxonomyClosed (run (t.attemptMove safety) k (o :: rest)) ↔
      TaxonomyClosed (run (t.attemptMove safety) (k + 1) rest) := by
  rw [run_again h]
  unfold TaxonomyClosed
  refine forall_congr' fun result => imp_congr_right fun hr => and_congr_right fun _ => ?_
  obtain ⟨before, last, hl, _⟩ := run_result_eq_some hr
  have hne : (run (t.attemptMove safety) (k + 1) rest).outcomes ≠ [] := by simp [hl]
  rw [List.getLast?_cons_of_ne_nil hne]

theorem run_taxonomyClosed_iff (t : HTTPTransport) (safety : OperationSafety) (k : ℕ)
    (script : List ClientOutcome) :
    TaxonomyClosed (run (t.attemptMove safety) k script) ↔ Covered t safety k script := by
  induction script generalizing k with
  | nil => simp [run, TaxonomyClosed, Covered]
  | cons o rest ih =>
    cases o with
    | error cls message =>
      rw [run_halt (attemptMove_error cls message), taxonomyClosed_singleton]
      simp only [Classified, Covered, mapRequestError_isOJSError, and_iff_left_iff_imp]
      rintro _ r ⟨⟩
    | response r =>
      by_cases hr : (retryReason r.statusCode k safety t.retryConfig).isSome
      · by_cases hb : BackoffComputes k (t.retryAfter r)
        · obtain ⟨delay, hd⟩ := attemptMove_retry hr hb
          rw [taxonomyClosed_again hd, ih]
          simp [Covered, hr, hb]
        · obtain ⟨message, hm⟩ := attemptMove_overflow hr hb
          rw [run_halt hm, taxonomyClosed_singleton]
          simp [Covered, hr, hb, Classified, Exn.isOJSError]
      · rw [run_halt (attemptMove_final hr), taxonomyClosed_singleton,
          decodeResponse_classified_iff]
        simp [Covered, hr]

def defaultTransport : HTTPTransport where
  baseUrl := "http://localhost:8080"
  clientHeaders := defaultHeaders []
  retryConfig := {}
  reader := ⟨fun _ => none, fun _ => none, fun _ => none, fun _ => none, 0⟩
  requestId _ := ""
  random _ := 0

/-- Arrays nested more deeply than the decoder goes. -/
def nestedText : String :=
  String.ofList (List.replicate 100000 '[' ++ List.replicate 100000 ']')

end OpenJobSpec.Http
