import OpenJobSpec.Grpc.RpcErrors
import OpenJobSpec.Worker.CompletionReporter

/-! # One error over the two bindings

The gRPC mapper turns the `ErrorInfo` of a trailer into a body of the HTTP
binding and hands it to the same mapper. So the two exceptions differ only by
what that body does not keep: whether there was a flag, what an empty message
stands for, and a code that begins as the prefix does.
-/
namespace OpenJobSpec.Grpc
open Errors ExceptRules Worker

/-- An OJS error, as both bindings transmit it. -/
structure ErrorFields where
  code : String
  message : String
  details : List (String × String)
  retryable : Option Bool

def ErrorFields.httpBody (f : ErrorFields) : Json :=
  .object [("error", .object ([("code", .str f.code), ("message", .str f.message)]
    ++ (f.retryable.map fun flag => ("retryable", Json.bool flag)).toList
    ++ [("details", .object (f.details.map fun entry => (entry.1, .str entry.2)))]))]

def flagText (flag : Bool) : String := if flag then "true" else "false"

/-- The flag takes its place among the details. -/
def ErrorFields.metadata (f : ErrorFields) : List (String × String) :=
  match f.retryable with
  | none => f.details
  | some flag => ("retryable", flagText flag) :: f.details.filter fun entry => entry.1 ≠ "retryable"

def ErrorFields.errorInfo (f : ErrorFields) (prefixed : Bool) : ErrorInfo where
  reason := if prefixed then "OJS_" ++ f.code else f.code
  domain := "openjobspec.org"
  metadata := f.metadata

/-- A failed call whose trailer carries the error, whatever other details come with it. -/
structure Carries (runtime : StatusRuntime) (error : RpcError) (f : ErrorFields)
    (prefixed : Bool) (status : RpcStatus) (found : DecodedDetails) : Prop where
  trailer : trailingStatus runtime error = some status
  message : status.message = f.message
  decoded : decodeDetails status.details {} = .ok found
  errorInfo : found.errorInfo = some (f.errorInfo prefixed)

/-- The same class, code, message and retryable value, and the same decision of the worker whether
to deliver again. -/
structure ClassifiedAlike (grpc http : OJSAPIError) : Prop where
  className : grpc.cls.className = http.cls.className
  code : grpc.error.code = http.error.code
  message : grpc.error.message = http.error.message
  retryable : grpc.error.retryable = http.error.retryable
  delivery : retryableDelivery (.api grpc) = retryableDelivery (.api http)

/-! ## What the catalog says of a code -/

/-- The code of a detail; an empty one is unknown. -/
def detailCode (code : String) : String := string (.str code) "unknown"

def defaultMessage (code : String) : String :=
  ((catalogEntry (detailCode code)).map (·.message)).getD "Unknown error"

def defaultRetryable (code : String) : Bool :=
  ((catalogEntry (detailCode code)).map (·.retryable)).getD false

/-- What a reader of the metadata takes for the flag. -/
def announcedRetryable (metadata : List (String × String)) : Bool :=
  Text.casefold ((metadata.lookup "retryable").getD "false") = "true"

def BeginsWithPrefix (code : String) : Prop := "OJS_".toList <+: code.toList

/-- The fields that come out alike on both sides. A bare code does not begin as the prefix does; an
empty message has the catalog's text for its replacement, or no text at all; and without a flag
the metadata say of the code what the catalog says. -/
structure CarriedByBoth (error : RpcError) (f : ErrorFields) (prefixed : Bool) : Prop where
  code : prefixed = false → ¬ BeginsWithPrefix f.code
  message : f.message = "" → error.message = "" ∨ error.message = defaultMessage f.code
  retryable : f.retryable = none → announcedRetryable f.details = defaultRetryable f.code

/-! ## The two exceptions -/

variable {runtime : StatusRuntime} {error : RpcError} {f : ErrorFields} {prefixed : Bool}
variable {status : RpcStatus} {found : DecodedDetails}

/-- What the mapper reads of an error object. -/
structure ReadsAs (fields : Fields) (code message : String) (retryable : Option Bool) : Prop where
  code : Fields.get fields "code" .null = .str code
  message : Fields.get fields "message" .null = .str message
  retryable : Fields.get fields "retryable" .null = (retryable.map Json.bool).getD .null

/-- An exception for an error that reads so. -/
structure BuiltFrom (reader : TextReader) (statusCode : ℕ) (headers : Headers)
    (code message : String) (retryable : Option Bool) (e : OJSAPIError) : Prop where
  cls_eq : e.cls = errorClass reader statusCode (detailCode code) headers
  code_eq : e.error.code = detailCode code
  message_eq : e.error.message = string (.str message) (defaultMessage code)
  retryable_eq : e.error.retryable = retryable.getD (defaultRetryable code)

theorem mapErrorResponse_reads {fields : Fields} {code message : String} {retryable : Option Bool}
    (h : ReadsAs fields code message retryable) (reader : TextReader) (statusCode : ℕ)
    (headers : Headers) :
    ∃ e, mapErrorResponse reader statusCode (.object [("error", .object fields)]) headers = .ok e ∧
      BuiltFrom reader statusCode headers code message retryable e := by
  have hmap : mapErrorResponse reader statusCode (.object [("error", .object fields)]) headers =
      .ok ⟨errorClass reader statusCode (errorDetail fields []).code headers, statusCode,
        errorDetail fields []⟩ := rfl
  have hcode : (errorDetail fields []).code = detailCode code := by
    unfold errorDetail
    rw [h.code]
    rfl
  refine ⟨_, hmap, ?_, hcode, ?_, ?_⟩
  · rw [← hcode]
  · unfold errorDetail
    rw [h.code, h.message]
    unfold defaultMessage detailCode
    rfl
  · unfold errorDetail
    rw [h.code, h.retryable]
    unfold defaultRetryable detailCode
    cases retryable with
    | none => rfl
    | some flag => rfl

theorem httpBody_detail (reader : TextReader) (statusCode : ℕ) (f : ErrorFields) :
    ∃ e, mapErrorResponse reader statusCode f.httpBody [] = .ok e ∧
      BuiltFrom reader statusCode [] f.code f.message f.retryable e := by
  refine mapErrorResponse_reads ⟨rfl, rfl, ?_⟩ reader statusCode []
  cases f.retryable with
  | none => rfl
  | some flag => rfl

theorem mapGrpcError_detail (reader : TextReader)
    (h : Carries runtime error f prefixed status found) :
    ∃ e headers, mapGrpcError runtime reader error = .ok (.api e) ∧
      BuiltFrom reader (grpcCodeToHttpStatus error.code) headers
        (Text.removeprefix "OJS_" (f.errorInfo prefixed).reason)
        (orElseString (some f.message) error.message) (some (announcedRetryable f.metadata)) e := by
  have hreads : ReadsAs (structuredData (orElseString (some f.message) error.message)
      (f.errorInfo prefixed) found.fieldViolations)
      (Text.removeprefix "OJS_" (f.errorInfo prefixed).reason)
      (orElseString (some f.message) error.message) (some (announcedRetryable f.metadata)) :=
    ⟨rfl, rfl, rfl⟩
  obtain ⟨e, he, hbuilt⟩ := mapErrorResponse_reads hreads reader (grpcCodeToHttpStatus error.code)
    (retryHeaders runtime found.retryInfo)
  refine ⟨e, _, ?_, hbuilt⟩
  unfold mapGrpcError structuredError
  rw [h.trailer]
  dsimp only
  rw [h.decoded, ok_bind, h.errorInfo, h.message]
  dsimp only
  rw [he]
  rfl

/-- What the rate-limit headers say is told by the exception, not by its class. -/
theorem className_errorClass (reader : TextReader) (statusCode : ℕ) (code : String)
    (headers headers' : Headers) :
    (errorClass reader statusCode code headers).className =
      (errorClass reader statusCode code headers').className := by
  unfold errorClass
  dsimp only
  split_ifs <;> rfl

/-! ## Codes, messages and flags -/

theorem removeprefix_prefixed (start text : String) :
    Text.removeprefix start (start ++ text) = text := by
  unfold Text.removeprefix
  rw [String.toList_append, if_pos (List.isPrefixOf_iff_prefix.mpr (List.prefix_append ..)),
    String.length, List.drop_left, String.ofList_toList]

theorem removeprefix_of_not_prefix {start text : String} (h : ¬ start.toList <+: text.toList) :
    Text.removeprefix start text = text :=
  if_neg fun hp => h (List.isPrefixOf_iff_prefix.mp hp)

/-- A code that begins as the prefix does comes out shorter, or unknown. -/
theorem detailCode_removeprefix_ne {code : String} (h : BeginsWithPrefix code) :
    detailCode (Text.removeprefix "OJS_" code) ≠ detailCode code := by
  obtain ⟨rest, hrest⟩ := h
  have hcode : code = "OJS_" ++ String.ofList rest := by
    rw [← String.ofList_toList (s := code), ← hrest, String.ofList_append, String.ofList_toList]
  have hne : code ≠ "" := by
    rintro rfl
    cases hrest
  rw [hcode, removeprefix_prefixed, ← hcode]
  unfold detailCode string
  dsimp only
  rw [if_neg hne]
  split_ifs with hempty
  · rintro rfl
    have hhead : 'O' = 'u' := congrArg (fun chars => chars.headD ' ') hrest
    cases hhead
  · intro hsame
    have hlength := congrArg String.length (hcode.symm.trans hsame.symm)
    rw [String.length_append] at hlength
    exact absurd hlength (by simp)

theorem message_eq_iff (message fallback default : String) :
    string (.str (orElseString (some message) fallback)) default = string (.str message) default ↔
      (message = "" → fallback = "" ∨ fallback = default) := by
  unfold string orElseString
  by_cases hm : message = ""
  · by_cases hf : fallback = ""
    · simp [hm, hf]
    · simp [hm, hf]
  · simp [hm]

theorem announcedRetryable_metadata (f : ErrorFields) :
    announcedRetryable f.metadata = f.retryable.getD (announcedRetryable f.details) := by
  unfold ErrorFields.metadata
  cases f.retryable with
  | none => rfl
  | some flag =>
    unfold announcedRetryable
    rw [List.lookup_cons_self, Option.getD_some, Option.getD_some]
    cases flag <;> decide

/-! ## The bindings classify alike -/

/-- Both mappers succeed on every error that the two bindings can carry, and their exceptions agree
exactly when the code, the message and the flag are ones that come out of both. -/
theorem bindings_classify_alike_iff (reader : TextReader)
    (h : Carries runtime error f prefixed status found) :
    ∃ grpc http, mapGrpcError runtime reader error = .ok (.api grpc) ∧
      mapErrorResponse reader (grpcCodeToHttpStatus error.code) f.httpBody [] = .ok http ∧
      (ClassifiedAlike grpc http ↔ CarriedByBoth error f prefixed) := by
  obtain ⟨grpc, headers, hgrpc, built⟩ := mapGrpcError_detail reader h
  obtain ⟨http, hhttp, direct⟩ :=
    httpBody_detail reader (grpcCodeToHttpStatus error.code) f
  refine ⟨grpc, http, hgrpc, hhttp, ?_⟩
  by_cases hcode : prefixed = false ∧ BeginsWithPrefix f.code
  · refine iff_of_false (fun halike => ?_) fun hcarried => hcarried.code hcode.1 hcode.2
    have hreason : (f.errorInfo prefixed).reason = f.code := by rw [hcode.1]; rfl
    have hsame := halike.code
    rw [built.code_eq, direct.code_eq, hreason] at hsame
    exact detailCode_removeprefix_ne hcode.2 hsame
  · have hreason : Text.removeprefix "OJS_" (f.errorInfo prefixed).reason = f.code := by
      cases hwith : prefixed with
      | true => exact removeprefix_prefixed "OJS_" f.code
      | false => exact removeprefix_of_not_prefix fun hp => hcode ⟨hwith, hp⟩
    rw [hreason] at built
    have hmessage : grpc.error.message = http.error.message ↔
        (f.message = "" → error.message = "" ∨ error.message = defaultMessage f.code) := by
      rw [built.message_eq, direct.message_eq]
      exact message_eq_iff ..
    have hretryable : grpc.error.retryable = http.error.retryable ↔
        (f.retryable = none → announcedRetryable f.details = defaultRetryable f.code) := by
      rw [built.retryable_eq, direct.retryable_eq, announcedRetryable_metadata]
      cases f.retryable with
      | none => simp
      | some flag => simp
    constructor
    · intro halike
      exact ⟨fun hwith hp => hcode ⟨hwith, hp⟩, hmessage.mp halike.message,
        hretryable.mp halike.retryable⟩
    · intro hcarried
      refine ⟨?_, ?_, hmessage.mpr hcarried.message, hretryable.mpr hcarried.retryable,
        hretryable.mpr hcarried.retryable⟩
      · rw [built.cls_eq, direct.cls_eq]
        exact className_errorClass ..
      · rw [built.code_eq, direct.code_eq]

/-! ## One error with a flag and one without -/

/-- A runtime that reads every trailer as the status of this error. -/
def sampleRuntime (f : ErrorFields) : StatusRuntime where
  parseStatus := some fun _ => some ⟨f.message, [.errorInfo (f.errorInfo true)]⟩
  secondsText _ _ := "0"

def unavailableCall : RpcError where
  code := .unavailable
  details := some "store down"
  text := "<AioRpcError>"
  trailingMetadata := some [("grpc-status-details-bin", .bytes [])]

def unavailableError (flag : Option Bool) : ErrorFields :=
  ⟨"BACKEND_UNAVAILABLE", "store down", [], flag⟩

theorem unavailableCall_carries (flag : Option Bool) :
    Carries (sampleRuntime (unavailableError flag)) unavailableCall (unavailableError flag) true
      ⟨"store down", [.errorInfo ((unavailableError flag).errorInfo true)]⟩
      { errorInfo := some ((unavailableError flag).errorInfo true) } :=
  ⟨rfl, rfl, rfl, rfl⟩

theorem flagged_error_alike :
    ∃ grpc http, mapGrpcError (sampleRuntime (unavailableError (some true))) refusingReader
        unavailableCall = .ok (.api grpc) ∧
      mapErrorResponse refusingReader 503 (unavailableError (some true)).httpBody [] = .ok http ∧
      ClassifiedAlike grpc http := by
  obtain ⟨grpc, http, hgrpc, hhttp, halike⟩ :=
    bindings_classify_alike_iff refusingReader (unavailableCall_carries (some true))
  exact ⟨grpc, http, hgrpc, hhttp, halike.mpr ⟨nofun, nofun, nofun⟩⟩

theorem unflagged_error_differs :
    ∃ grpc http, mapGrpcError (sampleRuntime (unavailableError none)) refusingReader
        unavailableCall = .ok (.api grpc) ∧
      mapErrorResponse refusingReader 503 (unavailableError none).httpBody [] = .ok http ∧
      grpc.error.retryable = false ∧ http.error.retryable = true ∧
      ¬ ClassifiedAlike grpc http := by
  obtain ⟨grpc, headers, hgrpc, built⟩ :=
    mapGrpcError_detail refusingReader (unavailableCall_carries none)
  obtain ⟨http, hhttp, direct⟩ := httpBody_detail refusingReader 503 (unavailableError none)
  have hfalse : grpc.error.retryable = false := by
    rw [built.retryable_eq]
    rfl
  have htrue : http.error.retryable = true := by
    rw [direct.retryable_eq]
    decide +kernel
  refine ⟨grpc, http, hgrpc, hhttp, hfalse, htrue, fun halike => ?_⟩
  rw [halike.retryable, htrue] at hfalse
  cases hfalse

end OpenJobSpec.Grpc
