import OpenJobSpec.Wire.DecoderClosure
import OpenJobSpec.Wire.JobRequest

/-! # The codecs of the two policies

`to_dict` leaves a member out when it is empty, and the decoder puts a default
in the place of a member that is not there. What comes back is computed once,
for a decoder with any path.
-/
namespace OpenJobSpec
open ExceptRules OpenJobSpec.Field

/-- `from_dict`. -/
def UniquePolicy.fromDict (data : Json) : Except Exn UniquePolicy := do
  let decoder ← WireDecoder.object data "unique"
  fromDecoder decoder

namespace WireDecoder
variable {d : WireDecoder} {field : String}

/-- A list that is left out when it is empty comes back as the default. -/
theorem stringArray_unlessEmpty {texts : List String} (default : List String)
    (h : d.data.lookup field = if texts = [] then none else some (.strings texts)) :
    d.stringArray field default = .ok (if texts = [] then default else texts) := by
  by_cases hempty : texts = []
  · rw [if_pos hempty] at h
    rw [if_pos hempty, stringArray, array, h]
    exact strings_texts _ _ default
  · rw [if_neg hempty] at h
    rw [if_neg hempty]
    exact stringArray_eq h

theorem optionalStringArray_eq {texts : Option (List String)}
    (h : d.data.lookup field = texts.map .strings) :
    optionalStringArray d field = .ok texts := by
  unfold optionalStringArray
  cases texts with
  | none =>
    rw [value, Fields.get_of_lookup_none h]
    rfl
  | some texts =>
    rw [value, Fields.get_of_lookup h]
    change some <$> d.stringArray field [] = .ok (some texts)
    rw [stringArray_eq h]
    rfl

theorem string_option {text : Option String} (h : d.data.lookup field = text.map .str) :
    d.string field none = .ok text := by
  cases text with
  | none => rw [string, h]; rfl
  | some text => exact string_eq h

end WireDecoder

namespace UniquePolicy
variable (u : UniquePolicy) (path : String)

/-- Nothing that the encoder leaves out, and no strategy that the decoder replaces. -/
structure Kept : Prop where
  keys : u.keys ≠ []
  states : u.states ≠ []
  period : u.period ≠ some ""
  onConflict : u.onConflict ≠ ""

/-- The policy with the decoder's defaults in the place of what the encoder leaves out. -/
def withDefaults : UniquePolicy :=
  { u with
    keys := if u.keys = [] then ["type", "queue", "args"] else u.keys
    period := u.period.filter (· ≠ "")
    states := if u.states = [] then ["available", "active", "scheduled"] else u.states
    onConflict := orElseString (some u.onConflict) "reject" }

theorem fromDecoder_toDict : fromDecoder ⟨u.toDict, path⟩ = .ok u.withDefaults := by
  let d : WireDecoder := ⟨u.toDict, path⟩
  have hkeys : d.stringArray "key" ["type", "queue", "args"] =
      .ok (if u.keys = [] then ["type", "queue", "args"] else u.keys) := by
    apply WireDecoder.stringArray_unlessEmpty
    simp [d, toDict, List.lookup_append, lookup_optionalEntry, List.lookup_cons]
  have hargs : optionalStringArray d "args_keys" = .ok u.argsKeys := by
    apply WireDecoder.optionalStringArray_eq
    simp [d, toDict, List.lookup_append, lookup_optionalEntry, List.lookup_cons]
  have hmeta : optionalStringArray d "meta_keys" = .ok u.metaKeys := by
    apply WireDecoder.optionalStringArray_eq
    simp [d, toDict, List.lookup_append, lookup_optionalEntry, List.lookup_cons]
  have hperiod : d.string "period" none = .ok (u.period.filter (· ≠ "")) := by
    apply WireDecoder.string_option
    simp [d, toDict, List.lookup_append, lookup_optionalEntry, List.lookup_cons]
  have hstates : d.stringArray "states" ["available", "active", "scheduled"] =
      .ok (if u.states = [] then ["available", "active", "scheduled"] else u.states) := by
    apply WireDecoder.stringArray_unlessEmpty
    simp [d, toDict, List.lookup_append, lookup_optionalEntry, List.lookup_cons]
  have hconflict : d.string "on_conflict" (some "reject") = .ok (some u.onConflict) :=
    WireDecoder.string_eq rfl
  rw [fromDecoder_eq, hkeys, ok_bind, hargs, ok_bind, hmeta, ok_bind, hperiod, ok_bind, hstates,
    ok_bind, hconflict, ok_bind]
  rfl

theorem orElseString_eq_iff {text default : String} (hdefault : default ≠ "") :
    orElseString (some text) default = text ↔ text ≠ "" := by
  by_cases h : text = ""
  · subst h
    exact iff_of_false hdefault (fun hne => hne rfl)
  · exact iff_of_true (if_neg h) h

theorem ifEmpty_eq_iff {texts default : List String} (hdefault : default ≠ []) :
    (if texts = [] then default else texts) = texts ↔ texts ≠ [] := by
  by_cases h : texts = []
  · rw [if_pos h, h]
    exact iff_of_false hdefault (fun hne => hne rfl)
  · exact iff_of_true (if_neg h) h

theorem withDefaults_eq_iff : u.withDefaults = u ↔ u.Kept := by
  have hkeys : (if u.keys = [] then ["type", "queue", "args"] else u.keys) = u.keys ↔
      u.keys ≠ [] := ifEmpty_eq_iff (List.cons_ne_nil _ _)
  have hstates : (if u.states = [] then ["available", "active", "scheduled"] else u.states) =
      u.states ↔ u.states ≠ [] := ifEmpty_eq_iff (List.cons_ne_nil _ _)
  have hperiod : u.period.filter (· ≠ "") = u.period ↔ u.period ≠ some "" := by
    cases u.period with
    | none => simp
    | some period => simp [Option.filter]
  have hconflict : orElseString (some u.onConflict) "reject" = u.onConflict ↔
      u.onConflict ≠ "" := orElseString_eq_iff (by decide)
  constructor
  · intro h
    exact ⟨hkeys.mp (congrArg UniquePolicy.keys h), hstates.mp (congrArg UniquePolicy.states h),
      hperiod.mp (congrArg UniquePolicy.period h),
      hconflict.mp (congrArg UniquePolicy.onConflict h)⟩
  · rintro ⟨hk, hs, hp, hc⟩
    rw [withDefaults, hkeys.mpr hk, hstates.mpr hs, hperiod.mpr hp, hconflict.mpr hc]

theorem toDict_ne_nil : u.toDict ≠ [] := by simp [toDict]

end UniquePolicy

namespace RetryPolicy
variable {p : RetryPolicy}

/-- The only list that is left out is the empty one, which is the default. -/
theorem get_nonRetryableErrors (h : isStringArray (some p.nonRetryableErrors) = true) :
    Fields.get p.toDict "non_retryable_errors" (.array []) = p.nonRetryableErrors := by
  have hlookup : p.toDict.lookup "non_retryable_errors" =
      if p.nonRetryableErrors.truthy then some p.nonRetryableErrors else none := by
    simp [toDict, lookup_optionalEntry, List.lookup_cons]
  by_cases htruthy : p.nonRetryableErrors.truthy = true
  · rw [if_pos htruthy] at hlookup
    exact Fields.get_of_lookup hlookup _
  · rw [if_neg htruthy] at hlookup
    rw [Fields.get_of_lookup_none hlookup]
    cases herrors : p.nonRetryableErrors with
    | array texts =>
      rw [herrors] at htruthy
      cases texts with
      | nil => rfl
      | cons text texts => exact absurd rfl htruthy
    | null | bool _ | int _ | float _ | str _ | object _ =>
      rw [herrors] at h
      cases h

theorem fromDict_toDict (h : p.Typed) : fromDict p.toDict = p := by
  have herrors := get_nonRetryableErrors h.nonRetryableErrors
  have hfixed : ∀ default : Json,
      Fields.get p.toDict "max_attempts" default = p.maxAttempts ∧
      Fields.get p.toDict "initial_interval" default = p.initialInterval ∧
      Fields.get p.toDict "backoff_coefficient" default = p.backoffCoefficient ∧
      Fields.get p.toDict "max_interval" default = p.maxInterval ∧
      Fields.get p.toDict "jitter" default = p.jitter := fun _ => ⟨rfl, rfl, rfl, rfl, rfl⟩
  rw [fromDict, (hfixed _).1, (hfixed _).2.1, (hfixed _).2.2.1, (hfixed _).2.2.2.1,
    (hfixed _).2.2.2.2, herrors]

theorem toDict_ne_nil : p.toDict ≠ [] := List.cons_ne_nil _ _

end RetryPolicy

namespace Job

/-- The uniqueness policy of a decoded job is what was read of the object under `unique`. -/
theorem fromDict_unique (reader : TextReader) (data : Fields) :
    Ends (fun _ => True) (fun job => uniqueField ⟨data, "job"⟩ = .ok job.unique)
      (fromDict reader (.object data)) := by
  have hraises {α : Type} (x : Except Exn α) : OnlyRaises (fun _ => True) x := fun _ _ => trivial
  rw [fromDict_eq]
  refine .bind (hraises _) fun _ _ => ?_
  refine .bind (hraises _) fun unique hunique => ?_
  iterate 18 refine .bind (hraises _) fun _ _ => ?_
  exact hunique

variable {reader : TextReader} {data : Fields} {job : Job}
  (hjob : fromDict reader (.object data) = .ok job)

include hjob

theorem echoed_unique {u : UniquePolicy} (h : data.lookup "unique" = some (.object u.toDict)) :
    job.unique = some u.withDefaults := by
  have hread : uniqueField ⟨data, "job"⟩ = .ok job.unique := by
    have hends := fromDict_unique reader data
    rwa [hjob] at hends
  have hmapping : (⟨data, "job"⟩ : WireDecoder).optionalMapping "unique" = .ok (some u.toDict) :=
    WireDecoder.optionalMapping_eq h
  have hkept : policyData (some u.toDict) = some u.toDict := by
    simp [policyData, Option.filter, u.toDict_ne_nil]
  rw [uniqueField, hmapping, ok_bind, hkept] at hread
  dsimp only at hread
  rw [u.fromDecoder_toDict] at hread
  exact (Except.ok.inj hread).symm

theorem echoed_retry {p : RetryPolicy} (hp : p.Typed)
    (h : data.lookup "retry" = some (.object p.toDict)) : job.retry = some p := by
  have hread : job.retry = (policyFields (data.lookup "retry")).map RetryPolicy.fromDict := by
    have hends := fromDict_retry reader data
    rwa [hjob] at hends
  have hkept : policyData (some p.toDict) = some p.toDict := by
    simp [policyData, Option.filter, RetryPolicy.toDict_ne_nil]
  rw [hread, h, policyFields, hkept, Option.map_some, RetryPolicy.fromDict_toDict hp]

end Job

/-- Both policies survive their codecs, also when a server echoes them in a job. -/
structure PoliciesSurvive (u : UniquePolicy) (p : RetryPolicy) : Prop where
  unique : UniquePolicy.fromDict (.object u.toDict) = .ok u
  retry : RetryPolicy.fromDict p.toDict = p
  echoed : ∀ reader data job, Job.fromDict reader (.object data) = .ok job →
    data.lookup "unique" = some (.object u.toDict) →
    data.lookup "retry" = some (.object p.toDict) → job.unique = some u ∧ job.retry = some p

/-- Policies survive exactly when the uniqueness policy has nothing empty that has a default. -/
theorem policies_survive_iff (u : UniquePolicy) {p : RetryPolicy} (hp : p.Typed) :
    PoliciesSurvive u p ↔ u.Kept := by
  have hdecoded : UniquePolicy.fromDict (.object u.toDict) = .ok u.withDefaults :=
    u.fromDecoder_toDict "unique"
  constructor
  · intro h
    apply u.withDefaults_eq_iff.mp
    exact Except.ok.inj (hdecoded.symm.trans h.unique)
  · intro h
    have hsame : u.withDefaults = u := u.withDefaults_eq_iff.mpr h
    refine ⟨?_, RetryPolicy.fromDict_toDict hp, fun reader data job hjob hunique hretry => ?_⟩
    · rw [hdecoded, hsame]
    · have hechoed := Job.echoed_unique hjob hunique
      rw [hsame] at hechoed
      exact ⟨hechoed, Job.echoed_retry hjob hp hretry⟩

/-- The defaults of `RetryPolicy`. -/
def RetryPolicy.default : RetryPolicy := fromDict []

/-- The defaults of `UniquePolicy`, with a window of an hour. -/
def UniquePolicy.hourly : UniquePolicy where
  keys := ["type", "queue", "args"]
  argsKeys := none
  metaKeys := some []
  period := some "PT1H"
  states := ["available", "active", "scheduled"]
  onConflict := "reject"

theorem hourly_policy_survives :
    PoliciesSurvive UniquePolicy.hourly RetryPolicy.default ↔ UniquePolicy.hourly.Kept :=
  policies_survive_iff _ ⟨rfl, rfl, rfl, rfl, rfl, rfl⟩

/-- An empty list of keys comes back as the default one. -/
theorem empty_keys_lost :
    ¬ PoliciesSurvive { UniquePolicy.hourly with keys := [] } RetryPolicy.default := by
  intro h
  have hkeys : (UniquePolicy.fromDict
      (.object { UniquePolicy.hourly with keys := [] }.toDict)).map UniquePolicy.keys =
      .ok ["type", "queue", "args"] := by decide +kernel
  rw [h.unique] at hkeys
  cases hkeys

end OpenJobSpec
