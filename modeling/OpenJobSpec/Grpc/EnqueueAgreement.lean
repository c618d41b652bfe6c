import OpenJobSpec.Client.RequestValidation
import OpenJobSpec.Grpc.EnqueueFields

/-! # What two requests with equal messages have in common

They agree field by field, as long as decimal arithmetic has digits enough for
their times. Past 28 digits it merges times that are different.
-/
namespace OpenJobSpec.Grpc
open OpenJobSpec.Json

/-! ## Times that decimal arithmetic keeps -/

namespace IsoDuration
variable (d : IsoDuration)

/-- The seconds of a duration. -/
def exact : ℚ := d.days * 86400 + d.hours * 3600 + d.minutes * 60 + d.seconds.value

/-- No part of the sum, and no sum on the way, has more digits than arithmetic keeps. -/
structure Unrounded : Prop where
  days : Decimal.Short (d.days * 86400)
  hours : Decimal.Short (d.hours * 3600)
  minutes : Decimal.Short (d.minutes * 60)
  upToHours : Decimal.Short (d.days * 86400 + d.hours * 3600)
  upToMinutes : Decimal.Short (d.days * 86400 + d.hours * 3600 + d.minutes * 60)
  upToSeconds : Decimal.Short d.exact

variable {d}

theorem value_ofNat (n : ℕ) : Decimal.value ⟨n, 0⟩ = n := by
  simp [Decimal.value]

theorem mul_ofNat_value (m n : ℕ) (h : Decimal.Short ((m : ℚ) * n)) :
    (Decimal.mul ⟨m, 0⟩ ⟨n, 0⟩).value = m * n := by
  rw [Decimal.mul_value (by simpa only [value_ofNat] using h), value_ofNat, value_ofNat]

theorem total_value (h : d.Unrounded) : d.total.value = d.exact := by
  have hdays := mul_ofNat_value d.days 86400 (by exact_mod_cast h.days)
  have hhours := mul_ofNat_value d.hours 3600 (by exact_mod_cast h.hours)
  have hminutes := mul_ofNat_value d.minutes 60 (by exact_mod_cast h.minutes)
  have hupToHours := Decimal.add_value (a := .mul ⟨d.days, 0⟩ ⟨86400, 0⟩)
    (b := .mul ⟨d.hours, 0⟩ ⟨3600, 0⟩) (by rw [hdays, hhours]; exact_mod_cast h.upToHours)
  have hupToMinutes := Decimal.add_value (b := .mul ⟨d.minutes, 0⟩ ⟨60, 0⟩)
    (by rw [hupToHours, hdays, hhours, hminutes]; exact_mod_cast h.upToMinutes)
  have hsum : (((Decimal.mul ⟨d.days, 0⟩ ⟨86400, 0⟩).add (.mul ⟨d.hours, 0⟩ ⟨3600, 0⟩)).add
      (.mul ⟨d.minutes, 0⟩ ⟨60, 0⟩)).value + d.seconds.value = d.exact := by
    rw [hupToMinutes, hupToHours, hdays, hhours, hminutes]
    unfold exact
    push_cast
    rfl
  unfold total
  rw [Decimal.add_value (hsum ▸ h.upToSeconds), hsum]

/-- A duration of less than `10 ^ 28` units of its last digit. -/
theorem unrounded_of_lt (places : ℕ) (hplaces : d.seconds.exponent = -places)
    (hsmall : Decimal.smallestExponent ≤ d.seconds.exponent)
    (hlt : (d.days * 86400 + d.hours * 3600 + d.minutes * 60) * 10 ^ places
      + d.seconds.coefficient < 10 ^ Decimal.precision) : d.Unrounded := by
  have hwhole : ∀ n : ℕ, n ≤ d.days * 86400 + d.hours * 3600 + d.minutes * 60 →
      Decimal.Short n := by
    intro n hn
    have hscaled := Nat.mul_le_mul_right (10 ^ places) hn
    have hself : n ≤ n * 10 ^ places := Nat.le_mul_of_pos_right n (Nat.pow_pos (by norm_num))
    exact ⟨n, 0, by omega, by decide, by simp⟩
  have hexact : d.exact = (((d.days * 86400 + d.hours * 3600 + d.minutes * 60) * 10 ^ places
      + d.seconds.coefficient : ℕ) : ℚ) * 10 ^ (-places : ℤ) := by
    unfold exact Decimal.value
    rw [hplaces, zpow_neg, zpow_natCast]
    push_cast
    field_simp
  exact {
    days := by exact_mod_cast hwhole (d.days * 86400) (by omega)
    hours := by exact_mod_cast hwhole (d.hours * 3600) (by omega)
    minutes := by exact_mod_cast hwhole (d.minutes * 60) (by omega)
    upToHours := by exact_mod_cast hwhole (d.days * 86400 + d.hours * 3600) (by omega)
    upToMinutes := by
      exact_mod_cast hwhole (d.days * 86400 + d.hours * 3600 + d.minutes * 60) le_rfl
    upToSeconds := ⟨_, _, hlt, hplaces ▸ hsmall, hexact⟩ }

end IsoDuration

theorem value_of_decimalDuration {a b : Decimal} (h : decimalDuration a = decimalDuration b) :
    a.value = b.value := by
  unfold decimalDuration at h
  refine Decimal.value_eq_of_fixed (String.toList_injective ?_)
  have htext := congrArg String.toList h
  rw [String.toList_append, String.toList_append] at htext
  exact List.append_cancel_right htext

theorem durationText_inj {d d' : IsoDuration} (hd : d.Unrounded) (hd' : d'.Unrounded)
    (h : (durationText d).compared = (durationText d').compared) : d.exact = d'.exact := by
  rw [← IsoDuration.total_value hd, ← IsoDuration.total_value hd']
  exact value_of_decimalDuration (compared_str_inj.mp h)

theorem value_inj {m n : ℕ} {e : ℤ} (h : Decimal.value ⟨m, e⟩ = Decimal.value ⟨n, e⟩) : m = n := by
  have hpow : (10 : ℚ) ^ e ≠ 0 := zpow_ne_zero _ (by norm_num)
  exact_mod_cast mul_right_cancel₀ hpow h

/-- The digits that a timeout has. -/
def ShortTimeout (milliseconds : ℤ) : Prop := Decimal.Short (Decimal.value ⟨milliseconds.toNat, -3⟩)

theorem timeoutText_inj {t t' : ℤ} (ht : 0 ≤ t) (ht' : 0 ≤ t') (hshort : ShortTimeout t)
    (hshort' : ShortTimeout t') (h : (timeoutText t).compared = (timeoutText t').compared) :
    t = t' := by
  have hvalue := value_of_decimalDuration (compared_str_inj.mp h)
  rw [Decimal.rounded_value hshort, Decimal.rounded_value hshort'] at hvalue
  have hnat := value_inj hvalue
  omega

theorem lifetimeText_inj {clock : Clock} {n n' : ℕ} (hn : n < exactMicroseconds)
    (hn' : n' < exactMicroseconds)
    (h : (lifetimeText clock n).compared = (lifetimeText clock n').compared) : n = n' := by
  have hvalue := value_of_decimalDuration (compared_str_inj.mp h)
  unfold secondsDecimal at hvalue
  rw [if_pos hn, if_pos hn'] at hvalue
  exact value_inj hvalue

/-! ## Optional entries -/

theorem map_of_compared {α β : Type} {f : α → Json} {g : α → β} {x y : Option α}
    (hfg : ∀ a ∈ x, ∀ b ∈ y, (f a).compared = (f b).compared → g a = g b)
    (h : (x.map f).map compared = (y.map f).map compared) : x.map g = y.map g := by
  cases x with
  | none =>
    cases y with
    | none => rfl
    | some b => cases h
  | some a =>
    cases y with
    | none => cases h
    | some b => exact congrArg some (hfg a rfl b rfl (Option.some.inj h))

theorem eq_of_compared {α : Type} {f : α → Json} {x y : Option α}
    (hf : ∀ a ∈ x, ∀ b ∈ y, (f a).compared = (f b).compared → a = b)
    (h : (x.map f).map compared = (y.map f).map compared) : x = y := by
  simpa using map_of_compared (g := id) hf h

/-- An entry that is left out at a default value. -/
theorem eq_of_omitted {α : Type} [DecidableEq α] {f : α → Json} {default a b : α}
    (hf : (f a).compared = (f b).compared → a = b)
    (h : (if a = default then none else some (f a)).map compared =
      (if b = default then none else some (f b)).map compared) : a = b := by
  by_cases ha : a = default
  · by_cases hb : b = default
    · rw [ha, hb]
    · rw [if_pos ha, if_neg hb] at h
      cases h
  · by_cases hb : b = default
    · rw [if_neg ha, if_pos hb] at h
      cases h
    · rw [if_neg ha, if_neg hb] at h
      exact hf (Option.some.inj h)

/-- A default value and no value count as the same. -/
theorem getD_eq_of_filter {α : Type} [DecidableEq α] {default : α} {x y : Option α}
    (h : x.filter (· ≠ default) = y.filter (· ≠ default)) : x.getD default = y.getD default := by
  have hgetD : ∀ z : Option α, (z.filter (· ≠ default)).getD default = z.getD default := by
    intro z
    cases z with
    | none => rfl
    | some a =>
      by_cases ha : a = default
      · simp [Option.filter, ha]
      · simp [Option.filter, ha]
  rw [← hgetD x, ← hgetD y, h]

theorem rel_of_compared {α : Type} {P P' : α → Json → Prop} {R : α → α → Prop}
    {x x' : Option α} {value value' : Option Json} (hx : Option.Rel P x value)
    (hx' : Option.Rel P' x' value') (h : value.map compared = value'.map compared)
    (hR : ∀ a ∈ x, ∀ a' ∈ x', ∀ v v', P a v → P' a' v' → v.compared = v'.compared → R a a') :
    Option.Rel R x x' := by
  cases hx with
  | none =>
    cases hx' with
    | none => exact .none
    | some => cases h
  | some ha =>
    cases hx' with
    | none => cases h
    | some ha' => exact .some (hR _ rfl _ rfl _ _ ha ha' (Option.some.inj h))

theorem strings_inj {xs ys : List String} (h : (strings xs).compared = (strings ys).compared) :
    xs = ys := by
  unfold strings at h
  rw [compared_array_inj, List.map_map, List.map_map] at h
  exact Text.eq_of_map_eq (P := fun _ => True) (fun a _ b _ hab => compared_str_inj.mp hab)
    (fun _ _ => trivial) (fun _ _ => trivial) h

/-! ## What agrees -/

/-- The seconds of the duration that a text holds. -/
def seconds (digit : Char → Option ℕ) (value : Json) : Option ℚ :=
  (durationOf digit value).map IsoDuration.exact

structure RetryAgree (digit : Char → Option ℕ) (p p' : RetryPolicy) : Prop where
  maxAttempts : p.maxAttempts.compared = p'.maxAttempts.compared
  initialInterval : seconds digit p.initialInterval = seconds digit p'.initialInterval
  backoffCoefficient : p.backoffCoefficient.compared = p'.backoffCoefficient.compared
  maxInterval : seconds digit p.maxInterval = seconds digit p'.maxInterval
  jitter : p.jitter.compared = p'.jitter.compared
  nonRetryableErrors : p.nonRetryableErrors.compared = p'.nonRetryableErrors.compared

/-- The duration that a policy holds, unless it holds none or an empty text. -/
def periodOf (digit : Char → Option ℕ) (p : UniquePolicy) : Option IsoDuration :=
  (nonEmpty p.period).bind (parseIsoDuration digit)

structure UniqueAgree (digit : Char → Option ℕ) (p p' : UniquePolicy) : Prop where
  keys : p.keys = p'.keys
  argsKeys : p.argsKeys = p'.argsKeys
  metaKeys : p.metaKeys = p'.metaKeys
  period : (periodOf digit p).map IsoDuration.exact = (periodOf digit p').map IsoDuration.exact
  states : p.states = p'.states
  onConflict : p.onConflict = p'.onConflict

structure RequestsAgree (runtime : ProjectionRuntime) (now : ℤ) (r r' : JobRequest) : Prop where
  type : r.type = r'.type
  args : r.args.map compared = r'.args.map compared
  queue : r.queue = r'.queue
  priority : r.priority = r'.priority
  timeoutMs : r.timeoutMs = r'.timeoutMs
  delayUntil : r.delayUntil.getD "" = r'.delayUntil.getD ""
  tags : r.tags.getD [] = r'.tags.getD []
  «meta» : (object (r.meta.getD [])).compared = (object (r'.meta.getD [])).compared
  retry : Option.Rel (RetryAgree runtime.digit) r.retry r'.retry
  unique : Option.Rel (UniqueAgree runtime.digit) r.unique r'.unique
  lifetime : remainingLifetime runtime.clock now r = remainingLifetime runtime.clock now r'

/-! ## Which requests -/

/-- The microseconds of 250 years. -/
def farthestExpiry : ℤ := 250 * 366 * 86400 * 10 ^ 6

/-- A request whose values have their declared types and that the client accepts. -/
structure Sendable (clock : Clock) (now : ℤ) (r : JobRequest) : Prop where
  accepted : Client.validateRequest r = .ok ()
  retry : ∀ p ∈ r.retry, p.Typed
  states : ∀ p ∈ r.unique, ∀ state ∈ p.states, (JobState.ofValue state).isSome
  expiry : ∀ expiry ∈ expiryOf clock r, |expiry - now| ≤ farthestExpiry

/-- A request whose times decimal arithmetic does not round. -/
structure UnroundedTimes (digit : Char → Option ℕ) (r : JobRequest) : Prop where
  timeout : ∀ milliseconds ∈ r.timeoutMs, ShortTimeout milliseconds
  initialInterval : ∀ p ∈ r.retry, ∀ d ∈ durationOf digit p.initialInterval, d.Unrounded
  maxInterval : ∀ p ∈ r.retry, ∀ d ∈ durationOf digit p.maxInterval, d.Unrounded
  period : ∀ p ∈ r.unique, ∀ d ∈ periodOf digit p, d.Unrounded

/-! ## Policies -/

variable {runtime : ProjectionRuntime}

theorem eq_nil_of_not_truthy {value : Json} (h : Field.isStringArray (some value) = true)
    (hfalsy : value.truthy = false) : value = .array [] := by
  cases value with
  | array xs => simpa [Json.truthy] using hfalsy
  | null | bool _ | int _ | float _ | str _ | object _ => cases h

theorem compared_of_truthy {v v' : Json} (hv : Field.isStringArray (some v) = true)
    (hv' : Field.isStringArray (some v') = true)
    (h : (if v.truthy then some v else none).map compared =
      (if v'.truthy then some v' else none).map compared) : v.compared = v'.compared := by
  cases htruthy : v.truthy with
  | true =>
    cases htruthy' : v'.truthy with
    | true =>
      rw [htruthy, htruthy'] at h
      exact Option.some.inj h
    | false =>
      rw [htruthy, htruthy'] at h
      cases h
  | false =>
    cases htruthy' : v'.truthy with
    | true =>
      rw [htruthy, htruthy'] at h
      cases h
    | false => rw [eq_nil_of_not_truthy hv htruthy, eq_nil_of_not_truthy hv' htruthy']

theorem retry_agree {p p' : RetryPolicy} (htyped : p.Typed) (htyped' : p'.Typed)
    (hinitial : ∀ d ∈ durationOf runtime.digit p.initialInterval, d.Unrounded)
    (hinitial' : ∀ d ∈ durationOf runtime.digit p'.initialInterval, d.Unrounded)
    (hmax : ∀ d ∈ durationOf runtime.digit p.maxInterval, d.Unrounded)
    (hmax' : ∀ d ∈ durationOf runtime.digit p'.maxInterval, d.Unrounded)
    {fields fields' : Fields} (hfields : RetryFields runtime.digit p fields)
    (hfields' : RetryFields runtime.digit p' fields')
    (h : (object fields).compared = (object fields').compared) :
    RetryAgree runtime.digit p p' := by
  rw [compared_object_inj] at h
  have hattempts := h "max_attempts"
  rw [hfields.maxAttempts, hfields'.maxAttempts] at hattempts
  have hfirst := h "initial_interval"
  rw [hfields.initialInterval, hfields'.initialInterval] at hfirst
  have hlongest := h "max_interval"
  rw [hfields.maxInterval, hfields'.maxInterval] at hlongest
  have hcoefficient := h "backoff_coefficient"
  rw [hfields.backoffCoefficient, hfields'.backoffCoefficient] at hcoefficient
  have hjitter := h "jitter"
  rw [hfields.jitter, hfields'.jitter] at hjitter
  have herrors := h "non_retryable_errors"
  rw [hfields.nonRetryableErrors, hfields'.nonRetryableErrors] at herrors
  exact {
    maxAttempts := Option.some.inj hattempts
    initialInterval := map_of_compared
      (fun d hd d' hd' => durationText_inj (hinitial d hd) (hinitial' d' hd')) hfirst
    backoffCoefficient := Option.some.inj hcoefficient
    maxInterval := map_of_compared
      (fun d hd d' hd' => durationText_inj (hmax d hd) (hmax' d' hd')) hlongest
    jitter := Option.some.inj hjitter
    nonRetryableErrors :=
      compared_of_truthy htyped.nonRetryableErrors htyped'.nonRetryableErrors herrors }

theorem mem_keys_of_lookup {α : Type} {entries : List (String × α)} {key : String}
    (h : (entries.lookup key).isSome) : key ∈ entries.map Prod.fst := by
  obtain ⟨entry, hentry, hkey⟩ := List.lookup_isSome_iff.mp h
  exact eq_of_beq hkey ▸ List.mem_map_of_mem hentry

theorem upper_inj : ∀ a ∈ JobState.values.map Prod.fst, ∀ b ∈ JobState.values.map Prod.fst,
    "JOB_STATE_" ++ Text.upper a = "JOB_STATE_" ++ Text.upper b → a = b := by
  decide +kernel

theorem conflict_inj : ∀ a ∈ encodedConflictActions.map Prod.fst,
    ∀ b ∈ encodedConflictActions.map Prod.fst,
      encodedConflictActions.lookup a = encodedConflictActions.lookup b → a = b := by
  decide +kernel

theorem states_inj {states states' : List String}
    (h : ∀ state ∈ states, (JobState.ofValue state).isSome)
    (h' : ∀ state ∈ states', (JobState.ofValue state).isSome)
    (heq : (strings (states.map fun state => "JOB_STATE_" ++ Text.upper state)).compared =
      (strings (states'.map fun state => "JOB_STATE_" ++ Text.upper state)).compared) :
    states = states' :=
  Text.eq_of_map_eq upper_inj (fun state hstate => mem_keys_of_lookup (h state hstate))
    (fun state hstate => mem_keys_of_lookup (h' state hstate)) (strings_inj heq)

theorem unique_agree {p p' : UniquePolicy}
    (hstates : ∀ state ∈ p.states, (JobState.ofValue state).isSome)
    (hstates' : ∀ state ∈ p'.states, (JobState.ofValue state).isSome)
    (hperiod : ∀ d ∈ periodOf runtime.digit p, d.Unrounded)
    (hperiod' : ∀ d ∈ periodOf runtime.digit p', d.Unrounded)
    {fields fields' : Fields} (hfields : UniqueFields runtime p fields)
    (hfields' : UniqueFields runtime p' fields')
    (h : (object fields).compared = (object fields').compared) :
    UniqueAgree runtime.digit p p' := by
  rw [compared_object_inj] at h
  have hkeys := h "key"
  rw [hfields.key, hfields'.key] at hkeys
  have hargsKeys := h "args_keys"
  rw [hfields.argsKeys, hfields'.argsKeys] at hargsKeys
  have hmetaKeys := h "meta_keys"
  rw [hfields.metaKeys, hfields'.metaKeys] at hmetaKeys
  have hwindow := h "period"
  rw [hfields.period, hfields'.period] at hwindow
  have hstateNames := h "states"
  rw [hfields.states, hfields'.states] at hstateNames
  have hconflict := h "on_conflict"
  rw [hfields.onConflict, hfields'.onConflict] at hconflict
  exact {
    keys := eq_of_omitted strings_inj hkeys
    argsKeys := eq_of_compared (fun _ _ _ _ => strings_inj) hargsKeys
    metaKeys := eq_of_compared (fun _ _ _ _ => strings_inj) hmetaKeys
    period := map_of_compared
      (fun d hd d' hd' => durationText_inj (hperiod d hd) (hperiod' d' hd')) hwindow
    states := eq_of_omitted
      (f := fun states => strings (states.map fun state => "JOB_STATE_" ++ Text.upper state))
      (states_inj hstates hstates') hstateNames
    onConflict := conflict_inj _ (mem_keys_of_lookup hfields.onConflict_known) _
      (mem_keys_of_lookup hfields'.onConflict_known)
      (eq_of_compared (fun _ _ _ _ => compared_str_inj.mp) hconflict) }

/-! ## Requests -/

/-- Options that are empty are left out of the message. -/
theorem message_agree {t t' : String} {args args' : List Json} {options options' : Fields}
    (h : (object ([("type", .str t), ("args", .array args)]
        ++ if options = [] then [] else [("options", .object options)])).compared =
      (object ([("type", .str t'), ("args", .array args')]
        ++ if options' = [] then [] else [("options", .object options')])).compared) :
    t = t' ∧ args.map compared = args'.map compared ∧
      ∀ key, (options.lookup key).map compared = (options'.lookup key).map compared := by
  rw [compared_object_inj] at h
  refine ⟨compared_str_inj.mp (Option.some.inj (h "type")),
    compared_array_inj.mp (Option.some.inj (h "args")), ?_⟩
  have hentry := h "options"
  by_cases hempty : options = []
  · by_cases hempty' : options' = []
    · rw [hempty, hempty']
      exact fun _ => rfl
    · rw [if_pos hempty, if_neg hempty'] at hentry
      cases hentry
  · by_cases hempty' : options' = []
    · rw [if_neg hempty, if_pos hempty'] at hentry
      cases hentry
    · rw [if_neg hempty, if_neg hempty'] at hentry
      exact compared_object_inj.mp (Option.some.inj hentry)

theorem meta_agree {x y : Option Fields}
    (h : ((x.filter (· ≠ [])).map object).map compared =
      ((y.filter (· ≠ [])).map object).map compared) :
    (object (x.getD [])).compared = (object (y.getD [])).compared := by
  have hentries := map_of_compared (g := fun fields => (object fields).compared)
    (fun _ _ _ _ => id) h
  have hgetD : ∀ z : Option Fields, (object (z.getD [])).compared =
      ((z.filter (· ≠ [])).map fun fields => (object fields).compared).getD
        (object []).compared := by
    intro z
    cases z with
    | none => rfl
    | some fields =>
      by_cases hempty : fields = []
      · simp [Option.filter, hempty]
      · simp [Option.filter, hempty]
  rw [hgetD x, hgetD y, hentries]

theorem lifetime_lt {now : ℤ} {r : JobRequest} (h : Sendable runtime.clock now r) :
    ∀ n ∈ remainingLifetime runtime.clock now r, n < exactMicroseconds := by
  intro n hn
  obtain ⟨expiry, hexpiry, rfl⟩ := Option.mem_map.mp hn
  have hnear := abs_le.mp (h.expiry expiry hexpiry)
  have hfar : farthestExpiry < exactMicroseconds := by decide
  omega

theorem queue_ne_empty {r : JobRequest} (h : Client.validateRequest r = .ok ()) :
    r.queue ≠ "" := by
  unfold Client.validateRequest at h
  dsimp only at h
  split_ifs at h with _ _ _ hqueue
  exact fun hempty => hqueue (.inl hempty)

theorem type_ne_empty {r : JobRequest} (h : Client.validateRequest r = .ok ()) :
    r.type ≠ "" := by
  unfold Client.validateRequest at h
  dsimp only at h
  split_ifs at h with htype
  exact fun hempty => htype (.inl hempty)

theorem options_agree {now : ℤ} {r r' : JobRequest} (hr : Sendable runtime.clock now r)
    (hr' : Sendable runtime.clock now r') (htimes : UnroundedTimes runtime.digit r)
    (htimes' : UnroundedTimes runtime.digit r') {options options' : Fields}
    (ho : RequestFields runtime now r options) (ho' : RequestFields runtime now r' options')
    (htype : r.type = r'.type) (hargs : r.args.map compared = r'.args.map compared)
    (h : ∀ key, (options.lookup key).map compared = (options'.lookup key).map compared) :
    RequestsAgree runtime now r r' := by
  have hqueue := h "queue"
  rw [ho.queue, ho'.queue] at hqueue
  have hpriority := h "priority"
  rw [ho.priority, ho'.priority] at hpriority
  have htimeout := h "timeout"
  rw [ho.timeout, ho'.timeout] at htimeout
  have hdelay := h "delay_until"
  rw [ho.delayUntil, ho'.delayUntil] at hdelay
  have htags := h "tags"
  rw [ho.tags, ho'.tags] at htags
  have hmeta := h "meta"
  rw [ho.meta, ho'.meta] at hmeta
  have httl := h "ttl"
  rw [ho.ttl, ho'.ttl] at httl
  exact {
    type := htype
    args := hargs
    queue := eq_of_omitted compared_str_inj.mp hqueue
    priority := eq_of_omitted compared_int_inj.mp hpriority
    timeoutMs := eq_of_compared (fun t ht t' ht' =>
      timeoutText_inj (ho.timeout_nonneg t ht) (ho'.timeout_nonneg t' ht')
        (htimes.timeout t ht) (htimes'.timeout t' ht')) htimeout
    delayUntil := getD_eq_of_filter (eq_of_compared (fun _ _ _ _ => compared_str_inj.mp) hdelay)
    tags := getD_eq_of_filter (eq_of_compared (fun _ _ _ _ => strings_inj) htags)
    «meta» := meta_agree hmeta
    retry := rel_of_compared ho.retry ho'.retry (h "retry") fun p hp p' hp' v v' hv hv' hvv' => by
      obtain ⟨fields, rfl, hfields⟩ := hv
      obtain ⟨fields', rfl, hfields'⟩ := hv'
      exact retry_agree (hr.retry p hp) (hr'.retry p' hp') (htimes.initialInterval p hp)
        (htimes'.initialInterval p' hp') (htimes.maxInterval p hp) (htimes'.maxInterval p' hp')
        hfields hfields' hvv'
    unique := rel_of_compared ho.unique ho'.unique (h "unique")
      fun p hp p' hp' v v' hv hv' hvv' => by
        obtain ⟨fields, rfl, hfields⟩ := hv
        obtain ⟨fields', rfl, hfields'⟩ := hv'
        exact unique_agree (hr.states p hp) (hr'.states p' hp') (htimes.period p hp)
          (htimes'.period p' hp') hfields hfields' hvv'
    lifetime := eq_of_compared (fun n hn n' hn' =>
      lifetimeText_inj (lifetime_lt hr n hn) (lifetime_lt hr' n' hn')) httl }

/-- Requests whose messages are equal agree on every field, unless decimal arithmetic had to round
one of their times; and a request with a schema has no message. -/
theorem enqueue_message_faithful (runtime : ProjectionRuntime) (now : ℤ) :
    (∀ r r', Sendable runtime.clock now r → Sendable runtime.clock now r' →
      UnroundedTimes runtime.digit r → UnroundedTimes runtime.digit r' →
      ∀ message message', encodeEnqueue runtime now r.toDict = .ok message →
        encodeEnqueue runtime now r'.toDict = .ok message' →
        (object message).compared = (object message').compared →
          RequestsAgree runtime now r r') ∧
    ∀ r schema, Sendable runtime.clock now r → r.schema = some schema → schema ≠ "" →
      encodeEnqueue runtime now r.toDict = .error (.capability
        ("The canonical OJS v1 gRPC EnqueueRequest has no schema field. " ++
          "Use HTTP transport for schema-validated enqueue operations.")) := by
  refine ⟨fun r r' hr hr' htimes htimes' message message' hm hm' heq => ?_,
    fun r schema hr hschema hne =>
      encodeEnqueue_schema now (type_ne_empty hr.accepted) hschema hne⟩
  obtain ⟨options, hoptions, rfl⟩ := encodeEnqueue_ok (queue_ne_empty hr.accepted) hr.retry hm
  obtain ⟨options', hoptions', rfl⟩ :=
    encodeEnqueue_ok (queue_ne_empty hr'.accepted) hr'.retry hm'
  obtain ⟨htype, hargs, hentries⟩ := message_agree heq
  exact options_agree hr hr' htimes htimes' hoptions hoptions' htype hargs hentries

/-! ## A request written twice, and two timeouts that merge -/

/-- The digits of ASCII, and two texts of one instant. -/
def sampleProjection : ProjectionRuntime where
  digit c := if c.isDigit then some (c.toNat - 48) else none
  clock := {
    instant := fun text =>
      if text = "2030-01-01T00:00:00+00:00" ∨ text = "2030-01-01T01:00:00+01:00" then
        some (1893456000 * 10 ^ 6)
      else none
    farSeconds := fun microseconds => ⟨microseconds, -6⟩ }
  text _ := "None"

/-- The first instant of 2026. -/
def sampleNow : ℤ := 1767225600 * 10 ^ 6

def minuteRetry : RetryPolicy where
  maxAttempts := .int 5
  initialInterval := .str "PT60S"
  backoffCoefficient := .int 2
  maxInterval := .str "PT1H"
  jitter := .bool true
  nonRetryableErrors := .array []

def reportRequest : JobRequest where
  type := "report.build"
  args := [.bool true]
  timeoutMs := some 1500
  expiresAt := some "2030-01-01T00:00:00Z"
  retry := some minuteRetry

/-- The same request in other words. -/
def reportRequestAgain : JobRequest where
  type := "report.build"
  args := [.int 1]
  timeoutMs := some 1500
  expiresAt := some "2030-01-01T01:00:00+01:00"
  retry := some { minuteRetry with
    initialInterval := .str "PT1M", backoffCoefficient := .float (.finite 2) }
  tags := some []

def timeoutRequest (milliseconds : ℤ) : JobRequest where
  type := "report.build"
  timeoutMs := some milliseconds

theorem minuteRetry_typed (interval : String) (coefficient : Json)
    (h : Field.isFloat (some coefficient) = true) :
    { minuteRetry with
      initialInterval := .str interval, backoffCoefficient := coefficient : RetryPolicy }.Typed :=
  ⟨rfl, rfl, h, rfl, rfl, rfl⟩

theorem reportRequest_sendable :
    Sendable sampleProjection.clock sampleNow reportRequest where
  accepted := by decide +kernel
  retry := by
    rintro p ⟨rfl⟩
    exact minuteRetry_typed "PT60S" (.int 2) rfl
  states := by rintro p ⟨⟩
  expiry := by
    rintro expiry ⟨rfl⟩
    decide

theorem reportRequestAgain_sendable :
    Sendable sampleProjection.clock sampleNow reportRequestAgain where
  accepted := by decide +kernel
  retry := by
    rintro p ⟨rfl⟩
    exact minuteRetry_typed "PT1M" (.float (.finite 2)) rfl
  states := by rintro p ⟨⟩
  expiry := by
    rintro expiry ⟨rfl⟩
    decide

theorem shortTimeout_of_lt {milliseconds : ℤ} (h : milliseconds.toNat < 10 ^ Decimal.precision) :
    ShortTimeout milliseconds :=
  Decimal.short_of_lt h (show Decimal.smallestExponent ≤ -3 by decide)

theorem reportRequest_unrounded : UnroundedTimes sampleProjection.digit reportRequest where
  timeout := by
    rintro milliseconds ⟨rfl⟩
    exact shortTimeout_of_lt (by decide)
  initialInterval := by
    rintro p ⟨rfl⟩ d ⟨rfl⟩
    exact IsoDuration.unrounded_of_lt 0 rfl (by decide) (by decide)
  maxInterval := by
    rintro p ⟨rfl⟩ d ⟨rfl⟩
    exact IsoDuration.unrounded_of_lt 0 rfl (by decide) (by decide)
  period := by rintro p ⟨⟩

theorem reportRequestAgain_unrounded :
    UnroundedTimes sampleProjection.digit reportRequestAgain where
  timeout := by
    rintro milliseconds ⟨rfl⟩
    exact shortTimeout_of_lt (by decide)
  initialInterval := by
    rintro p ⟨rfl⟩ d ⟨rfl⟩
    exact IsoDuration.unrounded_of_lt 0 rfl (by decide) (by decide)
  maxInterval := by
    rintro p ⟨rfl⟩ d ⟨rfl⟩
    exact IsoDuration.unrounded_of_lt 0 rfl (by decide) (by decide)
  period := by rintro p ⟨⟩

theorem reportRequest_kept :
    RequestsAgree sampleProjection sampleNow reportRequest reportRequestAgain :=
  (enqueue_message_faithful sampleProjection sampleNow).1 _ _ reportRequest_sendable
    reportRequestAgain_sendable reportRequest_unrounded reportRequestAgain_unrounded _ _ rfl rfl rfl

theorem timeoutRequest_sendable (milliseconds : ℤ) :
    Sendable sampleProjection.clock sampleNow (timeoutRequest milliseconds) where
  accepted := by
    have haccepted : Client.validateRequest { type := "report.build" } = .ok () := by
      decide +kernel
    exact haccepted
  retry := by rintro p ⟨⟩
  states := by rintro p ⟨⟩
  expiry := by rintro expiry ⟨⟩

/-- A millisecond in `10 ^ 28` is rounded away. -/
theorem long_timeouts_merge :
    ∃ r r' message, Sendable sampleProjection.clock sampleNow r ∧
      Sendable sampleProjection.clock sampleNow r' ∧
      encodeEnqueue sampleProjection sampleNow r.toDict = .ok message ∧
      encodeEnqueue sampleProjection sampleNow r'.toDict = .ok message ∧
      ¬ RequestsAgree sampleProjection sampleNow r r' := by
  refine ⟨timeoutRequest (10 ^ 28), timeoutRequest (10 ^ 28 + 1), _,
    timeoutRequest_sendable _, timeoutRequest_sendable _, rfl, ?_, ?_⟩
  · rfl
  · intro h
    exact absurd h.timeoutMs (by decide)

end OpenJobSpec.Grpc
