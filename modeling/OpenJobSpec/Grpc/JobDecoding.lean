import OpenJobSpec.Grpc.ProjectedJob

/-! # The two gRPC decodings of a job

Both project one printed message, with and without its zero values. The defaults
of the projected job decide which zero values make a difference: the number of
attempts, and three fields of a retry policy.
-/
namespace OpenJobSpec.Grpc
open ExceptRules

variable {V S T D : Type} {always : Bool} {m : PrintedJob} {args : List Json} {source : Fields}

/-! ## The policies -/

/-- The entries of a projected retry policy. -/
def retryEntries (always : Bool) (r : RetryPolicyMessage String)
    (initialInterval maxInterval : Option String) : Fields :=
  optionEntry "max_attempts"
      (if always = false ∧ r.maxAttempts = 0 then none else some (.int r.maxAttempts))
    ++ optionEntry "backoff_coefficient"
      (if always = false ∧ r.backoffCoefficient = .value (.finite 0) then none
        else some (PrintedField.doubleJson r.backoffCoefficient))
    ++ optionEntry "jitter"
      (if always = false ∧ r.jitter = false then none else some (.bool r.jitter))
    ++ optionEntry "initial_interval" (initialInterval.map .str)
    ++ optionEntry "max_interval" (maxInterval.map .str)
    ++ optionEntry "non_retryable_errors"
      (if r.nonRetryableErrors = [] then none else some (.array (r.nonRetryableErrors.map .str)))

theorem RetryPolicyMessage.lookup_toDict (always : Bool) (r : RetryPolicyMessage String)
    (field : PrintedField) (hmem : field ∈ r.printedFields) :
    (r.toDict always).lookup field.name = field.shown always :=
  lookup_printFields always r.names_nodup hmem

theorem nonEmptyList_eq {key : String} {items : List Json}
    (h : source.lookup key = if always = false ∧ items = [] then none else some (.array items)) :
    nonEmptyList source key =
      optionEntry key (if items = [] then none else some (.array items)) := by
  unfold nonEmptyList
  rw [h]
  cases items with
  | nil => cases always <;> rfl
  | cons item rest => simp [optionEntry]

theorem projectRetry_eq {times : DurationText} (r : RetryPolicyMessage String) :
    projectRetry times (r.toDict always) = (do
      let initialInterval ← printOption times.toIso r.initialInterval
      let maxInterval ← printOption times.toIso r.maxInterval
      return retryEntries always r initialInterval maxInterval) := by
  have hmax := r.lookup_toDict always (.integer "max_attempts" r.maxAttempts)
    (by simp [RetryPolicyMessage.printedFields])
  have hcoefficient := r.lookup_toDict always (.double "backoff_coefficient" r.backoffCoefficient)
    (by simp [RetryPolicyMessage.printedFields])
  have hjitter := r.lookup_toDict always (.boolean "jitter" r.jitter)
    (by simp [RetryPolicyMessage.printedFields])
  have hinitial := r.lookup_toDict always (.message "initial_interval" (r.initialInterval.map .str))
    (by simp [RetryPolicyMessage.printedFields])
  have hinterval := r.lookup_toDict always (.message "max_interval" (r.maxInterval.map .str))
    (by simp [RetryPolicyMessage.printedFields])
  have herrors := r.lookup_toDict always
    (.repeated "non_retryable_errors" (r.nonRetryableErrors.map .str))
    (by simp [RetryPolicyMessage.printedFields])
  rw [PrintedField.name_integer, PrintedField.shown_integer] at hmax
  rw [PrintedField.name_double, PrintedField.shown_double] at hcoefficient
  rw [PrintedField.name_boolean, PrintedField.shown_boolean] at hjitter
  rw [PrintedField.name_message, PrintedField.shown_message] at hinitial hinterval
  rw [PrintedField.name_repeated, PrintedField.shown_repeated] at herrors
  unfold projectRetry
  rw [isoDuration_eq hinitial, isoDuration_eq hinterval, nonEmptyList_eq herrors, copied_eq,
    copied_eq, copied_eq, hmax, hcoefficient, hjitter]
  simp only [bind_assoc, ok_bind, List.map_eq_nil_iff]
  rfl

theorem getD_unless (c : Prop) [Decidable c] (value default : Json) :
    (if c then none else some value).getD default = if c then default else value := by
  split <;> rfl

theorem fromDict_retryEntries (r : RetryPolicyMessage String)
    (initialInterval maxInterval : Option String) :
    RetryPolicy.fromDict (retryEntries always r initialInterval maxInterval) = {
      maxAttempts := if always = false ∧ r.maxAttempts = 0 then .int 3 else .int r.maxAttempts
      initialInterval := (initialInterval.map .str).getD (.str "PT1S")
      backoffCoefficient := if always = false ∧ r.backoffCoefficient = .value (.finite 0)
        then .float (.finite 2) else PrintedField.doubleJson r.backoffCoefficient
      maxInterval := (maxInterval.map .str).getD (.str "PT5M")
      jitter := if always = false ∧ r.jitter = false then .bool true else .bool r.jitter
      nonRetryableErrors := if r.nonRetryableErrors = [] then .array []
        else .array (r.nonRetryableErrors.map .str) } := by
  simp only [RetryPolicy.fromDict, retryEntries, Fields.get, List.lookup_append,
    lookup_optionEntry]
  simp [getD_unless]

/-- A retry policy with no zero value that the decoded policy has another default for. -/
def RetryPolicyMessage.NoLostZero (r : RetryPolicyMessage D) : Prop :=
  r.maxAttempts ≠ 0 ∧ r.backoffCoefficient ≠ .value (.finite 0) ∧ r.jitter = true

/-- The decoded retry policy; an empty dictionary is no policy. -/
def decodedRetry (always : Bool) (r : RetryPolicyMessage String)
    (initialInterval maxInterval : Option String) : Option RetryPolicy :=
  (Job.policyData (some (retryEntries always r initialInterval maxInterval))).map
    RetryPolicy.fromDict

theorem decodedRetry_true (r : RetryPolicyMessage String)
    (initialInterval maxInterval : Option String) :
    decodedRetry true r initialInterval maxInterval =
      some (RetryPolicy.fromDict (retryEntries true r initialInterval maxInterval)) := by
  simp [decodedRetry, Job.policyData, retryEntries, optionEntry, Option.filter]

theorem retryEntries_of_noLostZero {r : RetryPolicyMessage String} (h : r.NoLostZero)
    (initialInterval maxInterval : Option String) :
    retryEntries false r initialInterval maxInterval =
      retryEntries true r initialInterval maxInterval := by
  obtain ⟨hmax, hcoefficient, hjitter⟩ := h
  simp [retryEntries, hmax, hcoefficient, hjitter]

/-- The zero values matter to the retry policy exactly when one of them is lost. -/
theorem decodedRetry_eq_iff (r : RetryPolicyMessage String)
    (initialInterval maxInterval : Option String) :
    decodedRetry false r initialInterval maxInterval =
        decodedRetry true r initialInterval maxInterval ↔
      r.NoLostZero := by
  constructor
  · intro heq
    rw [decodedRetry_true] at heq
    unfold decodedRetry at heq
    obtain ⟨fields, hfields, hdecoded⟩ := Option.map_eq_some_iff.mp heq
    have hsame : fields = retryEntries false r initialInterval maxInterval :=
      (Option.some.inj (Option.filter_eq_some_iff.mp hfields).1).symm
    rw [hsame, fromDict_retryEntries, fromDict_retryEntries] at hdecoded
    simp only [RetryPolicy.mk.injEq, true_and, Bool.true_eq_false, false_and, if_false] at hdecoded
    obtain ⟨hmax, hcoefficient, hjitter⟩ := hdecoded
    refine ⟨fun hzero => ?_, fun hzero => ?_, ?_⟩
    · simp [hzero] at hmax
    · simp [hzero, PrintedField.doubleJson] at hcoefficient
    · cases hj : r.jitter with
      | true => rfl
      | false => simp [hj] at hjitter
  · intro h
    unfold decodedRetry
    rw [retryEntries_of_noLostZero h]

/-! ## Both decodings of one printed job -/

theorem UniquePolicyMessage.names_nodup (u : UniquePolicyMessage String) :
    (u.printedFields.map PrintedField.name).Nodup := by
  simp only [printedFields, List.map_cons, List.map_nil, PrintedField.name_repeated,
    PrintedField.name_message, PrintedField.name_enumeration]
  decide

theorem UniquePolicyMessage.lookup_toDict (always : Bool) (u : UniquePolicyMessage String)
    (field : PrintedField) (hmem : field ∈ u.printedFields) :
    (u.toDict always).lookup field.name = field.shown always :=
  lookup_printFields always u.names_nodup hmem

/-- The projection of a uniqueness policy takes the zero values for granted. -/
theorem projectUnique_eq (times : DurationText) (u : UniquePolicyMessage String) :
    projectUnique times (u.toDict always) = (do
      let period ← printOption times.toIso u.period
      return [("key", .array (u.key.map .str)),
        ("states", .array (u.states.map fun state =>
          .str (jobState (PrintedField.enumJson jobStateNames state)))),
        ("on_conflict",
          .str (conflictAction (PrintedField.enumJson conflictActionNames u.onConflict)))]
        ++ optionEntry "period" (period.map .str)
        ++ optionEntry "args_keys"
          (if u.argsKeys = [] then none else some (.array (u.argsKeys.map .str)))
        ++ optionEntry "meta_keys"
          (if u.metaKeys = [] then none else some (.array (u.metaKeys.map .str)))) := by
  have hlist : ∀ name items, PrintedField.repeated name items ∈ u.printedFields →
      (u.toDict always).lookup name =
        if always = false ∧ items = [] then none else some (.array items) := by
    intro name items hmem
    have h := u.lookup_toDict always _ hmem
    rw [PrintedField.name_repeated, PrintedField.shown_repeated] at h
    exact h
  have hkey : Fields.get (u.toDict always) "key" (.array []) = .array (u.key.map .str) := by
    rw [Fields.get, hlist "key" (u.key.map .str) (by simp [UniquePolicyMessage.printedFields]),
      getD_unless]
    split <;> simp [*]
  have hstates : Fields.get (u.toDict always) "states" (.array []) =
      .array (u.states.map (PrintedField.enumJson jobStateNames)) := by
    rw [Fields.get, hlist "states" (u.states.map (PrintedField.enumJson jobStateNames))
      (by simp [UniquePolicyMessage.printedFields]), getD_unless]
    split <;> simp [*]
  have hconflict : conflictAction (Fields.get (u.toDict always) "on_conflict" (.str "")) =
      conflictAction (PrintedField.enumJson conflictActionNames u.onConflict) := by
    have h := u.lookup_toDict always (.enumeration conflictActionNames "on_conflict" u.onConflict)
      (by simp [UniquePolicyMessage.printedFields])
    rw [PrintedField.name_enumeration, PrintedField.shown_enumeration] at h
    rw [Fields.get, h, getD_unless]
    split
    · rename_i hzero
      rw [hzero.2]
      decide
    · rfl
  have hperiod : (u.toDict always).lookup "period" = u.period.map .str := by
    have h := u.lookup_toDict always (.message "period" (u.period.map .str))
      (by simp [UniquePolicyMessage.printedFields])
    rw [PrintedField.name_message, PrintedField.shown_message] at h
    exact h
  have hargs := nonEmptyList_eq (hlist "args_keys" (u.argsKeys.map .str)
    (by simp [UniquePolicyMessage.printedFields]))
  have hmeta := nonEmptyList_eq (hlist "meta_keys" (u.metaKeys.map .str)
    (by simp [UniquePolicyMessage.printedFields]))
  unfold projectUnique
  rw [hkey, hstates, hconflict, isoDuration_eq hperiod, hargs, hmeta]
  simp only [Json.iterate, ok_bind, bind_assoc, List.map_map, List.map_eq_nil_iff]
  rfl

/-- Setting the arguments leaves the rest of a job as it was. -/
theorem Shows.setArgs (h : Shows always m args source) (decoded : List Json) :
    Shows always m decoded (Fields.set source "args" (.array decoded)) := by
  have hlookup : ∀ key, key ≠ "args" →
      (Fields.set source "args" (.array decoded)).lookup key = source.lookup key := by
    intro key hkey
    rw [Fields.lookup_set, if_neg hkey]
  have hget : ∀ key default, key ≠ "args" →
      Fields.get (Fields.set source "args" (.array decoded)) key default =
        Fields.get source key default := by
    intro key default hkey
    rw [Fields.get, hlookup key hkey, Fields.get]
  constructor
  case args => exact Fields.get_of_lookup (by rw [Fields.lookup_set, if_pos rfl]) _
  case id => exact (hget _ _ (by decide)).trans h.id
  case type => exact (hget _ _ (by decide)).trans h.type
  case queue => exact (congrArg (Json.orElse · _) (hget _ _ (by decide))).trans h.queue
  case «meta» => exact (hget _ _ (by decide)).trans h.meta
  case state => exact (congrArg jobState (hget _ _ (by decide))).trans h.state
  case priority => exact (hget _ _ (by decide)).trans h.priority
  case attempt => exact (hget _ _ (by decide)).trans h.attempt
  case tags => exact (hget _ _ (by decide)).trans h.tags
  case errors => exact (hget _ _ (by decide)).trans h.errors
  case result => exact (hget _ _ (by decide)).trans h.result
  case maxAttempts => exact (hlookup _ (by decide)).trans h.maxAttempts
  case timeout => exact (hlookup _ (by decide)).trans h.timeout
  case retry => exact (hlookup _ (by decide)).trans h.retry
  case unique => exact (hlookup _ (by decide)).trans h.unique
  case createdAt => exact (hget _ _ (by decide)).trans h.createdAt
  case enqueuedAt => exact (hget _ _ (by decide)).trans h.enqueuedAt
  case startedAt => exact (hget _ _ (by decide)).trans h.startedAt
  case completedAt => exact (hget _ _ (by decide)).trans h.completedAt
  case scheduledAt => exact (hget _ _ (by decide)).trans h.scheduledAt
  case expiresAt => exact (hget _ _ (by decide)).trans h.expiresAt

/-- The job that a dictionary which shows a printed job decodes to. -/
def decodeShown (reader : TextReader) (times : DurationText) (always : Bool) (m : PrintedJob)
    (args : List Json) : Except Exn Job := do
  let timeoutMs ← printOption times.toMilliseconds m.timeout
  let retry ← printOption (projectRetry times) (m.retryPolicy.map fun r => r.toDict always)
  let unique ← printOption (projectUnique times) (m.uniquePolicy.map fun u => u.toDict always)
  decodeProjected reader always m args timeoutMs retry unique

theorem decode_shows {times : DurationText} (reader : TextReader) (h : Shows always m args source) :
    (projectJob times source >>= fun projected => Job.fromDict reader (.object projected)) =
      decodeShown reader times always m args := by
  rw [projectJob_eq h]
  unfold decodeShown
  simp only [bind_assoc, pure_bind, fromDict_projected]

theorem directJob_eq (reader : TextReader) (times : DurationText) (w : WellKnownJson V S T D)
    (job : JobMessage V S T D) :
    directJob reader times w job =
      job.print w >>= fun printed => decodeShown reader times true printed printed.args := by
  unfold directJob
  refine congrArg _ (funext fun printed => ?_)
  exact decode_shows reader (Shows.toDict true printed)

theorem rpcJob_eq (reader : TextReader) (times : DurationText) (w : WellKnownJson V S T D)
    (job : JobMessage V S T D) :
    rpcJob reader times w job = (do
      let printed ← job.print w
      let args ← printed.args.mapM fromProtoValue
      decodeShown reader times false printed args) := by
  unfold rpcJob
  rw [responseDict_eq, bind_assoc]
  refine congrArg _ (funext fun printed => ?_)
  have hshows := Shows.toDict false printed
  rw [ok_bind]
  unfold fromProtoJob
  rw [hshows.args]
  simp only [Json.iterate, ok_bind, bind_assoc]
  refine congrArg _ (funext fun args => ?_)
  exact decode_shows reader (hshows.setArgs args)

/-! ## Where they agree -/

/-- The second entry has the first one's members, and zero values after them. -/
def SameEntry (e₁ e₂ : Fields) : Prop :=
  ∃ zeros, e₂ = e₁ ++ zeros ∧
    ∀ entry ∈ zeros, entry.2 = .str "" ∨ entry.2 = .bool false ∨ entry.2 = .int 0

/-- Two jobs are the same, up to their arguments and the zero values in their errors. -/
structure Agree (j₁ j₂ : Job) : Prop where
  fields : { j₁ with args := [], errors := [] } = { j₂ with args := [], errors := [] }
  errors : List.Forall₂ SameEntry j₁.errors j₂.errors

/-- No field holds a zero value for which the decoded job has another default. -/
def JobMessage.NoLostZero (job : JobMessage V S T D) : Prop :=
  job.maxAttempts ≠ 0 ∧ ∀ r, job.retryPolicy = some r → r.NoLostZero

theorem sameEntry_toDict (e : JobErrorMessage Fields String) :
    SameEntry (e.toDict false) (e.toDict true) := by
  refine ⟨e.printedFields.filterMap PrintedField.zero?, ?_, ?_⟩
  · simp [JobErrorMessage.toDict, printFields]
  · intro entry hentry
    obtain ⟨field, hfield, hzero⟩ := List.mem_filterMap.mp hentry
    simp only [JobErrorMessage.printedFields, List.mem_cons, List.not_mem_nil, or_false] at hfield
    have htext : ∀ name value, (PrintedField.text name value).zero? = some entry →
        entry.2 = .str "" := by
      intro name value h
      unfold PrintedField.text at h
      split at h
      next hvalue =>
        cases h
        rw [hvalue]
      next => cases h
    have hmessage : ∀ name value, (PrintedField.message name value).zero? ≠ some entry := by
      intro name value h
      cases value <;> cases h
    rcases hfield with rfl | rfl | rfl | rfl | rfl | rfl | rfl
    · exact Or.inl (htext _ _ hzero)
    · exact Or.inl (htext _ _ hzero)
    · unfold PrintedField.boolean at hzero
      split at hzero
      next hvalue =>
        cases hzero
        exact Or.inr (Or.inl (congrArg Json.bool hvalue))
      next => cases hzero
    · unfold PrintedField.integer at hzero
      split at hzero
      next hvalue =>
        cases hzero
        exact Or.inr (Or.inr (congrArg Json.int hvalue))
      next => cases hzero
    · exact absurd hzero (hmessage _ _)
    · exact Or.inl (htext _ _ hzero)
    · exact absurd hzero (hmessage _ _)

/-- What the two projections of a retry policy come to, with the durations they share. -/
def RetryRelated (retryPolicy : Option (RetryPolicyMessage String)) (f₁ f₂ : Option Fields) :
    Prop :=
  match retryPolicy with
  | none => f₁ = none ∧ f₂ = none
  | some r => ∃ initialInterval maxInterval,
    f₁ = some (retryEntries false r initialInterval maxInterval) ∧
      f₂ = some (retryEntries true r initialInterval maxInterval)

theorem retry_related (times : DurationText) (retryPolicy : Option (RetryPolicyMessage String)) :
    Outcome (RetryRelated retryPolicy)
      (printOption (projectRetry times) (retryPolicy.map fun r => r.toDict false))
      (printOption (projectRetry times) (retryPolicy.map fun r => r.toDict true)) := by
  cases retryPolicy with
  | none => exact ⟨rfl, rfl⟩
  | some r =>
    dsimp only [Option.map_some, printOption]
    rw [projectRetry_eq, projectRetry_eq]
    simp only [bind_assoc, pure_bind]
    refine Outcome.same _ fun initialInterval => Outcome.same _ fun maxInterval => ?_
    exact ⟨initialInterval, maxInterval, rfl, rfl⟩

theorem unique_same (times : DurationText) (policy : Option (UniquePolicyMessage String)) :
    printOption (projectUnique times) (policy.map fun u => u.toDict false) =
      printOption (projectUnique times) (policy.map fun u => u.toDict true) := by
  cases policy with
  | none => rfl
  | some u =>
    dsimp only [Option.map_some, printOption]
    rw [projectUnique_eq, projectUnique_eq]

theorem retry_eq_iff {f₁ f₂ : Option Fields} {retryPolicy : Option (RetryPolicyMessage String)}
    (h : RetryRelated retryPolicy f₁ f₂) :
    (Job.policyData f₁).map RetryPolicy.fromDict = (Job.policyData f₂).map RetryPolicy.fromDict ↔
      ∀ r, retryPolicy = some r → r.NoLostZero := by
  cases retryPolicy with
  | none =>
    obtain ⟨rfl, rfl⟩ := h
    simp
  | some r =>
    obtain ⟨initialInterval, maxInterval, rfl, rfl⟩ := h
    refine (decodedRetry_eq_iff r initialInterval maxInterval).trans ⟨?_, fun h => h r rfl⟩
    intro h r' hr'
    cases hr'
    exact h

/-- Both decodings fail alike, and otherwise agree where no zero value is lost. -/
theorem decodeShown_agree (reader : TextReader) (times : DurationText) (m : PrintedJob)
    (args₁ args₂ : List Json) :
    Outcome (fun j₁ j₂ => Agree j₁ j₂ ↔ m.NoLostZero) (decodeShown reader times false m args₁)
      (decodeShown reader times true m args₂) := by
  unfold decodeShown
  refine Outcome.same _ fun timeoutMs => (retry_related times m.retryPolicy).bind ?_
  intro f₁ f₂ hretry
  rw [unique_same]
  refine Outcome.same _ fun unique => ?_
  unfold decodeProjected
  refine Outcome.same _ fun unique => Outcome.same _ fun state => Outcome.same _ fun createdAt => ?_
  refine Outcome.same _ fun enqueuedAt => Outcome.same _ fun startedAt => ?_
  refine Outcome.same _ fun completedAt => Outcome.same _ fun scheduledAt => ?_
  refine Outcome.same _ fun expiresAt => ?_
  have herrors : List.Forall₂ SameEntry (m.errors.map fun e => e.toDict false)
      (m.errors.map fun e => e.toDict true) := by
    rw [List.forall₂_map_left_iff, List.forall₂_map_right_iff]
    exact List.forall₂_same.mpr fun e _ => sameEntry_toDict e
  have hmax : (if m.maxAttempts = 0 then 3 else m.maxAttempts) =
      (if true = false ∧ m.maxAttempts = 0 then 3 else m.maxAttempts) ↔ m.maxAttempts ≠ 0 := by
    by_cases hzero : m.maxAttempts = 0 <;> simp [hzero]
  have hpolicy := retry_eq_iff hretry
  constructor
  · rintro ⟨hfields, _⟩
    simp only [Job.mk.injEq, true_and, and_true] at hfields
    exact ⟨hmax.mp hfields.1, hpolicy.mp hfields.2⟩
  · rintro ⟨hattempts, hkept⟩
    refine ⟨?_, herrors⟩
    simp only [Job.mk.injEq, true_and, and_true]
    exact ⟨hmax.mpr hattempts, hpolicy.mpr hkept⟩

theorem print_retry {w : WellKnownJson V S T D} {r : RetryPolicyMessage D}
    {printed : RetryPolicyMessage String} (h : r.print w = .ok printed) :
    printed.NoLostZero ↔ r.NoLostZero := by
  obtain ⟨initialInterval, _, h⟩ := bind_eq_ok.mp h
  obtain ⟨maxInterval, _, h⟩ := bind_eq_ok.mp h
  cases h
  rfl

/-- Printing keeps the fields that are not of a well-known type. -/
theorem print_noLostZero {w : WellKnownJson V S T D} {job : JobMessage V S T D}
    {printed : PrintedJob} (h : job.print w = .ok printed) :
    printed.NoLostZero ↔ job.NoLostZero := by
  obtain ⟨args, _, h⟩ := bind_eq_ok.mp h
  obtain ⟨«meta», _, h⟩ := bind_eq_ok.mp h
  obtain ⟨retryPolicy, hretry, h⟩ := bind_eq_ok.mp h
  simp only [bind_eq_ok] at h
  obtain ⟨_, _, _, _, _, _, _, _, _, _, _, _, _, _, _, _, _, _, _, _, _, _, h⟩ := h
  cases h
  unfold JobMessage.NoLostZero
  refine and_congr_right fun _ => ?_
  cases hpolicy : job.retryPolicy with
  | none =>
    rw [hpolicy] at hretry
    cases hretry
    simp
  | some r =>
    rw [hpolicy] at hretry
    obtain ⟨printed, hprinted, hsome⟩ := bind_eq_ok.mp hretry
    cases hsome
    simpa using print_retry hprinted

/-- Where the arguments can be decoded, a message that the direct projection refuses is refused
alike, and the two jobs agree exactly when no zero value is lost. -/
theorem decodings_agree_iff (reader : TextReader) (times : DurationText)
    (w : WellKnownJson V S T D) (job : JobMessage V S T D)
    (hargs : ∀ printed, job.print w = .ok printed →
      ∃ decoded, printed.args.mapM fromProtoValue = .ok decoded) :
    (∀ e, directJob reader times w job = .error e → rpcJob reader times w job = .error e) ∧
      ∀ direct, directJob reader times w job = .ok direct →
        ((∃ rpc, rpcJob reader times w job = .ok rpc ∧ Agree rpc direct) ↔ job.NoLostZero) := by
  rw [directJob_eq, rpcJob_eq]
  cases hprint : job.print w with
  | error e => exact ⟨fun _ h => h, fun _ h => by cases h⟩
  | ok printed =>
    obtain ⟨decoded, hdecoded⟩ := hargs printed hprint
    simp only [ok_bind, hdecoded]
    have houtcome := decodeShown_agree reader times printed decoded printed.args
    rw [print_noLostZero hprint] at houtcome
    cases hdirect : decodeShown reader times true printed printed.args with
    | error e =>
      rw [hdirect] at houtcome
      refine ⟨fun e' h => ?_, fun _ h => by cases h⟩
      cases h
      cases hrpc : decodeShown reader times false printed decoded with
      | error e' =>
        rw [hrpc] at houtcome
        exact congrArg Except.error houtcome
      | ok rpc =>
        rw [hrpc] at houtcome
        exact houtcome.elim
    | ok direct =>
      rw [hdirect] at houtcome
      refine ⟨fun _ h => (by cases h), fun direct' h => ?_⟩
      cases h
      cases hrpc : decodeShown reader times false printed decoded with
      | error e' =>
        rw [hrpc] at houtcome
        exact houtcome.elim
      | ok rpc =>
        rw [hrpc] at houtcome
        have hiff : Agree rpc direct ↔ job.NoLostZero := houtcome
        simpa using hiff

/-! ## Two messages -/

/-- Well-known values that are printed as they are. -/
def printedValues : WellKnownJson Json Fields String String where
  value := .ok
  struct := .ok
  timestamp := .ok
  duration := .ok

/-- The texts of the messages below: one duration and one timestamp. -/
def sampleTimes : DurationText where
  toMilliseconds text :=
    if text = "1.500s" then .ok 1500
    else .error (.builtin .valueError ("invalid protobuf duration: " ++ Text.repr text))
  toIso text :=
    if text = "1.500s" then .ok "PT1.5S"
    else .error (.builtin .valueError ("invalid protobuf duration: " ++ Text.repr text))

def sampleReader : TextReader where
  float _ := none
  int _ := none
  httpDate _ := none
  fromIsoformat text :=
    if text = "2026-01-02T03:04:05+00:00" then some ⟨2026, 1, 2, 3, 4, 5, 0, some 0⟩ else none
  now := 0

/-- A job that is to be attempted no further. -/
def exhaustedJob : JobMessage Json Fields String String :=
  { id := "job-1", type := "task.run", state := 2, maxAttempts := 0, retryPolicy := some {} }

theorem exhaustedJob_differs :
    ∃ rpc direct, rpcJob sampleReader sampleTimes printedValues exhaustedJob = .ok rpc ∧
      directJob sampleReader sampleTimes printedValues exhaustedJob = .ok direct ∧
      rpc.maxAttempts = 3 ∧ direct.maxAttempts = 0 ∧ rpc.retry = none ∧ direct.retry.isSome ∧
      ¬ Agree rpc direct := by
  refine ⟨_, _, rfl, rfl, rfl, rfl, rfl, rfl, fun h => ?_⟩
  have hattempts : (3 : ℤ) = 0 := congrArg Job.maxAttempts h.fields
  cases hattempts

def timedJob : JobMessage Json Fields String String :=
  { id := "job-1", type := "task.run", state := 2, args := [.str "a"], maxAttempts := 5
    retryPolicy := some {
      maxAttempts := 2, backoffCoefficient := .value (.finite 2), jitter := true
      initialInterval := some "1.500s" }
    uniquePolicy := some {}
    errors := [{ code := "Transient" }]
    createdAt := some "2026-01-02T03:04:05Z"
    timeout := some "1.500s" }

theorem timedJob_agrees :
    ∃ rpc direct, rpcJob sampleReader sampleTimes printedValues timedJob = .ok rpc ∧
      directJob sampleReader sampleTimes printedValues timedJob = .ok direct ∧
      Agree rpc direct := by
  have hargs : ∀ printed, timedJob.print printedValues = .ok printed →
      ∃ decoded, printed.args.mapM fromProtoValue = .ok decoded := by
    intro printed hprinted
    cases hprinted
    refine ⟨[.str "a"], mapM_eq_ok.mpr ?_⟩
    exact .cons (fromProtoValue_plain (unwrap_untagged rfl)) .nil
  obtain ⟨rpc, hrpc, hagree⟩ :=
    ((decodings_agree_iff sampleReader sampleTimes printedValues timedJob hargs).2 _ rfl).mpr
      ⟨by decide, fun r hr => by cases hr; exact ⟨by decide, by decide, rfl⟩⟩
  exact ⟨rpc, _, hrpc, rfl, hagree⟩

end OpenJobSpec.Grpc
