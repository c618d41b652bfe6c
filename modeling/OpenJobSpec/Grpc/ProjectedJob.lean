import OpenJobSpec.Grpc.JobProjection

/-! # What the projection makes of a printed job

Restoring the integers changes nothing in a job, whose integers have 32 bits.
The projection reads most fields in the same way whether their zero values are
printed or not, so what it returns is given in terms of the printed message.
-/
namespace OpenJobSpec.Grpc
open ExceptRules

variable {V S T D : Type} {always : Bool}

/-! ## The integers of a printed job -/

/-- Normalizing leaves what a field prints as it is. -/
def Fixed (descriptor : List (String × (Json → Json))) (field : PrintedField) : Prop :=
  ∀ value normalize, field.shown true = some value →
    descriptor.lookup field.name = some normalize → normalize value = value

theorem mem_printFields {fields : List PrintedField} {entry : String × Json}
    (h : entry ∈ printFields always fields) :
    ∃ field ∈ fields, field.name = entry.1 ∧ field.shown true = some entry.2 := by
  rcases List.mem_append.mp h with hset | hzero
  · obtain ⟨field, hmem, hf⟩ := List.mem_filterMap.mp hset
    cases field <;> cases hf
    exact ⟨_, hmem, rfl, rfl⟩
  · cases always with
    | false => cases hzero
    | true =>
      obtain ⟨field, hmem, hf⟩ := List.mem_filterMap.mp hzero
      cases field <;> cases hf
      exact ⟨_, hmem, rfl, rfl⟩

variable {descriptor : List (String × (Json → Json))}

theorem normalizeFields_eq_self {data : Fields}
    (h : ∀ entry ∈ data, ∀ normalize, descriptor.lookup entry.1 = some normalize →
      normalize entry.2 = entry.2) : normalizeFields descriptor data = data := by
  unfold normalizeFields
  refine (List.map_congr_left fun entry hentry => ?_).trans (List.map_id _)
  split
  · rfl
  · rfl
  · rename_i normalize value hlookup _
    exact congrArg (Prod.mk entry.1) (h entry hentry _ hlookup)

theorem normalizeFields_printed {fields : List PrintedField}
    (h : ∀ field ∈ fields, Fixed descriptor field) :
    normalizeFields descriptor (printFields always fields) = printFields always fields := by
  refine normalizeFields_eq_self fun entry hentry normalize hlookup => ?_
  obtain ⟨field, hmem, hname, hshown⟩ := mem_printFields hentry
  exact h field hmem entry.2 normalize hshown (hname ▸ hlookup)

theorem normalizeMessage_object {fields : Fields} (h : normalizeFields descriptor fields = fields) :
    normalizeMessage descriptor (.object fields) = .object fields := congrArg Json.object h

theorem normalizeMessage_nil (value : Json) : normalizeMessage [] value = value := by
  cases value with
  | object fields =>
    exact normalizeMessage_object (normalizeFields_eq_self fun _ _ _ h => by cases h)
  | null | bool _ | int _ | float _ | str _ | array _ => rfl

theorem normalizeMessages_eq_self {items : List Json}
    (h : ∀ item ∈ items, normalizeMessage descriptor item = item) :
    normalizeMessages descriptor (.array items) = .array items :=
  congrArg Json.array ((List.map_congr_left h).trans (List.map_id items))

/-- The arguments are left alone, whatever their keys. -/
theorem normalizeMessage_value (value : Json) : normalizeMessage valueIntegers value = value := by
  cases value with
  | object fields =>
    refine normalizeMessage_object (normalizeFields_eq_self fun entry _ normalize hlookup => ?_)
    simp only [valueIntegers, List.lookup_cons, List.lookup_nil] at hlookup
    split at hlookup
    · cases hlookup
      exact normalizeMessage_nil entry.2
    · split at hlookup
      · cases hlookup
        exact normalizeMessage_nil entry.2
      · cases hlookup
  | null | bool _ | int _ | float _ | str _ | array _ => rfl

theorem Fixed.of_none {field : PrintedField} (h : descriptor.lookup field.name = none) :
    Fixed descriptor field := by
  intro value normalize _ hlookup
  rw [h] at hlookup
  cases hlookup

theorem Fixed.integer {name : String} {n : ℤ} (h : descriptor.lookup name = some toInteger) :
    Fixed descriptor (.integer name n) := by
  intro value normalize hshown hlookup
  rw [PrintedField.name_integer, h] at hlookup
  cases hlookup
  rw [PrintedField.shown_integer] at hshown
  cases hshown
  rfl

theorem Fixed.message {name : String} {value : Option Json} {normalize : Json → Json}
    (h : descriptor.lookup name = some normalize) (hv : ∀ v, value = some v → normalize v = v) :
    Fixed descriptor (.message name value) := by
  intro v other hshown hlookup
  rw [PrintedField.name_message, h] at hlookup
  cases hlookup
  rw [PrintedField.shown_message] at hshown
  exact hv v hshown

theorem Fixed.repeated {name : String} {items : List Json}
    {inner : List (String × (Json → Json))}
    (h : descriptor.lookup name = some (normalizeMessages inner))
    (hi : ∀ item ∈ items, normalizeMessage inner item = item) :
    Fixed descriptor (.repeated name items) := by
  intro v other hshown hlookup
  rw [PrintedField.name_repeated, h] at hlookup
  cases hlookup
  rw [PrintedField.shown_repeated] at hshown
  cases hshown
  exact normalizeMessages_eq_self hi

theorem normalize_error (e : JobErrorMessage Fields String) :
    normalizeMessage jobErrorIntegers (.object (e.toDict always)) = .object (e.toDict always) := by
  refine normalizeMessage_object (normalizeFields_printed fun field hfield => ?_)
  simp only [JobErrorMessage.printedFields, List.mem_cons, List.not_mem_nil, or_false] at hfield
  rcases hfield with rfl | rfl | rfl | rfl | rfl | rfl | rfl
  case inr.inr.inr.inl => exact Fixed.integer rfl
  case inr.inr.inr.inr.inr.inr =>
    have hdetails : jobErrorIntegers.lookup "details" =
      some (normalizeMessage structIntegers) := rfl
    exact Fixed.message hdetails fun v _ => normalizeMessage_nil v
  all_goals exact Fixed.of_none (by simp [jobErrorIntegers, List.lookup_cons])

theorem normalize_retry (r : RetryPolicyMessage String) :
    normalizeMessage retryPolicyIntegers (.object (r.toDict always)) =
      .object (r.toDict always) := by
  refine normalizeMessage_object (normalizeFields_printed fun field hfield => ?_)
  simp only [RetryPolicyMessage.printedFields, List.mem_cons, List.not_mem_nil, or_false] at hfield
  rcases hfield with rfl | rfl | rfl | rfl | rfl | rfl | rfl
  case inl => exact Fixed.integer rfl
  all_goals exact Fixed.of_none (by simp [retryPolicyIntegers, List.lookup_cons])

/-- A job is printed with its integers as they are. -/
theorem normalize_job (m : PrintedJob) :
    normalizeFields jobIntegers (m.toDict always) = m.toDict always := by
  refine normalizeFields_printed ?_
  have hnone : ∀ field, jobIntegers.lookup field.name = none → Fixed jobIntegers field :=
    fun field => Fixed.of_none
  have hstruct : ∀ name value, jobIntegers.lookup name = some (normalizeMessage []) →
      Fixed jobIntegers (.message name value) :=
    fun name value h => Fixed.message h fun v _ => normalizeMessage_nil v
  simp only [JobMessage.printedFields, List.forall_mem_cons, List.not_mem_nil, false_implies,
    implies_true, and_true]
  refine ⟨?id, ?type, ?queue, ?args, ?metadata, ?state, ?priority, ?attempt, ?maxAttempts, ?retry,
    ?unique, ?result, ?errors, ?createdAt, ?enqueuedAt, ?scheduledAt, ?startedAt, ?completedAt,
    ?expiresAt, ?timeout, ?visibilityTimeout, ?tags, ?traceId, ?workflowId, ?specversion⟩
  case args => exact Fixed.repeated rfl fun item _ => normalizeMessage_value item
  case metadata => exact hstruct _ _ rfl
  case priority => exact Fixed.integer rfl
  case attempt => exact Fixed.integer rfl
  case maxAttempts => exact Fixed.integer rfl
  case retry =>
    refine Fixed.message rfl fun v hv => ?_
    obtain ⟨r, _, rfl⟩ := Option.map_eq_some_iff.mp hv
    exact normalize_retry r
  case unique => exact hstruct _ _ rfl
  case result => exact hstruct _ _ rfl
  case errors =>
    refine Fixed.repeated rfl fun item hitem => ?_
    obtain ⟨e, _, rfl⟩ := List.mem_map.mp hitem
    exact normalize_error e
  all_goals
    apply hnone
    simp [jobIntegers, List.lookup_cons]

theorem responseDict_eq (w : WellKnownJson V S T D) (m : JobMessage V S T D) :
    responseDict w m = m.print w >>= fun printed => .ok (printed.toDict false) := by
  unfold responseDict
  cases m.print w with
  | error e => rfl
  | ok printed => exact congrArg Except.ok (normalize_job printed)

/-! ## What the projection reads of a printed job -/

/-- A dictionary that the projection reads as this job, with these arguments. -/
structure Shows (always : Bool) (m : PrintedJob) (args : List Json) (source : Fields) : Prop where
  id : Fields.get source "id" (.str "") = .str m.id
  type : Fields.get source "type" (.str "") = .str m.type
  queue : (Fields.get source "queue" .null).orElse (.str "default") =
    .str (if m.queue = "" then "default" else m.queue)
  args : Fields.get source "args" (.array []) = .array args
  «meta» : Fields.get source "meta" (.object []) = .object (m.meta.getD [])
  state : jobState (Fields.get source "state" (.str "available")) =
    jobState (PrintedField.enumJson jobStateNames m.state)
  priority : Fields.get source "priority" (.int 0) = .int m.priority
  attempt : Fields.get source "attempt" (.int 0) = .int m.attempt
  tags : Fields.get source "tags" (.array []) = .array (m.tags.map .str)
  errors : Fields.get source "errors" (.array []) =
    .array (m.errors.map fun e => .object (e.toDict always))
  result : Fields.get source "result" .null = ((m.result.map .object).getD .null)
  maxAttempts : source.lookup "max_attempts" =
    if always = false ∧ m.maxAttempts = 0 then none else some (.int m.maxAttempts)
  timeout : source.lookup "timeout" = m.timeout.map .str
  retry : source.lookup "retry_policy" = m.retryPolicy.map fun r => .object (r.toDict always)
  unique : source.lookup "unique_policy" = m.uniquePolicy.map fun u => .object (u.toDict always)
  createdAt : Fields.get source "created_at" .null = ((m.createdAt.map .str).getD .null)
  enqueuedAt : Fields.get source "enqueued_at" .null = ((m.enqueuedAt.map .str).getD .null)
  startedAt : Fields.get source "started_at" .null = ((m.startedAt.map .str).getD .null)
  completedAt : Fields.get source "completed_at" .null = ((m.completedAt.map .str).getD .null)
  scheduledAt : Fields.get source "scheduled_at" .null = ((m.scheduledAt.map .str).getD .null)
  expiresAt : Fields.get source "expires_at" .null = ((m.expiresAt.map .str).getD .null)

variable {m : PrintedJob} {args : List Json} {source : Fields}

theorem get_toDict (field : PrintedField) {name : String}
    (hmem : field ∈ m.printedFields always) (hname : field.name = name) (default : Json) :
    Fields.get (m.toDict always) name default = (field.shown always).getD default := by
  rw [← hname, Fields.get, m.lookup_toDict always field hmem]

theorem lookup_message {name : String} (value : Option Json)
    (hmem : PrintedField.message name value ∈ m.printedFields always) :
    (m.toDict always).lookup name = value := by
  have h := m.lookup_toDict always _ hmem
  rw [PrintedField.name_message, PrintedField.shown_message] at h
  exact h

theorem get_message {name : String} (value : Option Json)
    (hmem : PrintedField.message name value ∈ m.printedFields always) (default : Json) :
    Fields.get (m.toDict always) name default = value.getD default := by
  rw [Fields.get, lookup_message value hmem]

/-- The zero value is also what the projection takes for a field that is not there. -/
theorem get_text {name value : String}
    (hmem : PrintedField.text name value ∈ m.printedFields always) :
    Fields.get (m.toDict always) name (.str "") = .str value := by
  rw [get_toDict _ hmem (PrintedField.name_text name value), PrintedField.shown_text]
  split
  · rename_i hzero
    rw [hzero.2]
    rfl
  · rfl

theorem get_integer {name : String} {value : ℤ}
    (hmem : PrintedField.integer name value ∈ m.printedFields always) :
    Fields.get (m.toDict always) name (.int 0) = .int value := by
  rw [get_toDict _ hmem (PrintedField.name_integer name value), PrintedField.shown_integer]
  split
  · rename_i hzero
    rw [hzero.2]
    rfl
  · rfl

theorem get_repeated {name : String} {items : List Json}
    (hmem : PrintedField.repeated name items ∈ m.printedFields always) :
    Fields.get (m.toDict always) name (.array []) = .array items := by
  rw [get_toDict _ hmem (PrintedField.name_repeated name items), PrintedField.shown_repeated]
  split
  · rename_i hzero
    rw [hzero.2]
    rfl
  · rfl

theorem Shows.toDict (always : Bool) (m : PrintedJob) :
    Shows always m m.args (m.toDict always) where
  id := get_text (by simp [JobMessage.printedFields])
  type := get_text (by simp [JobMessage.printedFields])
  queue := by
    rw [get_toDict (.text "queue" m.queue) (by simp [JobMessage.printedFields])
      (PrintedField.name_text _ _), PrintedField.shown_text]
    by_cases hqueue : m.queue = ""
    · rw [hqueue]
      cases always <;> rfl
    · simp [hqueue, Json.orElse, Json.truthy]
  args := get_repeated (by simp [JobMessage.printedFields])
  «meta» := by
    rw [get_message (m.meta.map .object) (by simp [JobMessage.printedFields])]
    cases m.meta <;> rfl
  state := by
    rw [get_toDict (.enumeration jobStateNames "state" m.state)
      (by simp [JobMessage.printedFields]) (PrintedField.name_enumeration _ _ _),
      PrintedField.shown_enumeration]
    split
    · rename_i hzero
      rw [hzero.2]
      decide
    · rfl
  priority := get_integer (by simp [JobMessage.printedFields])
  attempt := get_integer (by simp [JobMessage.printedFields])
  tags := get_repeated (by simp [JobMessage.printedFields])
  errors := get_repeated (by simp [JobMessage.printedFields])
  result := get_message _ (by simp [JobMessage.printedFields]) .null
  maxAttempts := by
    have h := m.lookup_toDict always (.integer "max_attempts" m.maxAttempts)
      (by simp [JobMessage.printedFields])
    rw [PrintedField.name_integer, PrintedField.shown_integer] at h
    exact h
  timeout := lookup_message _ (by simp [JobMessage.printedFields])
  retry := lookup_message _ (by simp [JobMessage.printedFields])
  unique := lookup_message _ (by simp [JobMessage.printedFields])
  createdAt := get_message _ (by simp [JobMessage.printedFields]) .null
  enqueuedAt := get_message _ (by simp [JobMessage.printedFields]) .null
  startedAt := get_message _ (by simp [JobMessage.printedFields]) .null
  completedAt := get_message _ (by simp [JobMessage.printedFields]) .null
  scheduledAt := get_message _ (by simp [JobMessage.printedFields]) .null
  expiresAt := get_message _ (by simp [JobMessage.printedFields]) .null

/-! ## The projected dictionary -/

/-- At most one entry, under a fixed key. -/
def optionEntry (key : String) : Option Json → Fields
  | none => []
  | some value => [(key, value)]

theorem lookup_optionEntry (key name : String) (value : Option Json) :
    (optionEntry key value).lookup name = if name = key then value else none := by
  cases value with
  | none => simp [optionEntry]
  | some value =>
    rw [optionEntry, List.lookup_cons, List.lookup_nil]
    by_cases h : name = key
    · simp [h]
    · rw [beq_false_of_ne h, if_neg h]

theorem copied_eq (source : Fields) (key : String) :
    copied source key = optionEntry key (source.lookup key) := by
  unfold copied
  cases source.lookup key <;> rfl

theorem isoDuration_eq {times : DurationText} {key : String} {text : Option String}
    (h : source.lookup key = text.map .str) :
    isoDuration times source key =
      printOption times.toIso text >>= fun iso => .ok (optionEntry key (iso.map .str)) := by
  unfold isoDuration
  rw [h]
  cases text with
  | none => rfl
  | some text =>
    dsimp only [Option.map_some, printOption]
    cases times.toIso text <;> rfl

theorem projectTimeout_eq {times : DurationText} {text : Option String}
    (h : source.lookup "timeout" = text.map .str) :
    projectTimeout times source =
      printOption times.toMilliseconds text >>= fun ms =>
        .ok (optionEntry "timeout_ms" (ms.map .int)) := by
  unfold projectTimeout
  rw [h]
  cases text with
  | none => rfl
  | some text =>
    dsimp only [Option.map_some, printOption]
    cases times.toMilliseconds text <;> rfl

theorem projectPolicy_eq {project : Fields → Except Exn Fields} {key name : String}
    {policy : Option Fields} (h : source.lookup key = policy.map .object) :
    projectPolicy project source key name =
      printOption project policy >>= fun projected =>
        .ok (optionEntry name (projected.map .object)) := by
  unfold projectPolicy
  rw [h]
  cases policy with
  | none => rfl
  | some policy =>
    dsimp only [Option.map_some, printOption]
    cases project policy <;> rfl

/-- The dictionary that a printed job is projected to. -/
def projectedJob (always : Bool) (m : PrintedJob) (args : List Json) (timeoutMs : Option ℤ)
    (retry unique : Option Fields) : Fields := [
    ("id", .str m.id), ("type", .str m.type),
    ("queue", .str (if m.queue = "" then "default" else m.queue)), ("args", .array args),
    ("meta", .object (m.meta.getD [])),
    ("state", .str (jobState (PrintedField.enumJson jobStateNames m.state))),
    ("priority", .int m.priority), ("attempt", .int m.attempt), ("tags", .array (m.tags.map .str)),
    ("errors", .array (m.errors.map fun e => .object (e.toDict always))),
    ("result", (m.result.map .object).getD .null)]
    ++ optionEntry "max_attempts"
      (if always = false ∧ m.maxAttempts = 0 then none else some (.int m.maxAttempts))
    ++ optionEntry "timeout_ms" (timeoutMs.map .int) ++ optionEntry "retry" (retry.map .object)
    ++ optionEntry "unique" (unique.map .object)
    ++ [("created_at", (m.createdAt.map .str).getD .null),
      ("enqueued_at", (m.enqueuedAt.map .str).getD .null),
      ("started_at", (m.startedAt.map .str).getD .null),
      ("completed_at", (m.completedAt.map .str).getD .null),
      ("scheduled_at", (m.scheduledAt.map .str).getD .null),
      ("expires_at", (m.expiresAt.map .str).getD .null)]

theorem projectJob_eq {times : DurationText} (h : Shows always m args source) :
    projectJob times source = (do
      let timeoutMs ← printOption times.toMilliseconds m.timeout
      let retry ← printOption (projectRetry times) (m.retryPolicy.map fun r => r.toDict always)
      let unique ← printOption (projectUnique times) (m.uniquePolicy.map fun u => u.toDict always)
      return projectedJob always m args timeoutMs retry unique) := by
  have hretry : source.lookup "retry_policy" =
      (m.retryPolicy.map fun r => r.toDict always).map .object := by
    rw [h.retry, Option.map_map]
    rfl
  have hunique : source.lookup "unique_policy" =
      (m.uniquePolicy.map fun u => u.toDict always).map .object := by
    rw [h.unique, Option.map_map]
    rfl
  unfold projectJob
  rw [h.args, h.meta, h.tags, h.errors, projectTimeout_eq h.timeout, projectPolicy_eq hretry,
    projectPolicy_eq hunique, copied_eq, h.maxAttempts, h.id, h.type, h.queue, h.state, h.priority,
    h.attempt, h.result]
  simp only [Json.iterate, dictOf, ok_bind, List.map_cons, List.map_nil, h.createdAt, h.enqueuedAt,
    h.startedAt, h.completedAt, h.scheduledAt, h.expiresAt, bind_assoc]
  rfl

/-! ## The decoded job -/

/-- The timestamp that a field of the message decodes to. -/
def decodedTime (reader : TextReader) (path field : String) :
    Option String → Except Exn (Option DateTime)
  | none => .ok none
  | some text => (WireDecoder.parseDatetime reader text (path ++ "." ++ field)).map some

def decodedUnique : Option Fields → Except Exn (Option UniquePolicy)
  | none => .ok none
  | some fields => some <$> UniquePolicy.fromDecoder ⟨fields, "job.unique"⟩

def decodedState (name : String) : Except Exn JobState :=
  match JobState.ofValue name with
  | some s => .ok s
  | none => .error (.validation
      ("invalid wire value at job.state: unknown job state " ++ Text.repr name))

theorem errorEntries_objects (path : ℕ) (errors : List Fields) :
    Job.errorEntries path (errors.map .object) = .ok errors := by
  induction errors generalizing path with
  | nil => rfl
  | cons e rest ih =>
    rw [List.map_cons, Job.errorEntries, ih]
    rfl

/-- What `Job.from_dict` makes of a projected job. -/
def decodeProjected (reader : TextReader) (always : Bool) (m : PrintedJob) (args : List Json)
    (timeoutMs : Option ℤ) (retry unique : Option Fields) : Except Exn Job := do
  let unique ← decodedUnique (Job.policyData unique)
  let state ← decodedState
    (orElseString (some (jobState (PrintedField.enumJson jobStateNames m.state))) "available")
  let createdAt ← decodedTime reader "job" "created_at" m.createdAt
  let enqueuedAt ← decodedTime reader "job" "enqueued_at" m.enqueuedAt
  let startedAt ← decodedTime reader "job" "started_at" m.startedAt
  let completedAt ← decodedTime reader "job" "completed_at" m.completedAt
  let scheduledAt ← decodedTime reader "job" "scheduled_at" m.scheduledAt
  let expiresAt ← decodedTime reader "job" "expires_at" m.expiresAt
  return {
    id := m.id, type := m.type, state, args, timeoutMs, unique, createdAt, enqueuedAt, startedAt
    completedAt, scheduledAt, expiresAt
    queue := if m.queue = "" then "default" else m.queue
    «meta» := m.meta.getD []
    priority := m.priority
    attempt := m.attempt
    maxAttempts := if always = false ∧ m.maxAttempts = 0 then 3 else m.maxAttempts
    tags := m.tags
    retry := (Job.policyData retry).map RetryPolicy.fromDict
    result := (m.result.map .object).getD .null
    errors := m.errors.map fun e => e.toDict always }

section Decoders
variable {d : WireDecoder} {field : String}

theorem datetime_eq (reader : TextReader) (time : Option String)
    (h : d.data.lookup field = some ((time.map .str).getD .null)) :
    d.datetime reader field = decodedTime reader d.path field time := by
  unfold WireDecoder.datetime
  rw [h]
  cases time <;> rfl

end Decoders

theorem fromDict_projected (reader : TextReader) (timeoutMs : Option ℤ)
    (retry unique : Option Fields) :
    Job.fromDict reader (.object (projectedJob always m args timeoutMs retry unique)) =
      decodeProjected reader always m args timeoutMs retry unique := by
  let d : WireDecoder := ⟨projectedJob always m args timeoutMs retry unique, "job"⟩
  have hlookup : ∀ key, d.data.lookup key =
      (projectedJob always m args timeoutMs retry unique).lookup key := fun _ => rfl
  simp only [projectedJob, List.lookup_append, List.lookup_cons, lookup_optionEntry] at hlookup
  have hretry : d.optionalMapping "retry" = .ok retry :=
    WireDecoder.optionalMapping_eq ((hlookup _).trans (by simp))
  have hunique : d.optionalMapping "unique" = .ok unique :=
    WireDecoder.optionalMapping_eq ((hlookup _).trans (by simp))
  have hstate : d.string "state" (some "available") =
      .ok (some (jobState (PrintedField.enumJson jobStateNames m.state))) :=
    WireDecoder.string_eq ((hlookup _).trans (by simp))
  have herrors : d.array "errors" [] =
      .ok ((m.errors.map fun e => e.toDict always).map .object) :=
    WireDecoder.array_eq ((hlookup _).trans (by simp))
  have hid : d.requiredString "id" = .ok m.id :=
    WireDecoder.requiredString_eq ((hlookup _).trans (by simp))
  have htype : d.requiredString "type" = .ok m.type :=
    WireDecoder.requiredString_eq ((hlookup _).trans (by simp))
  have hargs : d.array "args" [] = .ok args := WireDecoder.array_eq ((hlookup _).trans (by simp))
  have hqueue : d.string "queue" (some "default") =
      .ok (some (if m.queue = "" then "default" else m.queue)) :=
    WireDecoder.string_eq ((hlookup _).trans (by simp))
  have hmeta : d.mapping "meta" [] = .ok (m.meta.getD []) :=
    WireDecoder.mapping_eq ((hlookup _).trans (by simp))
  have hpriority : d.integer "priority" (some 0) = .ok (some m.priority) :=
    WireDecoder.integer_eq (n := some m.priority) ((hlookup _).trans (by simp))
  have hattempt : d.integer "attempt" (some 0) = .ok (some m.attempt) :=
    WireDecoder.integer_eq (n := some m.attempt) ((hlookup _).trans (by simp))
  have hmax : d.integer "max_attempts" (some 3) =
      .ok ((if always = false ∧ m.maxAttempts = 0 then none else some m.maxAttempts).or (some 3)) :=
    WireDecoder.integer_eq ((hlookup _).trans (by simp [apply_ite (Option.map Json.int)]))
  have htimeout : d.integer "timeout_ms" none = .ok (timeoutMs.or none) :=
    WireDecoder.integer_eq ((hlookup _).trans (by simp))
  have htags : d.stringArray "tags" [] = .ok m.tags :=
    WireDecoder.stringArray_eq ((hlookup _).trans (by simp))
  have hcreated := datetime_eq reader m.createdAt
    ((hlookup "created_at").trans (by simp))
  have henqueued := datetime_eq reader m.enqueuedAt
    ((hlookup "enqueued_at").trans (by simp))
  have hstarted := datetime_eq reader m.startedAt
    ((hlookup "started_at").trans (by simp))
  have hcompleted := datetime_eq reader m.completedAt
    ((hlookup "completed_at").trans (by simp))
  have hscheduled := datetime_eq reader m.scheduledAt
    ((hlookup "scheduled_at").trans (by simp))
  have hexpires := datetime_eq reader m.expiresAt
    ((hlookup "expires_at").trans (by simp))
  have hresult : d.value "result" .null = (m.result.map .object).getD .null :=
    Fields.get_of_lookup ((hlookup _).trans (by simp)) .null
  have hobject : WireDecoder.object
      (.object (projectedJob always m args timeoutMs retry unique)) "job" = .ok d := rfl
  unfold Job.fromDict decodeProjected
  rw [hobject]
  simp only [ok_bind, hretry, hunique, hstate, herrors, errorEntries_objects, hid, htype, hargs,
    hqueue, hmeta, hpriority, hattempt, hmax, htimeout, htags, hcreated, henqueued, hstarted,
    hcompleted, hscheduled, hexpires, hresult]
  have hname : orElseString (some (if m.queue = "" then "default" else m.queue)) "default" =
      if m.queue = "" then "default" else m.queue := by
    by_cases hempty : m.queue = "" <;> simp [orElseString, hempty]
  have hattempts :
      ((if always = false ∧ m.maxAttempts = 0 then none else some m.maxAttempts).or (some 3)).getD 0
        = if always = false ∧ m.maxAttempts = 0 then 3 else m.maxAttempts := by
    split <;> rfl
  have hms : timeoutMs.or none = timeoutMs := Option.or_none
  rw [hname, hattempts, hms]
  unfold decodedState
  cases Job.policyData unique with
  | none => cases JobState.ofValue _ <;> rfl
  | some fields =>
    dsimp only [decodedUnique]
    cases UniquePolicy.fromDecoder ⟨fields, "job.unique"⟩ with
    | error e => rfl
    | ok policy => cases JobState.ofValue _ <;> rfl

end OpenJobSpec.Grpc
