import OpenJobSpec.Grpc.EnqueueFields
import OpenJobSpec.Workflow.WellFormed

/-! # The steps of a workflow as single enqueues

The projection of a workflow hands each step to the projection of an enqueue. A step
that a builder made is projected as its job would be, once the workflow's options
have filled in what the job leaves out.
-/
namespace OpenJobSpec.Workflow
open ExceptRules
variable (runtime : Grpc.ProjectionRuntime)

/-- The body that enqueues a job alone, with its options filled in. -/
def bodyUnder (defaults : Fields) (job : JobRequest) : Fields :=
  Fields.set job.toDict "options" (.object (Fields.update defaults job.options))

/-- The jobs are enqueued one after the other, each with its body. -/
def enqueueEach (body : JobRequest → Fields) (now : ℕ → ℤ) :
    ℕ → List JobRequest → Except Exn (List Fields)
  | _, [] => .ok []
  | index, job :: rest => do
    let message ← Grpc.encodeEnqueue runtime (now index) (body job)
    let tail ← enqueueEach body now (index + 1) rest
    return message :: tail

/-- The step for an enqueue message. -/
def stepMessage (id : String) (dependsOn : List String) (message : Fields) : Fields :=
  [("id", .str id), ("type", Fields.get message "type" .null),
    ("args", Fields.get message "args" .null)]
    ++ optionalEntry "depends_on" (if dependsOn = [] then none else some (.strings dependsOn))
    ++ optionalEntry "options" (message.lookup "options")

/-- The workflow for the messages of its jobs. -/
def workflowMessage (name : String) (dependsOn : ℕ → List String) (messages : List Fields) :
    Fields :=
  [("name", .str name), ("steps", .array ((messages.mapIdx fun i message =>
    stepMessage (stepId i) (dependsOn i) message).map .object))]

/-! ## What the projection of an enqueue reads -/

theorem encodeEnqueue_congr (now : ℤ) {body body' : Fields}
    (h : ∀ key ∈ ["type", "args", "schema", "queue", "priority", "tags", "meta"],
      body.lookup key = body'.lookup key)
    (hoptions : Grpc.sourceOptions body = Grpc.sourceOptions body') :
    Grpc.encodeEnqueue runtime now body = Grpc.encodeEnqueue runtime now body' := by
  have hget : ∀ key ∈ ["type", "args", "schema", "queue", "priority", "tags", "meta"],
      ∀ default, Fields.get body key default = Fields.get body' key default :=
    fun key hkey default => congrArg (Option.getD · default) (h key hkey)
  have htype : Grpc.enqueueType body = Grpc.enqueueType body' := by
    rw [Grpc.enqueueType, Grpc.enqueueType, hget "type" (by decide)]
  have hargs : Grpc.enqueueArgs body = Grpc.enqueueArgs body' := by
    rw [Grpc.enqueueArgs, Grpc.enqueueArgs, hget "args" (by decide)]
  have hschema : Grpc.refuseSchema body = Grpc.refuseSchema body' := by
    rw [Grpc.refuseSchema, Grpc.refuseSchema, hget "schema" (by decide)]
  have hencode : Grpc.encodeOptions runtime now body = Grpc.encodeOptions runtime now body' := by
    funext source
    rw [Grpc.encodeOptions, Grpc.encodeOptions, hget "queue" (by decide),
      hget "priority" (by decide), hget "tags" (by decide), hget "meta" (by decide)]
  rw [Grpc.encodeEnqueue, Grpc.encodeEnqueue, Grpc.projectEnqueue, Grpc.projectEnqueue, htype,
    hargs, hschema, hoptions, hencode]

theorem options_envelope (job : JobRequest) : job.envelope.options.getD [] = job.options := by
  unfold JobRequest.envelope
  dsimp only
  split
  · next h => exact h.symm
  · rfl

theorem lookup_bodyUnder (defaults : Fields) (job : JobRequest) {key : String}
    (hkey : key ≠ "options") : (bodyUnder defaults job).lookup key = job.toDict.lookup key := by
  rw [bodyUnder, Fields.lookup_set, if_neg hkey]

theorem sourceOptions_bodyUnder (defaults : Fields) (job : JobRequest) :
    Grpc.sourceOptions (bodyUnder defaults job) = .ok (Fields.update defaults job.options) := by
  have hget : Fields.get (bodyUnder defaults job) "options" .null =
      .object (Fields.update defaults job.options) := by
    rw [bodyUnder, Fields.get, Fields.lookup_set, if_pos rfl, Option.getD_some]
  rw [Grpc.sourceOptions, hget]

/-- A step without a callback is projected as its job is under the options of the workflow. -/
theorem projectStep_job (defaults : Fields) (now : ℤ) (id : String) {job : JobRequest}
    (dependsOn : List String) (hschema : job.envelope.schema = none) :
    projectStep runtime defaults now (projectWorkflowStep id job dependsOn none) = do
      let message ← Grpc.encodeEnqueue runtime now (bodyUnder defaults job)
      return stepMessage id dependsOn message := by
  have hoptions : (projectWorkflowStep id job dependsOn none).options.getD [] = job.options :=
    options_envelope job
  have hnone : ¬(projectWorkflowStep id job dependsOn none).schema ≠ none := not_not.mpr hschema
  have hfresh : Fields.get job.options "callback_type" .null = .null := by
    have hhas := has_callbackType job
    rw [options_envelope, Fields.has] at hhas
    exact Fields.get_of_lookup_none (Option.not_isSome_iff_eq_none.mp (Bool.eq_false_iff.mp hhas)) _
  let body := [("type", Json.str job.type), ("args", .array job.args),
    ("options", .object (Fields.update defaults job.options))]
      ++ optionalEntry "meta" (job.envelope.meta.map .object)
  have hlookup : ∀ key ∈ ["type", "args", "schema", "queue", "priority", "tags", "meta"],
      body.lookup key = job.toDict.lookup key := by
    simp only [List.forall_mem_cons]
    refine ⟨rfl, rfl, ?_, ?_, ?_, ?_, ?_, List.forall_mem_nil _⟩
    all_goals
      simp [body, JobRequest.toDict, JobEnvelope.toDict, List.lookup_append, List.lookup_cons,
        lookup_optionalEntry, hschema]
  have hbody : Grpc.encodeEnqueue runtime now body =
      Grpc.encodeEnqueue runtime now (bodyUnder defaults job) := by
    refine encodeEnqueue_congr runtime now (fun key hkey => ?_) ?_
    · rw [hlookup key hkey, lookup_bodyUnder]
      rintro rfl
      revert hkey
      decide
    · rw [sourceOptions_bodyUnder]
      rfl
  unfold projectStep
  dsimp only
  rw [hoptions, if_neg hnone, if_neg (not_not.mpr hfresh)]
  change (Grpc.encodeEnqueue runtime now body >>= _) = _
  rw [hbody]
  rfl

theorem projectSteps_jobs (defaults : Fields) (now : ℕ → ℤ) (dependsOn : ℕ → List String)
    {jobs : List JobRequest} (hschema : ∀ job ∈ jobs, job.envelope.schema = none) (index : ℕ) :
    projectSteps runtime defaults now index (jobs.mapIdx fun i job =>
        projectWorkflowStep (stepId (index + i)) job (dependsOn (index + i)) none) = do
      let messages ← enqueueEach runtime (bodyUnder defaults) now index jobs
      return messages.mapIdx fun i message =>
        stepMessage (stepId (index + i)) (dependsOn (index + i)) message := by
  induction jobs generalizing index with
  | nil => rfl
  | cons job rest ih =>
    obtain ⟨hfirst, hrest⟩ := List.forall_mem_cons.mp hschema
    have hrest := ih hrest (index + 1)
    simp only [Nat.add_assoc, Nat.add_comm 1] at hrest
    rw [List.mapIdx_cons, projectSteps, Nat.add_zero,
      projectStep_job runtime defaults _ _ _ hfirst, hrest, enqueueEach]
    simp only [bind_assoc, pure_bind, List.mapIdx_cons]
    rfl

/-! ## A workflow without options -/

theorem update_eq_append {fields other : Fields} (hnodup : (other.map Prod.fst).Nodup)
    (hfresh : ∀ entry ∈ other, Fields.has fields entry.1 = false) :
    Fields.update fields other = fields ++ other := by
  induction other generalizing fields with
  | nil => exact (List.append_nil fields).symm
  | cons entry rest ih =>
    obtain ⟨hentry, hrest⟩ := List.forall_mem_cons.mp hfresh
    obtain ⟨hnew, hnodup⟩ := List.nodup_cons.mp hnodup
    have hset : Fields.set fields entry.1 entry.2 = fields ++ [entry] := by
      rw [Fields.set, if_neg (by simp [hentry])]
    change Fields.update (Fields.set fields entry.1 entry.2) rest = _
    rw [hset, ih hnodup, List.append_assoc, List.singleton_append]
    intro other hother
    have hne : other.1 ≠ entry.1 := fun heq => hnew (heq ▸ List.mem_map_of_mem hother)
    have hbefore := hrest other hother
    rw [Fields.has, List.lookup_append, Option.isSome_or, List.lookup_cons, beq_false_of_ne hne]
    rw [Fields.has] at hbefore
    rw [hbefore]
    rfl

theorem keys_optionalEntry (key : String) (value : Option Json) :
    ((optionalEntry key value).map Prod.fst).Sublist [key] := by
  cases value with
  | none => exact List.nil_sublist _
  | some found => exact List.Sublist.refl _

theorem options_keys (job : JobRequest) : (job.options.map Prod.fst).Nodup := by
  have hkeys : (job.options.map Prod.fst).Sublist ["queue", "priority", "timeout_ms",
      "delay_until", "expires_at", "retry", "unique", "tags"] := by
    unfold JobRequest.options
    simp only [List.map_append]
    exact ((((((keys_optionalEntry _ _).append (keys_optionalEntry _ _)).append
      (keys_optionalEntry _ _)).append (keys_optionalEntry _ _)).append
      (keys_optionalEntry _ _)).append (keys_optionalEntry _ _)).append
      (keys_optionalEntry _ _) |>.append (keys_optionalEntry _ _)
  exact hkeys.nodup (by decide)

/-- Without options of the workflow a job is enqueued as it is alone. -/
theorem encodeEnqueue_alone (now : ℤ) (job : JobRequest) :
    Grpc.encodeEnqueue runtime now (bodyUnder [] job) =
      Grpc.encodeEnqueue runtime now job.toDict := by
  refine encodeEnqueue_congr runtime now (fun key hkey => lookup_bodyUnder [] job ?_) ?_
  · rintro rfl
    revert hkey
    decide
  · rw [sourceOptions_bodyUnder, Grpc.sourceOptions_toDict,
      update_eq_append (options_keys job) fun _ _ => rfl, List.nil_append]

theorem enqueueEach_congr {body body' : JobRequest → Fields}
    (h : ∀ now job, Grpc.encodeEnqueue runtime now (body job) =
      Grpc.encodeEnqueue runtime now (body' job)) (now : ℕ → ℤ) (index : ℕ)
    (jobs : List JobRequest) :
    enqueueEach runtime body now index jobs = enqueueEach runtime body' now index jobs := by
  induction jobs generalizing index with
  | nil => rfl
  | cons job rest ih => rw [enqueueEach, enqueueEach, h, ih]

theorem projectWorkflow_numbered (now : ℕ → ℤ) (name : String) {jobs : List JobRequest}
    (dependsOn : ℕ → List String) (options : Option Fields)
    (hschema : ∀ job ∈ jobs, job.envelope.schema = none) :
    projectWorkflow runtime now ⟨name, numbered jobs dependsOn, options⟩ =
      workflowMessage name dependsOn <$>
        enqueueEach runtime (bodyUnder (options.getD [])) now 0 jobs := by
  have hsteps := projectSteps_jobs runtime (options.getD []) now dependsOn hschema 0
  simp only [Nat.zero_add] at hsteps
  rw [projectWorkflow, numbered, hsteps]
  cases enqueueEach runtime (bodyUnder (options.getD [])) now 0 jobs <;> rfl

/-- Over gRPC a chain or a group of jobs is the enqueue messages of its jobs, in their order, under
the ids and the dependencies of the builder, and it fails as the first of the enqueues that fails.
Options of the workflow only fill in what a job leaves out. -/
theorem workflows_enqueue_their_jobs (now : ℕ → ℤ) (name : String) (jobs : List JobRequest)
    (options : Option Fields) (hschema : ∀ job ∈ jobs, job.envelope.schema = none) :
    let each := enqueueEach runtime (bodyUnder (options.getD [])) now 0 jobs
    projectWorkflow runtime now (chain name jobs options) =
        workflowMessage name (fun i => if i > 0 then [stepId (i - 1)] else []) <$> each ∧
      projectWorkflow runtime now (group name jobs options) =
        workflowMessage name (fun _ => []) <$> each ∧
      (options = none → each = enqueueEach runtime JobRequest.toDict now 0 jobs) ∧
      ∀ (job : JobRequest) (key : String),
      (Fields.update (options.getD []) job.options).lookup key =
        (job.options.lookup key).or ((options.getD []).lookup key) := by
  intro each
  refine ⟨projectWorkflow_numbered runtime now name _ options hschema,
    projectWorkflow_numbered runtime now name _ options hschema, ?_, ?_⟩
  · rintro rfl
    exact enqueueEach_congr runtime (encodeEnqueue_alone runtime) now 0 jobs
  · exact fun job key => Fields.lookup_update _ (options_keys job) key

/-- The queue of the workflow is the queue of the job that names none. -/
theorem workflows_enqueue_their_jobs_chain :
    let runtime : Grpc.ProjectionRuntime :=
      ⟨fun _ => none, ⟨fun _ => none, fun _ => ⟨0, 0⟩⟩, fun _ => "None"⟩
    projectWorkflow runtime (fun _ => 0) (chain "report"
      [{ type := "a", args := [.int 1] }, { type := "b", queue := "slow" }]
      (some [("queue", .str "nightly")])) =
    .ok [("name", .str "report"), ("steps", .array [
      .object [("id", .str "step-0"), ("type", .str "a"), ("args", .array [.int 1]),
        ("options", .object [("queue", .str "nightly")])],
      .object [("id", .str "step-1"), ("type", .str "b"), ("args", .array []),
        ("depends_on", .array [.str "step-0"]),
        ("options", .object [("queue", .str "slow")])]])] := by
  intro runtime
  exact (workflows_enqueue_their_jobs runtime (fun _ => 0) "report" _ _ (by decide)).1.trans (by
    decide +kernel)

end OpenJobSpec.Workflow
