import OpenJobSpec.Foundation.ListedGraph
import OpenJobSpec.Workflow.Builders

/-! # The graphs that the builders make

A builder numbers its steps in the order of the jobs and only names steps that
it has numbered before. A callback's id is a word that no number makes.
-/
namespace OpenJobSpec.Workflow
open ListedGraph ExceptRules

/-! ## Ids -/

theorem stepId_injective {i j : ℕ} (h : stepId i = stepId j) : i = j := by
  have hlist := congrArg String.toList h
  rw [stepId, stepId, String.toList_append, String.toList_append] at hlist
  exact Text.toString_injective (String.toList_inj.mp (List.append_cancel_left hlist))

theorem stepId_ne (i : ℕ) {name : String} (h : name.toList.head? ≠ some 's') : stepId i ≠ name := by
  intro heq
  rw [← heq, stepId, String.toList_append] at h
  exact h rfl

theorem parallelIds_nodup (jobs : List JobRequest) : (parallelIds jobs).Nodup :=
  List.Nodup.map (fun _ _ => stepId_injective) List.nodup_range

theorem given_names (c : Callbacks) :
    (c.given.map Prod.fst).Sublist ["on_complete", "on_success", "on_failure"] := by
  unfold Callbacks.given
  cases c.onComplete <;> cases c.onSuccess <;> cases c.onFailure <;> simp

/-! ## What a step carries -/

/-- A step holds what the body of its request holds, and a callback's options name its type on top
of that. -/
structure Carries (request : JobRequest) (callbackType : Option String) (step : WorkflowStep) :
    Prop where
  type : request.toDict.lookup "type" = some (.str step.type)
  args : request.toDict.lookup "args" = some (.array step.args)
  «meta» : request.toDict.lookup "meta" = step.meta.map .object
  schema : request.toDict.lookup "schema" = step.schema.map .str
  options : ∃ options : Option Fields, request.toDict.lookup "options" = options.map .object ∧
    step.options = match callbackType with
      | none => options
      | some callback => some (options.getD [] ++ [("callback_type", .str callback)])

theorem has_callbackType (request : JobRequest) :
    Fields.has (request.envelope.options.getD []) "callback_type" = false := by
  have hoptions : request.envelope.options.getD [] = request.options := by
    unfold JobRequest.envelope
    dsimp only
    split_ifs with h
    · exact h.symm
    · rfl
  rw [hoptions, Fields.has]
  unfold JobRequest.options
  simp [List.lookup_append, lookup_optionalEntry]

theorem lookup_options (request : JobRequest) :
    request.toDict.lookup "options" = request.envelope.options.map .object := by
  unfold JobRequest.toDict JobEnvelope.toDict
  simp [List.lookup_append, lookup_optionalEntry, List.lookup_cons]

theorem projectWorkflowStep_carries (stepId : String) (request : JobRequest)
    (dependsOn : List String) (callbackType : Option String) :
    Carries request callbackType (projectWorkflowStep stepId request dependsOn callbackType) := by
  refine ⟨rfl, rfl, ?_, ?_, request.envelope.options, lookup_options request, ?_⟩
  · unfold JobRequest.toDict JobEnvelope.toDict projectWorkflowStep
    simp [List.lookup_append, lookup_optionalEntry, List.lookup_cons]
  · unfold JobRequest.toDict JobEnvelope.toDict projectWorkflowStep
    simp [List.lookup_append, lookup_optionalEntry, List.lookup_cons]
  · cases callbackType with
    | none => rfl
    | some callback =>
      have hfresh := has_callbackType request
      unfold projectWorkflowStep stepOptions Fields.set
      simp [hfresh]

/-! ## The graphs -/

abbrev Edges (steps : List WorkflowStep) : WorkflowStep → WorkflowStep → Prop :=
  DependsOn WorkflowStep.id WorkflowStep.dependsOn steps

/-- Distinct ids, and dependencies on earlier steps alone, so that no step depends on itself. -/
structure WellFormed (steps : List WorkflowStep) : Prop where
  ordered : Ordered WorkflowStep.id WorkflowStep.dependsOn steps
  acyclic : ∀ a, ¬ Relation.TransGen (Edges steps) a a

/-- One step for each job, in the order of the jobs. -/
structure StepsFor (jobs : List JobRequest) (steps : List WorkflowStep) : Prop where
  length : steps.length = jobs.length
  carries : ∀ (i : ℕ) (job : JobRequest), jobs[i]? = some job →
    ∃ step, steps[i]? = some step ∧ Carries job none step

/-- Each step comes after all the steps before it. -/
structure ChainShape (jobs : List JobRequest) (steps : List WorkflowStep) : Prop where
  wellFormed : WellFormed steps
  stepsFor : StepsFor jobs steps
  total : ∀ (i j : ℕ) (a b : WorkflowStep), steps[i]? = some a → steps[j]? = some b →
    (Relation.TransGen (Edges steps) b a ↔ i < j)

structure GroupShape (jobs : List JobRequest) (steps : List WorkflowStep) : Prop where
  wellFormed : WellFormed steps
  stepsFor : StepsFor jobs steps
  edgeless : ∀ step ∈ steps, step.dependsOn = []

/-- The parallel steps, then a step for each callback that depends on all of them. -/
structure BatchShape (jobs : List JobRequest) (callbacks : Callbacks) (steps : List WorkflowStep) :
    Prop where
  wellFormed : WellFormed steps
  parallel : StepsFor jobs (steps.take jobs.length)
  edgeless : ∀ step ∈ steps.take jobs.length, step.dependsOn = []
  length : steps.length = jobs.length + callbacks.given.length
  callbacks : ∀ (k : ℕ) (callbackType : String) (callback : JobRequest),
    callbacks.given[k]? = some (callbackType, callback) →
    ∃ step, steps[jobs.length + k]? = some step ∧ step.id = callbackType ∧
      Carries callback (some callbackType) step ∧
      step.dependsOn = (steps.take jobs.length).map WorkflowStep.id

theorem wellFormed_of_ordered {steps : List WorkflowStep}
    (h : Ordered WorkflowStep.id WorkflowStep.dependsOn steps) : WellFormed steps :=
  ⟨h, h.acyclic⟩

/-- The steps of the jobs, numbered in their order. -/
def numbered (jobs : List JobRequest) (dependsOn : ℕ → List String) : List WorkflowStep :=
  jobs.mapIdx fun index job => projectWorkflowStep (stepId index) job (dependsOn index) none

variable {jobs : List JobRequest} {dependsOn : ℕ → List String}

theorem numbered_getElem? (i : ℕ) : (numbered jobs dependsOn)[i]? =
    jobs[i]?.map fun job => projectWorkflowStep (stepId i) job (dependsOn i) none :=
  List.getElem?_mapIdx

theorem numbered_ids : (numbered jobs dependsOn).map WorkflowStep.id = parallelIds jobs := by
  refine List.ext_getElem? fun i => ?_
  rw [List.getElem?_map, numbered_getElem?, parallelIds, List.getElem?_map]
  by_cases hi : i < jobs.length
  · rw [List.getElem?_eq_getElem hi, List.getElem?_range hi]
    rfl
  · rw [List.getElem?_eq_none (Nat.le_of_not_lt hi),
      List.getElem?_eq_none (by rw [List.length_range]; exact Nat.le_of_not_lt hi)]
    rfl

theorem numbered_stepsFor : StepsFor jobs (numbered jobs dependsOn) where
  length := List.length_mapIdx
  carries i job hjob := by
    refine ⟨_, ?_, projectWorkflowStep_carries (stepId i) job (dependsOn i) none⟩
    rw [numbered_getElem?, hjob]
    rfl

/-- A numbered step is the one at its number. -/
theorem eq_of_numbered {i : ℕ} {step : WorkflowStep}
    (h : (numbered jobs dependsOn)[i]? = some step) :
    i < jobs.length ∧ step.id = stepId i ∧ step.dependsOn = dependsOn i := by
  rw [numbered_getElem?] at h
  obtain ⟨job, hjob, rfl⟩ := Option.map_eq_some_iff.mp h
  exact ⟨(List.getElem?_eq_some_iff.mp hjob).1, rfl, rfl⟩

theorem numbered_ordered
    (h : ∀ i, ∀ d ∈ dependsOn i, ∃ j, j < i ∧ d = stepId j) :
    Ordered WorkflowStep.id WorkflowStep.dependsOn (numbered jobs dependsOn) where
  ids_nodup := by
    rw [numbered_ids]
    exact parallelIds_nodup jobs
  earlier i a ha d hd := by
    obtain ⟨hi, _, hdeps⟩ := eq_of_numbered ha
    rw [hdeps] at hd
    obtain ⟨j, hj, rfl⟩ := h i d hd
    have hjob : jobs[j]? = some jobs[j] := List.getElem?_eq_getElem (hj.trans hi)
    exact ⟨j, projectWorkflowStep (stepId j) jobs[j] (dependsOn j) none, hj,
      (numbered_getElem? j).trans (congrArg (Option.map _) hjob), rfl⟩

theorem chain_shape (name : String) (jobs : List JobRequest) (options : Option Fields) :
    ChainShape jobs (chain name jobs options).steps := by
  let before (index : ℕ) : List String := if index > 0 then [stepId (index - 1)] else []
  have hordered : Ordered WorkflowStep.id WorkflowStep.dependsOn (numbered jobs before) := by
    refine numbered_ordered fun i d hd => ?_
    change d ∈ if i > 0 then [stepId (i - 1)] else [] at hd
    by_cases hi : i > 0
    · rw [if_pos hi] at hd
      exact ⟨i - 1, Nat.sub_one_lt_of_lt hi, List.mem_singleton.mp hd⟩
    · rw [if_neg hi] at hd
      cases hd
  refine ⟨wellFormed_of_ordered hordered, numbered_stepsFor, fun i j a b ha hb => ?_⟩
  constructor
  · exact fun hpath => hordered.path hpath hb ha
  · refine path_of_chain (fun k a b ha hb => ?_) ha hb
    obtain ⟨_, hid, _⟩ := eq_of_numbered ha
    obtain ⟨_, _, hdeps⟩ := eq_of_numbered hb
    rw [hid, hdeps]
    exact List.mem_singleton.mpr rfl

theorem group_shape (name : String) (jobs : List JobRequest) (options : Option Fields) :
    GroupShape jobs (group name jobs options).steps := by
  have hordered : Ordered WorkflowStep.id WorkflowStep.dependsOn (numbered jobs fun _ => []) :=
    numbered_ordered fun _ _ hd => by cases hd
  refine ⟨wellFormed_of_ordered hordered, numbered_stepsFor, fun step hstep => ?_⟩
  obtain ⟨i, hi⟩ := List.getElem?_of_mem hstep
  exact (eq_of_numbered hi).2.2

/-! ## Batches -/

def callbackSteps (jobs : List JobRequest) (callbacks : Callbacks) : List WorkflowStep :=
  callbacks.given.map fun (callbackType, callback) =>
    projectWorkflowStep callbackType callback (parallelIds jobs) (some callbackType)

theorem batch_steps (name : String) (jobs : List JobRequest) (callbacks : Callbacks)
    (options : Option Fields) :
    (batch name jobs callbacks options).steps =
      numbered jobs (fun _ => []) ++ callbackSteps jobs callbacks := by
  refine congrArg (· ++ callbackSteps jobs callbacks) (List.ext_getElem? fun i => ?_)
  rw [numbered_getElem?, List.getElem?_zipWith, parallelIds, List.getElem?_map]
  by_cases hi : i < jobs.length
  · rw [List.getElem?_eq_getElem hi, List.getElem?_range hi]
    rfl
  · rw [List.getElem?_eq_none (Nat.le_of_not_lt hi)]
    cases Option.map stepId (List.range jobs.length)[i]? <;> rfl

theorem batch_ordered (jobs : List JobRequest) (callbacks : Callbacks) :
    Ordered WorkflowStep.id WorkflowStep.dependsOn
      (numbered jobs (fun _ => []) ++ callbackSteps jobs callbacks) where
  ids_nodup := by
    have hnames : (callbackSteps jobs callbacks).map WorkflowStep.id =
        callbacks.given.map Prod.fst := by
      rw [callbackSteps, List.map_map]
      rfl
    rw [List.map_append, numbered_ids, hnames]
    refine List.Nodup.append (parallelIds_nodup jobs)
      ((given_names callbacks).nodup (by decide)) fun id hparallel hcallback => ?_
    obtain ⟨i, _, rfl⟩ := List.mem_map.mp hparallel
    have hname := (given_names callbacks).subset hcallback
    simp only [List.mem_cons, List.not_mem_nil, or_false] at hname
    rcases hname with h | h | h
    all_goals exact stepId_ne i (by decide) h
  earlier i a ha d hd := by
    have hlength : (numbered jobs fun _ => []).length = jobs.length := List.length_mapIdx
    by_cases hi : i < jobs.length
    · rw [List.getElem?_append_left (by rwa [hlength])] at ha
      rw [(eq_of_numbered ha).2.2] at hd
      cases hd
    · rw [List.getElem?_append_right (by rw [hlength]; exact Nat.le_of_not_lt hi)] at ha
      obtain ⟨entry, hentry, rfl⟩ := List.mem_map.mp (List.mem_of_getElem? ha)
      obtain ⟨j, hj, rfl⟩ := List.mem_map.mp (show d ∈ parallelIds jobs from hd)
      have hj' : j < jobs.length := List.mem_range.mp hj
      refine ⟨j, projectWorkflowStep (stepId j) jobs[j] [] none,
        Nat.lt_of_lt_of_le hj' (Nat.le_of_not_lt hi), ?_, rfl⟩
      rw [List.getElem?_append_left (by rwa [hlength]), numbered_getElem?,
        List.getElem?_eq_getElem hj']
      rfl

theorem batch_shape (name : String) (jobs : List JobRequest) (callbacks : Callbacks)
    (options : Option Fields) :
    BatchShape jobs callbacks (batch name jobs callbacks options).steps := by
  have hlength : (numbered jobs fun _ => []).length = jobs.length := List.length_mapIdx
  have htake : (numbered jobs (fun _ => []) ++ callbackSteps jobs callbacks).take jobs.length =
      numbered jobs fun _ => [] := by
    rw [← hlength, List.take_left]
  rw [batch_steps]
  refine ⟨wellFormed_of_ordered (batch_ordered jobs callbacks), ?_, fun step hstep => ?_, ?_,
    fun k callbackType callback hgiven => ?_⟩
  · rw [htake]
    exact numbered_stepsFor
  · rw [htake] at hstep
    obtain ⟨i, hi⟩ := List.getElem?_of_mem hstep
    exact (eq_of_numbered hi).2.2
  · rw [List.length_append, hlength, callbackSteps, List.length_map]
  · refine ⟨_, ?_, rfl, projectWorkflowStep_carries callbackType callback (parallelIds jobs)
      (some callbackType), ?_⟩
    · rw [List.getElem?_append_right (by rw [hlength]; exact Nat.le_add_right ..), hlength,
        Nat.add_sub_cancel_left, callbackSteps, List.getElem?_map, hgiven]
      rfl
    · rw [htake, numbered_ids]
      rfl

/-! ## Projection into the protobuf DAG -/

/-- A step that the message has no place for. -/
def Unrepresentable (step : WorkflowStep) : Prop :=
  step.schema ≠ none ∨ Fields.get (step.options.getD []) "callback_type" .null ≠ .null

/-- A projected step has the id and the dependencies of its source. -/
structure Keeps (source : WorkflowStep) (projected : Fields) : Prop where
  id : projected.lookup "id" = some (.str source.id)
  dependsOn : Fields.get projected "depends_on" (.array []) = .strings source.dependsOn

variable {runtime : Grpc.ProjectionRuntime} {defaults : Fields}

theorem projectStep_refuses (runtime : Grpc.ProjectionRuntime) (defaults : Fields) (now : ℤ)
    {source : WorkflowStep} (h : Unrepresentable source) :
    ∃ message, projectStep runtime defaults now source = .error (.capability message) := by
  unfold projectStep
  by_cases hschema : source.schema ≠ none
  · exact ⟨_, if_pos hschema⟩
  · have hcallback := h.resolve_left hschema
    dsimp only
    rw [if_neg hschema, if_pos hcallback]
    exact ⟨_, rfl⟩

theorem projectStep_keeps {source : WorkflowStep} {now : ℤ} {projected : Fields}
    (h : projectStep runtime defaults now source = .ok projected) : Keeps source projected := by
  by_cases hrefused : Unrepresentable source
  · obtain ⟨message, herror⟩ := projectStep_refuses runtime defaults now hrefused
    rw [herror] at h
    cases h
  · obtain ⟨hschema, hcallback⟩ := not_or.mp hrefused
    unfold projectStep at h
    dsimp only at h
    rw [if_neg hschema, if_neg hcallback] at h
    obtain ⟨request, _, h⟩ := bind_eq_ok.mp h
    cases h
    refine ⟨rfl, ?_⟩
    unfold Fields.get
    by_cases hdeps : source.dependsOn = []
    · simp [List.lookup_cons, List.lookup_append, lookup_optionalEntry, hdeps, Json.strings]
    · simp [List.lookup_cons, List.lookup_append, lookup_optionalEntry, hdeps]

/-- What the steps project to keeps their order. -/
theorem projectSteps_keeps {now : ℕ → ℤ} {index : ℕ} {sources : List WorkflowStep}
    {projected : List Fields}
    (h : projectSteps runtime defaults now index sources = .ok projected) :
    List.Forall₂ Keeps sources projected := by
  induction sources generalizing index projected with
  | nil =>
    cases h
    exact .nil
  | cons source rest ih =>
    obtain ⟨step, hstep, h⟩ := bind_eq_ok.mp h
    obtain ⟨tail, htail, h⟩ := bind_eq_ok.mp h
    cases h
    exact .cons (projectStep_keeps hstep) (ih htail)

/-- The first step without a place in the message ends the projection. -/
theorem projectSteps_refuses (now : ℕ → ℤ) (index : ℕ) (before after : List WorkflowStep)
    {source : WorkflowStep} (hrefused : Unrepresentable source) :
    (∃ e, projectSteps runtime defaults now index (before ++ source :: after) = .error e) ∧
    ((∃ projected, projectSteps runtime defaults now index before = .ok projected) →
      ∃ message, projectSteps runtime defaults now index (before ++ source :: after) =
        .error (.capability message)) := by
  induction before generalizing index with
  | nil =>
    obtain ⟨message, herror⟩ := projectStep_refuses runtime defaults (now index) hrefused
    have hsteps : projectSteps runtime defaults now index (source :: after) =
        .error (.capability message) := by
      rw [projectSteps, herror]
      rfl
    exact ⟨⟨_, hsteps⟩, fun _ => ⟨message, hsteps⟩⟩
  | cons first before ih =>
    rw [List.cons_append, projectSteps]
    cases hfirst : projectStep runtime defaults (now index) first with
    | error e =>
      refine ⟨⟨e, rfl⟩, ?_⟩
      rintro ⟨projected, h⟩
      rw [projectSteps, hfirst] at h
      cases h
    | ok step =>
      obtain ⟨⟨e, he⟩, hreason⟩ := ih (index + 1)
      rw [ok_bind, he]
      refine ⟨⟨e, rfl⟩, ?_⟩
      rintro ⟨projected, h⟩
      rw [projectSteps, hfirst, ok_bind] at h
      obtain ⟨tail, htail, _⟩ := bind_eq_ok.mp h
      obtain ⟨message, hmessage⟩ := hreason ⟨tail, htail⟩
      refine ⟨message, ?_⟩
      rw [← he, hmessage]
      rfl

/-- A projection that succeeds keeps the graph, and one of a graph with a step that has no place
in the message fails, for that reason when all before it have one. -/
structure FaithfulProjection (runtime : Grpc.ProjectionRuntime) (now : ℕ → ℤ)
    (definition : WorkflowDefinition) : Prop where
  keeps : ∀ request, projectWorkflow runtime now definition = .ok request →
    request.lookup "name" = some (.str definition.name) ∧
      ∃ steps : List Fields, request.lookup "steps" = some (.array (steps.map .object)) ∧
        List.Forall₂ Keeps definition.steps steps
  refuses : (∃ step ∈ definition.steps, Unrepresentable step) →
    ∃ e, projectWorkflow runtime now definition = .error e
  reason : ∀ before step after, definition.steps = before ++ step :: after →
    Unrepresentable step →
    (∃ projected, projectSteps runtime (definition.options.getD []) now 0 before = .ok projected) →
    ∃ message, projectWorkflow runtime now definition = .error (.capability message)

theorem projectWorkflow_faithful (runtime : Grpc.ProjectionRuntime) (now : ℕ → ℤ)
    (definition : WorkflowDefinition) : FaithfulProjection runtime now definition where
  keeps request h := by
    obtain ⟨steps, hsteps, h⟩ := bind_eq_ok.mp h
    cases h
    exact ⟨rfl, steps, rfl, projectSteps_keeps hsteps⟩
  refuses := by
    rintro ⟨step, hstep, hrefused⟩
    obtain ⟨before, after, hsplit⟩ := List.append_of_mem hstep
    obtain ⟨e, he⟩ := (projectSteps_refuses now 0 before after hrefused).1
    refine ⟨e, ?_⟩
    rw [projectWorkflow, hsplit, he]
    rfl
  reason before step after hsplit hrefused hbefore := by
    obtain ⟨message, hmessage⟩ := (projectSteps_refuses now 0 before after hrefused).2 hbefore
    refine ⟨message, ?_⟩
    rw [projectWorkflow, hsplit, hmessage]
    rfl

/-- A callback, and a step for a request with a schema, have no place in the message. -/
theorem Carries.unrepresentable {request : JobRequest} {callbackType : Option String}
    {step : WorkflowStep} (h : Carries request callbackType step)
    (hwhy : callbackType ≠ none ∨ request.toDict.lookup "schema" ≠ none) :
    Unrepresentable step := by
  rcases hwhy with hcallback | hschema
  · right
    obtain ⟨options, hfound, hoptions⟩ := h.options
    have hsame : options = request.envelope.options :=
      Option.map_injective (fun _ _ => Json.object.inj) (hfound.symm.trans (lookup_options request))
    cases callbackType with
    | none => exact absurd rfl hcallback
    | some callback =>
      have hfresh : (options.getD []).lookup "callback_type" = none :=
        Option.not_isSome_iff_eq_none.mp fun hsome =>
          Bool.eq_false_iff.mp (has_callbackType request) (hsame ▸ hsome)
      rw [hoptions, Option.getD_some, Fields.get, List.lookup_append, hfresh]
      intro hnull
      cases hnull
  · left
    rw [h.schema] at hschema
    exact fun hnone => hschema (congrArg (Option.map Json.str) hnone)

end OpenJobSpec.Workflow
