import OpenJobSpec.Grpc.EnqueueProjection
import OpenJobSpec.Wire.Workflow

/-! # Workflow builders, and their projection into the protobuf DAG -/
namespace OpenJobSpec.Workflow

structure WorkflowDefinition where
  name : String
  steps : List WorkflowStep
  options : Option Fields := none
deriving DecidableEq

/-- The options of a callback name its type. -/
def stepOptions (options : Option Fields) (callbackType : Option String) : Option Fields :=
  match callbackType with
  | none => options
  | some callback => some (Fields.set (options.getD []) "callback_type" (.str callback))

def projectWorkflowStep (stepId : String) (request : JobRequest) (dependsOn : List String)
    (callbackType : Option String) : WorkflowStep :=
  let envelope := request.envelope
  { id := stepId
    type := envelope.type
    args := envelope.args
    dependsOn := dependsOn
    options := stepOptions envelope.options callbackType
    «meta» := envelope.meta
    schema := envelope.schema }

def stepId (index : ℕ) : String := "step-" ++ toString index

def chain (name : String) (jobs : List JobRequest) (options : Option Fields) :
    WorkflowDefinition where
  name := name
  steps := jobs.mapIdx fun index job =>
    projectWorkflowStep (stepId index) job (if index > 0 then [stepId (index - 1)] else []) none
  options := options

def group (name : String) (jobs : List JobRequest) (options : Option Fields) :
    WorkflowDefinition where
  name := name
  steps := jobs.mapIdx fun index job => projectWorkflowStep (stepId index) job [] none
  options := options

structure Callbacks where
  onComplete : Option JobRequest := none
  onSuccess : Option JobRequest := none
  onFailure : Option JobRequest := none

/-- The callbacks that are there, by their types. -/
def Callbacks.given (c : Callbacks) : List (String × JobRequest) :=
  [("on_complete", c.onComplete), ("on_success", c.onSuccess),
    ("on_failure", c.onFailure)].filterMap fun entry => entry.2.map (entry.1, ·)

def parallelIds (jobs : List JobRequest) : List String := (List.range jobs.length).map stepId

def batch (name : String) (jobs : List JobRequest) (callbacks : Callbacks)
    (options : Option Fields) : WorkflowDefinition where
  name := name
  steps := (parallelIds jobs).zipWith (fun id job => projectWorkflowStep id job [] none) jobs
    ++ callbacks.given.map fun (callbackType, callback) =>
      projectWorkflowStep callbackType callback (parallelIds jobs) (some callbackType)
  options := options

/-! ## `project_workflow` -/

def noSchemaField : Exn :=
  .capability ("The canonical OJS v1 gRPC WorkflowStep has no schema field. " ++
    "Use HTTP transport for schema-validated workflow steps.")

def noCallbacks : Exn :=
  .capability ("The canonical OJS v1 gRPC workflow DAG cannot represent " ++
    "conditional batch callbacks. Use HTTP transport for batch workflows.")

variable (runtime : Grpc.ProjectionRuntime)

def projectStep (defaults : Fields) (now : ℤ) (source : WorkflowStep) : Except Exn Fields :=
  let sourceOptions := source.options.getD []
  if source.schema ≠ none then .error noSchemaField
  else if Fields.get sourceOptions "callback_type" .null ≠ .null then .error noCallbacks
  else do
    let body := [("type", .str source.type), ("args", .array source.args),
      ("options", .object (Fields.update defaults sourceOptions))]
      ++ optionalEntry "meta" (source.meta.map .object)
    let projected ← Grpc.encodeEnqueue runtime now body
    return [("id", .str source.id), ("type", Fields.get projected "type" .null),
      ("args", Fields.get projected "args" .null)]
      ++ optionalEntry "depends_on"
        (if source.dependsOn = [] then none else some (.strings source.dependsOn))
      ++ optionalEntry "options" (projected.lookup "options")

/-- The clock is read anew for each step; `now` tells what it says. -/
def projectSteps (defaults : Fields) (now : ℕ → ℤ) :
    ℕ → List WorkflowStep → Except Exn (List Fields)
  | _, [] => .ok []
  | index, source :: rest => do
    let step ← projectStep runtime defaults (now index) source
    let tail ← projectSteps defaults now (index + 1) rest
    return step :: tail

def projectWorkflow (now : ℕ → ℤ) (definition : WorkflowDefinition) : Except Exn Fields := do
  let steps ← projectSteps runtime (definition.options.getD []) now 0 definition.steps
  return [("name", .str definition.name), ("steps", .array (steps.map .object))]

end OpenJobSpec.Workflow
