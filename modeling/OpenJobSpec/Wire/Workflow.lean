import OpenJobSpec.Wire.Job

/-! # Workflows as the server returns them -/
namespace OpenJobSpec

structure WorkflowStep where
  id : String
  type : String
  args : List Json := []
  dependsOn : List String := []
  options : Option Fields := none
  «meta» : Option Fields := none
  schema : Option String := none
  jobId : Option String := none
  state : Option String := none
  result : Json := .null
  startedAt : Option DateTime := none
  completedAt : Option DateTime := none
  error : Option Fields := none
  extra : Fields := []
deriving DecidableEq

namespace WorkflowStep

def knownFields : List String :=
  ["id", "type", "args", "depends_on", "options", "meta", "schema", "job_id", "state", "result",
    "started_at", "completed_at", "error"]

def fromDecoder (reader : TextReader) (decoder : WireDecoder) : Except Exn WorkflowStep := do
  let id ← decoder.requiredString "id"
  let type ← decoder.requiredString "type"
  let args ← decoder.array "args" []
  let dependsOn ← decoder.stringArray "depends_on" []
  let options ← decoder.optionalMapping "options"
  let «meta» ← decoder.optionalMapping "meta"
  let schema ← decoder.string "schema" none
  let jobId ← decoder.string "job_id" none
  let state ← decoder.string "state" none
  let startedAt ← decoder.datetime reader "started_at"
  let completedAt ← decoder.datetime reader "completed_at"
  let error ← decoder.optionalMapping "error"
  return {
    id, type, args, dependsOn, options, «meta», schema, jobId, state, startedAt, completedAt, error
    result := decoder.value "result" .null
    extra := decoder.data.filter fun entry => entry.1 ∉ knownFields }

end WorkflowStep

structure Workflow where
  id : String
  name : String
  state : String
  steps : List WorkflowStep := []
  createdAt : Option DateTime := none
  type : Option String := none
  completedAt : Option DateTime := none
  cancelledAt : Option DateTime := none
  stepsTotal : Option ℤ := none
  stepsCompleted : Option ℤ := none
  jobsTotal : Option ℤ := none
  jobsCompleted : Option ℤ := none
  stepsCancelled : Option ℤ := none
  stepsAlreadyCompleted : Option ℤ := none
  callbacks : Option (List (String × Fields)) := none
  error : Option Fields := none
  extra : Fields := []
deriving DecidableEq

namespace Workflow

def knownFields : List String :=
  ["id", "name", "state", "steps", "created_at", "type", "completed_at", "cancelled_at",
    "steps_total", "steps_completed", "jobs_total", "jobs_completed", "steps_cancelled",
    "steps_already_completed", "callbacks", "error"]

def stepEntries (reader : TextReader) : ℕ → List Json → Except Exn (List WorkflowStep)
  | _, [] => .ok []
  | index, entry :: rest => do
    let decoder ← WireDecoder.object entry ("workflow.steps[" ++ toString index ++ "]")
    let step ← WorkflowStep.fromDecoder reader decoder
    let tail ← stepEntries reader (index + 1) rest
    return step :: tail

def callbackEntries : Fields → Except Exn (List (String × Fields))
  | [] => .ok []
  | (key, value) :: rest => do
    let decoder ← WireDecoder.object value ("workflow.callbacks." ++ key)
    let tail ← callbackEntries rest
    return (key, decoder.data) :: tail

/-- Each callback is an object, when there are any. -/
def callbackObjects : Option Fields → Except Exn (Option (List (String × Fields)))
  | none => .ok none
  | some callbacks => some <$> callbackEntries callbacks

def fromDict (reader : TextReader) (data : Json) : Except Exn Workflow := do
  let decoder ← WireDecoder.object data "workflow"
  let rawSteps ← decoder.array "steps" []
  let steps ← stepEntries reader 0 rawSteps
  let rawCallbacks ← decoder.optionalMapping "callbacks"
  let callbacks ← callbackObjects rawCallbacks
  let id ← decoder.requiredString "id"
  let name ← decoder.requiredString "name"
  let state ← decoder.requiredString "state"
  let createdAt ← decoder.datetime reader "created_at"
  let type ← decoder.string "type" none
  let completedAt ← decoder.datetime reader "completed_at"
  let cancelledAt ← decoder.datetime reader "cancelled_at"
  let stepsTotal ← decoder.integer "steps_total" none
  let stepsCompleted ← decoder.integer "steps_completed" none
  let jobsTotal ← decoder.integer "jobs_total" none
  let jobsCompleted ← decoder.integer "jobs_completed" none
  let stepsCancelled ← decoder.integer "steps_cancelled" none
  let stepsAlreadyCompleted ← decoder.integer "steps_already_completed" none
  let error ← decoder.optionalMapping "error"
  return {
    id, name, state, steps, createdAt, type, completedAt, cancelledAt, stepsTotal, stepsCompleted
    jobsTotal, jobsCompleted, stepsCancelled, stepsAlreadyCompleted, callbacks, error
    extra := decoder.data.filter fun entry => entry.1 ∉ knownFields }

end Workflow

end OpenJobSpec
