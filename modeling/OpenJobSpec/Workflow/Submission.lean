import OpenJobSpec.Wire.OptionalFields
import OpenJobSpec.Workflow.Builders

/-! # A workflow that comes back

The transport posts the steps of a definition as they are. A server answers with the
same steps and with what it knows of their jobs, so the workflow that is decoded has
the steps that were asked for.
-/
namespace OpenJobSpec
open ExceptRules

namespace WorkflowStep
variable (step : WorkflowStep)

def toDict : Fields :=
  [("id", .str step.id), ("type", .str step.type), ("args", .array step.args),
    ("depends_on", .strings step.dependsOn)]
    ++ optionalEntry "meta" (step.meta.map .object)
    ++ optionalEntry "schema" (step.schema.map .str)
    ++ optionalEntry "options" (step.options.map .object)

/-- The members that a definition gives to a step. -/
def requestFields : List String :=
  ["id", "type", "args", "depends_on", "options", "meta", "schema"]

/-- The step without what only a server knows. -/
def requested : WorkflowStep where
  id := step.id
  type := step.type
  args := step.args
  dependsOn := step.dependsOn
  options := step.options
  «meta» := step.meta
  schema := step.schema

/-- An entry of an answer repeats the members of a posted step; null stands for an absent one. -/
def Repeats (posted entry : Fields) : Prop :=
  ∀ key ∈ requestFields, Fields.get entry key .null = Fields.get posted key .null

instance (posted entry : Fields) : Decidable (Repeats posted entry) :=
  inferInstanceAs (Decidable (∀ key ∈ requestFields, _))

/-- What a server tells of the job of a step. -/
def readStatus (reader : TextReader) (decoder : WireDecoder) : Except Exn WorkflowStep := do
  let jobId ← decoder.string "job_id" none
  let state ← decoder.string "state" none
  let startedAt ← decoder.datetime reader "started_at"
  let completedAt ← decoder.datetime reader "completed_at"
  let error ← decoder.optionalMapping "error"
  return {
    id := "", type := "", jobId, state, startedAt, completedAt, error
    result := decoder.value "result" .null
    extra := decoder.data.filter fun entry => entry.1 ∉ knownFields }

/-- The step with the status of another. -/
def withStatus (status : WorkflowStep) : WorkflowStep :=
  { status with
    id := step.id, type := step.type, args := step.args, dependsOn := step.dependsOn
    options := step.options, «meta» := step.meta, schema := step.schema }

theorem requested_withStatus (status : WorkflowStep) :
    (step.withStatus status).requested = step.requested := rfl

/-! ## Reading an entry -/

variable {step} {entry : Fields}

theorem lookup_of_get {key : String} {value : Json} (h : Fields.get entry key .null = value)
    (hvalue : value ≠ .null) : entry.lookup key = some value := by
  unfold Fields.get at h
  cases hfound : entry.lookup key with
  | none =>
    rw [hfound] at h
    exact absurd h.symm hvalue
  | some found =>
    rw [hfound] at h
    exact congrArg some h

theorem optionalMapping_of_get {key path : String} {policy : Option Fields}
    (h : Fields.get entry key .null = (policy.map Json.object).getD .null) :
    WireDecoder.optionalMapping ⟨entry, path⟩ key = .ok policy := by
  unfold WireDecoder.optionalMapping WireDecoder.value
  rw [h]
  cases policy <;> rfl

theorem string_of_get {key path : String} {text : Option String}
    (h : Fields.get entry key .null = (text.map Json.str).getD .null) :
    WireDecoder.string ⟨entry, path⟩ key none = .ok text := by
  cases text with
  | some text => exact WireDecoder.string_eq (lookup_of_get h (by rintro ⟨⟩))
  | none =>
    unfold WireDecoder.string
    unfold Fields.get at h
    cases hfound : entry.lookup key with
    | none => rfl
    | some found =>
      rw [hfound] at h
      cases h
      rfl

/-- The members that are repeated are read as they were, and the rest is the status. -/
theorem fromDecoder_repeated (reader : TextReader) (path : String) (h : Repeats step.toDict entry) :
    fromDecoder reader ⟨entry, path⟩ = do
      let status ← readStatus reader ⟨entry, path⟩
      return step.withStatus status := by
  have hid : entry.lookup "id" = some (.str step.id) :=
    lookup_of_get (h "id" (by decide)) (by rintro ⟨⟩)
  have htype : entry.lookup "type" = some (.str step.type) :=
    lookup_of_get (h "type" (by decide)) (by rintro ⟨⟩)
  have hargs : entry.lookup "args" = some (.array step.args) :=
    lookup_of_get (h "args" (by decide)) (by rintro ⟨⟩)
  have hdeps : entry.lookup "depends_on" = some (.strings step.dependsOn) :=
    lookup_of_get (h "depends_on" (by decide)) (by rintro ⟨⟩)
  have hoptional : ∀ key ∈ requestFields, ∀ value : Option Json, step.toDict.lookup key = value →
      Fields.get entry key .null = value.getD .null := by
    intro key hkey value hvalue
    rw [h key hkey, Fields.get, hvalue]
  have hmeta := hoptional "meta" (by decide) (step.meta.map .object) (by
    simp [toDict, List.lookup_append, List.lookup_cons, lookup_optionalEntry])
  have hschema := hoptional "schema" (by decide) (step.schema.map .str) (by
    simp [toDict, List.lookup_append, List.lookup_cons, lookup_optionalEntry])
  have hoptions := hoptional "options" (by decide) (step.options.map .object) (by
    simp [toDict, List.lookup_append, List.lookup_cons, lookup_optionalEntry])
  unfold fromDecoder readStatus
  rw [WireDecoder.requiredString_eq hid, WireDecoder.requiredString_eq htype,
    WireDecoder.array_eq hargs, WireDecoder.stringArray_eq hdeps, optionalMapping_of_get hoptions,
    optionalMapping_of_get hmeta, string_of_get hschema]
  simp only [ok_bind, bind_assoc]
  rfl

/-- What a server adds to an entry can be read. -/
def StatusReads (reader : TextReader) (entry : Fields) : Prop :=
  ∀ path, ∃ status, readStatus reader ⟨entry, path⟩ = .ok status

end WorkflowStep

namespace Workflow
open WorkflowStep
variable {reader : TextReader}

/-- The body that the transport posts. -/
def WorkflowDefinition.toDict (definition : WorkflowDefinition) : Fields :=
  [("name", .str definition.name),
    ("steps", .array (definition.steps.map fun step => .object step.toDict))]
    ++ optionalEntry "options" (definition.options.map .object)

/-- The entries of an answer repeat the steps of a body, one by one. -/
def RepeatsSteps (body : Fields) (entries : List Fields) : Prop :=
  ∃ posted : List Fields, body.lookup "steps" = some (.array (posted.map .object)) ∧
    List.Forall₂ Repeats posted entries

theorem WorkflowDefinition.repeated {definition : WorkflowDefinition} {entries : List Fields}
    (h : RepeatsSteps definition.toDict entries) :
    List.Forall₂ (fun step entry => Repeats step.toDict entry) definition.steps entries := by
  obtain ⟨posted, hposted, hrepeats⟩ := h
  have hsteps : definition.toDict.lookup "steps" =
      some (.array ((definition.steps.map WorkflowStep.toDict).map .object)) := by
    rw [List.map_map]
    rfl
  have hsame : (definition.steps.map WorkflowStep.toDict).map Json.object = posted.map .object :=
    Json.array.inj (Option.some.inj (hsteps.symm.trans hposted))
  rw [← List.map_injective_iff.mpr (fun _ _ => Json.object.inj) hsame,
    List.forall₂_map_left_iff] at hrepeats
  exact hrepeats

/-! ## Reading the steps -/

theorem stepEntries_repeated {sent : List WorkflowStep} {entries : List Fields}
    (h : List.Forall₂ (fun step entry => Repeats step.toDict entry) sent entries) (index : ℕ)
    {steps : List WorkflowStep}
    (hread : stepEntries reader index (entries.map .object) = .ok steps) :
    steps.map requested = sent.map requested := by
  induction h generalizing index steps with
  | nil =>
    cases hread
    rfl
  | cons hrepeats _ ih =>
    obtain ⟨decoder, hdecoder, hread⟩ := bind_eq_ok.mp hread
    cases hdecoder
    obtain ⟨step, hstep, hread⟩ := bind_eq_ok.mp hread
    obtain ⟨tail, htail, hread⟩ := bind_eq_ok.mp hread
    cases hread
    rw [fromDecoder_repeated reader _ hrepeats] at hstep
    obtain ⟨status, -, hstep⟩ := bind_eq_ok.mp hstep
    cases hstep
    rw [List.map_cons, List.map_cons, ih _ htail, requested_withStatus]

theorem stepEntries_reads {sent : List WorkflowStep} {entries : List Fields}
    (h : List.Forall₂ (fun step entry => Repeats step.toDict entry) sent entries)
    (hstatus : ∀ entry ∈ entries, StatusReads reader entry)
    (index : ℕ) : ∃ steps, stepEntries reader index (entries.map .object) = .ok steps := by
  induction h generalizing index with
  | nil => exact ⟨[], rfl⟩
  | @cons step entry _ _ hrepeats _ ih =>
    obtain ⟨hfirst, hrest⟩ := List.forall_mem_cons.mp hstatus
    obtain ⟨tail, htail⟩ := ih hrest (index + 1)
    obtain ⟨status, hread⟩ := hfirst ("workflow.steps[" ++ toString index ++ "]")
    refine ⟨step.withStatus status :: tail, ?_⟩
    rw [List.map_cons, stepEntries, WireDecoder.object, ok_bind,
      fromDecoder_repeated reader _ hrepeats, hread, htail]
    rfl

/-! ## Reading the workflow -/

theorem extra_replaced (data : Fields) {name : String} (hknown : name ∈ knownFields)
    (value : Json) :
    ((data.map fun entry => if entry.1 = name then (name, value) else entry).filter
      fun entry => entry.1 ∉ knownFields) = data.filter fun entry => entry.1 ∉ knownFields := by
  induction data with
  | nil => rfl
  | cons entry rest ih =>
    rw [List.map_cons]
    by_cases hname : entry.1 = name
    · rw [if_pos hname, List.filter_cons_of_neg (by simpa using hknown), ih,
        List.filter_cons_of_neg (by simpa [hname] using hknown)]
    · rw [if_neg hname, List.filter_cons, List.filter_cons, ih]

/-- A known member is no extra one, whether it is set or removed. -/
theorem extra_set (data : Fields) {name : String} (hknown : name ∈ knownFields) (value : Json) :
    ((Fields.set data name value).filter fun entry => entry.1 ∉ knownFields) =
      (Fields.remove data name).filter fun entry => entry.1 ∉ knownFields := by
  have hremove : ((Fields.remove data name).filter fun entry => entry.1 ∉ knownFields) =
      data.filter fun entry => entry.1 ∉ knownFields := by
    rw [Fields.remove, List.filter_filter]
    refine List.filter_congr fun entry _ => ?_
    by_cases hname : entry.1 = name
    · simp [hname, hknown]
    · simp [hname]
  rw [hremove]
  unfold Fields.set
  split
  · exact extra_replaced data hknown value
  · rw [List.filter_append, List.filter_cons_of_neg (by simpa using hknown), List.filter_nil,
      List.append_nil]

theorem fromDict_steps (answer : Fields) (entries : List Json) :
    fromDict reader (.object (Fields.set answer "steps" (.array entries))) = do
      let steps ← stepEntries reader 0 entries
      let workflow ← fromDict reader (.object (Fields.remove answer "steps"))
      return { workflow with steps := steps } := by
  have hremoved : WireDecoder.array ⟨Fields.remove answer "steps", "workflow"⟩ "steps" [] =
      .ok [] := by
    rw [WireDecoder.array, WireDecoder.lookup_remove_self]
  have hset : WireDecoder.array ⟨Fields.set answer "steps" (.array entries), "workflow"⟩ "steps" []
      = .ok entries := WireDecoder.array_eq (WireDecoder.lookup_set_self answer "steps" _)
  unfold fromDict
  simp only [WireDecoder.object, ok_bind, hremoved, hset,
    extra_set answer (by decide : "steps" ∈ knownFields)]
  simp (disch := decide) only [WireDecoder.requiredString_other, WireDecoder.string_other,
    WireDecoder.integer_other, WireDecoder.optionalMapping_other, WireDecoder.datetime_other,
    bind_assoc, pure_bind]
  rfl

/-- A server that answers with the steps it was sent, in whatever state their jobs are and with
whatever else it tells of the workflow, gives back the steps of the definition; and an answer that
can be read without its steps can be read with them when the states of the jobs can. -/
theorem submitted_steps_come_back (reader : TextReader) (definition : WorkflowDefinition)
    (answer : Fields) (entries : List Fields) (h : RepeatsSteps definition.toDict entries) :
    (∀ workflow, fromDict reader (.object (Fields.set answer "steps"
        (.array (entries.map .object)))) = .ok workflow →
      workflow.steps.map requested = definition.steps.map requested ∧
        ∃ rest, fromDict reader (.object (Fields.remove answer "steps")) = .ok rest ∧
          workflow = { rest with steps := workflow.steps }) ∧
    ∀ workflow, fromDict reader (.object (Fields.remove answer "steps")) = .ok workflow →
      (∀ entry ∈ entries, StatusReads reader entry) →
      ∃ steps, fromDict reader (.object (Fields.set answer "steps"
        (.array (entries.map .object)))) = .ok { workflow with steps := steps } := by
  rw [fromDict_steps]
  constructor
  · intro workflow hworkflow
    obtain ⟨steps, hsteps, hworkflow⟩ := bind_eq_ok.mp hworkflow
    obtain ⟨rest, hrest, hworkflow⟩ := bind_eq_ok.mp hworkflow
    cases hworkflow
    exact ⟨stepEntries_repeated (WorkflowDefinition.repeated h) 0 hsteps, rest, hrest, rfl⟩
  · intro workflow hworkflow hstatus
    obtain ⟨steps, hsteps⟩ := stepEntries_reads (WorkflowDefinition.repeated h) hstatus 0
    refine ⟨steps, ?_⟩
    rw [hsteps, hworkflow]
    rfl

/-- A chain of two jobs, of which the first one runs. -/
theorem submitted_steps_come_back_running :
    let definition := chain "report" [{ type := "a", args := [.int 1] }, { type := "b" }] none
    let entries := definition.steps.zipWith (fun step state => step.toDict ++ state)
      [[("state", .str "active"), ("worker", .int 7)], [("state", .str "blocked")]]
    let answer := Fields.set [("id", .str "w"), ("name", .str "report"), ("state", .str "running")]
      "steps" (.array (entries.map .object))
    ∃ workflow, fromDict refusingReader (.object answer) = .ok workflow ∧
      workflow.steps.map requested = definition.steps.map requested := by
  intro definition entries answer
  have hrepeats : RepeatsSteps definition.toDict entries :=
    ⟨definition.steps.map toDict, rfl, .cons (by decide +kernel) (.cons (by decide +kernel) .nil)⟩
  have hback := submitted_steps_come_back refusingReader definition
    [("id", .str "w"), ("name", .str "report"), ("state", .str "running")] entries hrepeats
  obtain ⟨steps, hread⟩ := hback.2 { id := "w", name := "report", state := "running" } rfl
    (List.forall_mem_cons.mpr ⟨fun _ => ⟨_, rfl⟩,
      List.forall_mem_cons.mpr ⟨fun _ => ⟨_, rfl⟩, List.forall_mem_nil _⟩⟩)
  exact ⟨_, hread, (hback.1 _ hread).1⟩

end Workflow

end OpenJobSpec
