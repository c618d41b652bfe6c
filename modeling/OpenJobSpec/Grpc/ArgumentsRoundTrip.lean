import OpenJobSpec.Grpc.JobDecoding
import Mathlib.Algebra.Order.Field.Power

/-! # Arguments through the gRPC transport

A request carries its arguments as protobuf values, a server stores them, and
the response is decoded into a job. The mapping between JSON and protobuf values
is a parameter that loses nothing. What the decoding adds of its own is a second
look at values that are native already.
-/
namespace OpenJobSpec.Grpc
open ExceptRules

/-! ## `project_enqueue` -/

def enqueueType (body : Fields) : Except Exn String :=
  match Fields.get body "type" .null with
  | .str jobType =>
    if jobType = "" then .error (.validation "enqueue type must be a non-empty string")
    else .ok jobType
  | _ => .error (.validation "enqueue type must be a non-empty string")

def enqueueArgs (body : Fields) : Except Exn (List Json) :=
  match Fields.get body "args" (.array []) with
  | .array args => .ok args
  | _ => .error (.validation "enqueue args must be a list")

def refuseSchema (body : Fields) : Except Exn Unit :=
  if Fields.get body "schema" .null = .null then .ok ()
  else .error (.capability ("The canonical OJS v1 gRPC EnqueueRequest has no schema field. " ++
    "Use HTTP transport for schema-validated enqueue operations."))

def sourceOptions (body : Fields) : Except Exn Fields :=
  match Fields.get body "options" .null with
  | .null => .ok []
  | .object options => .ok options
  | _ => .error (.validation "enqueue options must be an object")

/-- The options, which are projected on their own, say nothing about the arguments. -/
def projectEnqueue (projectOptions : Fields → Fields → Except Exn Fields) (body : Fields) :
    Except Exn Fields := do
  let jobType ← enqueueType body
  let args ← enqueueArgs body
  refuseSchema body
  let source ← sourceOptions body
  let options ← projectOptions body source
  return [("type", .str jobType), ("args", .array args)]
    ++ if options = [] then [] else [("options", .object options)]

/-! ## Protobuf values -/

/-- The numbers that a double represents exactly. -/
def IsDouble (q : ℚ) : Prop :=
  ∃ m e : ℤ, |m| < 2 ^ 53 ∧ -1074 ≤ e ∧ e ≤ 971 ∧ q = m * (2 : ℚ) ^ e

mutual

/-- Every number in the value is a double. -/
def Representable : Json → Prop
  | .null | .bool _ | .str _ => True
  | .int n => IsDouble n
  | .float (.finite q) => IsDouble q
  | .float _ => False
  | .array xs => RepresentableItems xs
  | .object fields => RepresentableMembers fields

def RepresentableItems : List Json → Prop
  | [] => True
  | x :: xs => Representable x ∧ RepresentableItems xs

def RepresentableMembers : List (String × Json) → Prop
  | [] => True
  | (_, v) :: rest => Representable v ∧ RepresentableMembers rest

end

variable {V S T D : Type}

/-- A value that is parsed into a message is printed as an equal value. -/
def Lossless (parse : Json → Except Exn V) (print : V → Except Exn Json) : Prop :=
  ∀ value, Representable value → ∃ message printed, parse value = .ok message ∧
    print message = .ok printed ∧ printed.denote = value.denote

/-- The arguments of the encoded request. -/
def encodeArgs (parse : Json → Except Exn V) (request : Fields) : Except Exn (List V) := do
  let args ← (Fields.get request "args" (.array [])).iterate
  args.mapM parse

/-! ## The arguments of the decoded job -/

variable {reader : TextReader} {times : DurationText} {w : WellKnownJson V S T D}

theorem projectEnqueue_args {projectOptions : Fields → Fields → Except Exn Fields}
    {body request : Fields} {args : List Json}
    (hbody : Fields.get body "args" (.array []) = .array args)
    (h : projectEnqueue projectOptions body = .ok request) :
    Fields.get request "args" (.array []) = .array args := by
  obtain ⟨jobType, _, h⟩ := bind_eq_ok.mp h
  obtain ⟨args', hargs, h⟩ := bind_eq_ok.mp h
  obtain ⟨_, _, h⟩ := bind_eq_ok.mp h
  obtain ⟨source, _, h⟩ := bind_eq_ok.mp h
  obtain ⟨options, _, h⟩ := bind_eq_ok.mp h
  cases h
  unfold enqueueArgs at hargs
  rw [hbody] at hargs
  cases hargs
  rfl

theorem print_args (job : JobMessage V S T D) :
    job.print w = (do
      let args ← job.args.mapM w.value
      let printed ← { job with args := [] }.print w
      return { printed with args }) := by
  unfold JobMessage.print
  simp only [List.mapM_nil, pure_bind, bind_assoc]

theorem decodeShown_args (m : PrintedJob) (printedArgs args : List Json) :
    decodeShown reader times false { m with args := printedArgs } args = (do
      let job ← decodeShown reader times false m []
      return { job with args }) := by
  unfold decodeShown decodeProjected
  simp only [bind_assoc, pure_bind]

/-- What a message with these arguments decodes to, where it decodes without them. -/
theorem rpcJob_of_rest {job : JobMessage V S T D} {rest : Job} {printed : List Json}
    (hrest : rpcJob reader times w { job with args := [] } = .ok rest)
    (hprinted : job.args.mapM w.value = .ok printed) :
    rpcJob reader times w job =
      printed.mapM fromProtoValue >>= fun args => .ok { rest with args } := by
  rw [rpcJob_eq] at hrest ⊢
  rw [print_args, hprinted]
  obtain ⟨m, hm, hrest⟩ := bind_eq_ok.mp hrest
  obtain ⟨args, hargs, hrest⟩ := bind_eq_ok.mp hrest
  have hempty : m.args = [] := by
    rw [print_args] at hm
    obtain ⟨args', hargs', hm⟩ := bind_eq_ok.mp hm
    obtain ⟨_, _, hm⟩ := bind_eq_ok.mp hm
    cases hargs'
    cases hm
    rfl
  have hnil : args = [] := by
    rw [hempty, List.mapM_nil] at hargs
    cases hargs
    rfl
  rw [hnil] at hrest
  simp only [ok_bind, hm, pure_bind, decodeShown_args, hrest]
  rfl

theorem isTagged_congr {v v' : Json} (h : v.denote = v'.denote) : isTagged v = isTagged v' := by
  cases v with
  | object fields =>
    cases v' with
    | object fields' =>
      rw [Json.denote_object, Json.denote_object, JsonValue.object.injEq] at h
      have hhas : Fields.has fields = Fields.has fields' := by
        funext key
        have hkey := congrArg Option.isSome (congrFun h key)
        simpa [Fields.has] using hkey
      exact congrArg (tags.any ·) hhas
    | null | bool _ | int _ | float _ | str _ | array _ => cases h
  | null | bool _ | int _ | float _ | str _ | array _ => cases v' <;> first | rfl | cases h

/-- Arguments that are printed as equal values keep their values in the decoded job exactly when
none of them is tagged. -/
theorem decoded_args_iff {args printed : List Json}
    (h : List.Forall₂ (fun arg out => out.denote = arg.denote) args printed) :
    (∃ decoded, printed.mapM fromProtoValue = .ok decoded ∧
      decoded.map Json.denote = args.map Json.denote) ↔ ∀ arg ∈ args, isTagged arg = false := by
  induction h with
  | nil => exact ⟨fun _ _ h => (by cases h), fun _ => ⟨[], rfl, rfl⟩⟩
  | @cons arg out args outs hfirst _ ih =>
    rw [List.forall_mem_cons, ← ih, isTagged_congr hfirst.symm, ← fromProtoValue_kept_iff,
      List.mapM_cons]
    constructor
    · rintro ⟨decoded, hdecoded, heq⟩
      obtain ⟨first, hdecode, hdecoded⟩ := bind_eq_ok.mp hdecoded
      obtain ⟨rest, hrest, hdecoded⟩ := bind_eq_ok.mp hdecoded
      cases hdecoded
      rw [List.map_cons, List.map_cons, List.cons.injEq] at heq
      exact ⟨⟨first, hdecode, heq.1.trans hfirst.symm⟩, rest, hrest, heq.2⟩
    · rintro ⟨⟨first, hdecode, heq⟩, rest, hrest, hrest_eq⟩
      refine ⟨first :: rest, ?_, ?_⟩
      · rw [hdecode, hrest]
        rfl
      · rw [List.map_cons, List.map_cons, heq, hfirst, hrest_eq]

theorem printed_of_lossless {parse : Json → Except Exn V} (hlossless : Lossless parse w.value)
    {args : List Json} {values : List V} (hrep : ∀ arg ∈ args, Representable arg)
    (hvalues : args.mapM parse = .ok values) :
    ∃ printed, values.mapM w.value = .ok printed ∧
      List.Forall₂ (fun arg out => out.denote = arg.denote) args printed := by
  have hparsed := mapM_eq_ok.mp hvalues
  clear hvalues
  induction hparsed with
  | nil => exact ⟨[], rfl, .nil⟩
  | @cons arg value args values hfirst _ ih =>
    obtain ⟨harg, hargs⟩ := List.forall_mem_cons.mp hrep
    obtain ⟨message, out, hparse, hprint, hdenote⟩ := hlossless arg harg
    rw [hfirst] at hparse
    cases hparse
    obtain ⟨outs, houts, hdenotes⟩ := ih hargs
    refine ⟨out :: outs, ?_, .cons hdenote hdenotes⟩
    rw [List.mapM_cons, hprint, houts]
    rfl

/-- Arguments survive the transport exactly when none of them is an object with a key that the
decoding takes for a tag; objects deeper in an argument may have any keys. -/
theorem args_survive_iff {parse : Json → Except Exn V}
    {projectOptions : Fields → Fields → Except Exn Fields} {body request : Fields}
    {args : List Json} {job : JobMessage V S T D} (hlossless : Lossless parse w.value)
    (hrep : ∀ arg ∈ args, Representable arg)
    (hbody : Fields.get body "args" (.array []) = .array args)
    (hrequest : projectEnqueue projectOptions body = .ok request)
    (hstored : encodeArgs parse request = .ok job.args)
    (hrest : ∃ rest, rpcJob reader times w { job with args := [] } = .ok rest) :
    (∃ decoded, rpcJob reader times w job = .ok decoded ∧
      decoded.args.map Json.denote = args.map Json.denote) ↔
    ∀ arg ∈ args, isTagged arg = false := by
  obtain ⟨rest, hrest⟩ := hrest
  have hvalues : args.mapM parse = .ok job.args := by
    unfold encodeArgs at hstored
    rw [projectEnqueue_args hbody hrequest] at hstored
    exact hstored
  obtain ⟨printed, hprinted, hdenote⟩ := printed_of_lossless hlossless hrep hvalues
  rw [← decoded_args_iff hdenote, rpcJob_of_rest hrest hprinted]
  constructor
  · rintro ⟨decoded, hdecoded, heq⟩
    obtain ⟨args', hargs', hjob⟩ := bind_eq_ok.mp hdecoded
    cases hjob
    exact ⟨args', hargs', heq⟩
  · rintro ⟨args', hargs', heq⟩
    exact ⟨{ rest with args := args' }, by rw [hargs', ok_bind], heq⟩

def acceptedOptions (_ _ : Fields) : Except Exn Fields := .ok []

def storedJob (args : List Json) : JobMessage Json Fields String String :=
  { id := "job-1", type := "email.send", state := 2, args }

theorem storedJob_rest (args : List Json) :
    ∃ rest, rpcJob sampleReader sampleTimes printedValues { storedJob args with args := [] } =
      .ok rest := by
  have hempty : ∃ rest, rpcJob sampleReader sampleTimes printedValues (storedJob []) = .ok rest :=
    ⟨_, rfl⟩
  exact hempty

theorem lossless_printed : Lossless (V := Json) .ok printedValues.value :=
  fun value _ => ⟨value, value, rfl, rfl, rfl⟩

def taggedArgument : Json := .object [("string_value", .str "x")]

/-- A caller's own object under the key `string_value` comes back as the text in it. -/
theorem tagged_argument_unwrapped :
    ∃ request decoded, projectEnqueue acceptedOptions
        [("type", .str "email.send"), ("args", .array [taggedArgument])] = .ok request ∧
      encodeArgs (V := Json) .ok request = .ok (storedJob [taggedArgument]).args ∧
      rpcJob sampleReader sampleTimes printedValues (storedJob [taggedArgument]) = .ok decoded ∧
      decoded.args = [.str "x"] ∧
      decoded.args.map Json.denote ≠ [taggedArgument].map Json.denote := by
  obtain ⟨rest, hrest⟩ := storedJob_rest [taggedArgument]
  have hprinted : (storedJob [taggedArgument]).args.mapM printedValues.value =
      .ok [taggedArgument] := rfl
  have hunwrap : unwrap taggedArgument = .plain (.str "x") := rfl
  refine ⟨_, { rest with args := [.str "x"] }, rfl, rfl, ?_, rfl, fun h => by cases h⟩
  rw [rpcJob_of_rest hrest hprinted, List.mapM_cons, fromProtoValue_plain hunwrap]
  rfl

def nestedTag : List Json := [.str "a", .object [("to", taggedArgument)]]

theorem nestedTag_survives :
    ∃ decoded, rpcJob sampleReader sampleTimes printedValues (storedJob nestedTag) = .ok decoded ∧
      decoded.args.map Json.denote = nestedTag.map Json.denote := by
  have hrep : ∀ arg ∈ nestedTag, Representable arg := by
    simp [nestedTag, taggedArgument, Representable, RepresentableMembers]
  have hrequest : projectEnqueue acceptedOptions
      [("type", .str "email.send"), ("args", .array nestedTag)] =
        .ok [("type", .str "email.send"), ("args", .array nestedTag)] := rfl
  exact (args_survive_iff lossless_printed hrep rfl hrequest rfl (storedJob_rest nestedTag)).mpr
    (by decide)

end OpenJobSpec.Grpc
