import OpenJobSpec.Errors.Hierarchy

/-! # The gRPC transport's acknowledgement

What protobuf's JSON conversion can hold is a parameter: it is given the members
of a JSON object, since a `Struct` field takes nothing but an object. The server
of this module accepts every request that reaches it.
-/
namespace OpenJobSpec.Grpc

/-- How a conversion or its serialization fails; only the first three are caught
by the codec. -/
inductive ProtobufFailure
  | parseError (message : String)
  | typeError (message : String)
  | valueError (message : String)
  | other (name message : String)
deriving DecidableEq

/-- The protobuf runtime, with `S` its `Struct` messages. -/
structure Protobuf (S : Type) where
  /-- an object's members as a serializable `Struct` -/
  encodeStruct : Fields → Except ProtobufFailure S
  /-- the text of the `ParseError` for a value that is not an object -/
  notAnObject : Json → String

structure AckRequest (S : Type) where
  jobId : String
  result : Option S
deriving DecidableEq

variable {S : Type}

/-- `json_format.ParseDict` on a `Struct` field. -/
def parseStruct (protobuf : Protobuf S) : Json → Except ProtobufFailure S
  | .object fields => protobuf.encodeStruct fields
  | value => .error (.parseError (protobuf.notAnObject value))

/-- The codec's own error, a `ValueError`, or the failure it does not catch. -/
def codecError (method : String) : ProtobufFailure → Exn
  | .parseError m | .typeError m | .valueError m =>
    .other "ProtobufCodecError"
      ("Invalid " ++ method ++ " request for the OJS protobuf schema: " ++ m)
  | .other name m => .other name m

/-- `if result is not None: request["result"] = result`, then the request's bytes. -/
def encodeAck (protobuf : Protobuf S) (jobId : String) (result : Json) :
    Except Exn (AckRequest S) :=
  if result = .null then .ok ⟨jobId, none⟩
  else
    match parseStruct protobuf result with
    | .ok message => .ok ⟨jobId, some message⟩
    | .error failure => .error (codecError "Ack" failure)

/-- The except clauses of `_call`, for an exception that is not an RPC status. -/
def mapCallError (method : String) (e : Exn) : Exn :=
  match e with
  | .other "ImportError" _ => e
  | e => if e.isOJSError then e
    else .connection ("gRPC call " ++ method ++ " failed: " ++ e.message)

/-- `ack` against a server that answers every request with a response object. -/
def ack (protobuf : Protobuf S) (respond : AckRequest S → Fields) (jobId : String) (result : Json) :
    Except Exn Json :=
  match encodeAck protobuf jobId result with
  | .ok request =>
    .ok (.object [("acknowledged", Fields.get (respond request) "acknowledged" (.bool false))])
  | .error e => .error (mapCallError "Ack" e)

end OpenJobSpec.Grpc
