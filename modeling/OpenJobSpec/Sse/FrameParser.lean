import OpenJobSpec.Errors.Hierarchy
import OpenJobSpec.Python.Text

/-! # Incremental parsing of an event stream

The parser is fed one line at a time. It keeps what the lines since the last
blank one said, and the last event ID buffer, which outlives them. Decoding a
payload is the interpreter's, so `json.loads` is a parameter.
-/
namespace OpenJobSpec.Sse

inductive MalformedDataPolicy
  | raise
  | raw
deriving DecidableEq

structure SSEEvent where
  id : String
  type : String
  data : Option Fields
  raw : String
deriving DecidableEq

/-- What `json.loads` raises on a text: its own `JSONDecodeError`, or another exception of the
interpreter, as when the text nests too deep. -/
inductive LoadsError
  | decodeError
  | other (cls : BuiltinClass) (message : String)

abbrev Loads := String → Except LoadsError Json

structure SSEFrameParser where
  malformedData : MalformedDataPolicy
  eventType : String
  lastEventId : String
  dataLines : List String

/-- The event of a block, from its joined data. -/
def blockEvent (loads : Loads) (malformedData : MalformedDataPolicy) (id type raw : String) :
    Except Exn SSEEvent :=
  match loads raw with
  | .error .decodeError =>
    match malformedData with
    | .raw => .ok ⟨id, type, none, raw⟩
    | .raise => .error (.validation "SSE data is not valid JSON")
  | .error (.other cls message) => .error (.builtin cls message)
  | .ok (.object payload) => .ok ⟨id, type, some payload, raw⟩
  | .ok _ =>
    match malformedData with
    | .raw => .ok ⟨id, type, none, raw⟩
    | .raise => .error (.validation "SSE data must be a JSON object")

/-- The field name and the value of a line; one leading space of the value is dropped. -/
def fieldValue (line : String) : String × String :=
  let (field, separator, value) := Text.partition ':' line
  if separator ∧ Text.startsWith ' ' value then (field, String.ofList value.toList.tail)
  else (field, value)

namespace SSEFrameParser

def create (malformedData : MalformedDataPolicy) (initialEventId : String) : SSEFrameParser :=
  ⟨malformedData, "", initialEventId, []⟩

/-- The buffers of a block are cleared before its payload is looked at. -/
def dispatch (loads : Loads) (p : SSEFrameParser) :
    SSEFrameParser × Except Exn (Option SSEEvent) :=
  let raw := Text.join "\n" p.dataLines
  let eventType := if p.eventType = "" then "message" else p.eventType
  let cleared := { p with eventType := "", dataLines := [] }
  if raw = "" then (cleared, .ok none)
  else (cleared, (blockEvent loads p.malformedData p.lastEventId eventType raw).map some)

def feed (loads : Loads) (p : SSEFrameParser) (line : String) :
    SSEFrameParser × Except Exn (Option SSEEvent) :=
  if line = "" then p.dispatch loads
  else if Text.startsWith ':' line then (p, .ok none)
  else
    let (field, value) := fieldValue line
    if field = "event" then ({ p with eventType := value }, .ok none)
    else if field = "id" ∧ ¬ Text.contains "\x00" value then
      ({ p with lastEventId := value }, .ok none)
    else if field = "data" then ({ p with dataLines := p.dataLines ++ [value] }, .ok none)
    else (p, .ok none)

/-- A block that no blank line ended is discarded; the last event ID buffer stays. -/
def finish (p : SSEFrameParser) : SSEFrameParser × Option SSEEvent :=
  ({ p with eventType := "", dataLines := [] }, none)

/-- The lines of one connection: the events they give, and the exception that stopped them. -/
def feedAll (loads : Loads) (p : SSEFrameParser) :
    List String → SSEFrameParser × List SSEEvent × Option Exn
  | [] => (p, [], none)
  | line :: rest =>
    match p.feed loads line with
    | (q, .error e) => (q, [], some e)
    | (q, .ok event) =>
      let (r, events, error) := feedAll loads q rest
      (r, event.toList ++ events, error)

end SSEFrameParser

end OpenJobSpec.Sse
