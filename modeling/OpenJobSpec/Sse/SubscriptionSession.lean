import OpenJobSpec.Errors.ResponseMapper
import OpenJobSpec.Python.Number
import OpenJobSpec.Sse.FrameParser

/-! # One subscription over any number of connections

The network decides what each connection meets, the consumer when it closes the
iterator, and the clock whether a sleep is cut short. A run is driven by the
list of connections; when the list ends first, the last request is unanswered.
-/
namespace OpenJobSpec.Sse
open Errors

structure SubscriptionSession where
  streamUrl : String
  channel : String
  auth : Option String
  malformedData : MalformedDataPolicy
  reconnect : Bool
  maxReconnects : ℕ
  reconnectDelay : Number
  ownsClient : Bool
  channel_ne : channel ≠ ""
  delay_nonneg : 0 ≤ reconnectDelay.value

structure SSEResponse where
  statusCode : ℕ
  headers : Headers
  text : String
  /-- `response.json()`, or the builtin exception it raises -/
  json : Except (BuiltinClass × String) Json
  /-- what reading the whole body raises -/
  aread : Option Raised
  lines : List String
  /-- what the stream raises after these lines; an end of file raises nothing -/
  failure : Option Raised

/-- What a request meets: an exception of the client instead of a response, or a response. -/
inductive Connection
  | refused (failure : Raised)
  | response (r : SSEResponse)

structure Environment where
  loads : Loads
  reader : TextReader
  /-- the event of the n-th connection at which the consumer closes the iterator -/
  closesAt : ℕ → Option ℕ
  /-- what the n-th sleep raises -/
  sleep : ℕ → Option Raised
  /-- what closing the client raises -/
  aclose : Option Raised
  /-- what the client raises over a Last-Event-ID that it cannot send as a header -/
  refuses : String → Option Raised

/-- How one pass over `_consume_once` ends. -/
inductive ConsumeEnd
  | exhausted
  | terminated
  | raised (r : Raised)

inductive SessionOutcome
  | returned
  | raised (r : Raised)
  | closed

structure SessionRun where
  requests : List (List (String × String))
  yielded : List SSEEvent
  sleeps : List ℚ
  clientCloses : ℕ
  outcome : Option SessionOutcome

/-- The except clauses of `_consume_once`. -/
def mapFailure : Raised → Raised
  | .cancelled => .cancelled
  | .exception (.request cls message) =>
    if cls.isInstance .timeoutException then
      .exception (.timeout ("SSE connection timed out: " ++ message))
    else .exception (.connection ("SSE connection failed: " ++ message))
  | .exception e => .exception e

def unreadableBody (message : String) (statusCode : ℕ) : Json :=
  .object [("error", .object [
    ("code", .str "parse_error"),
    ("message", .str message),
    ("retryable", .bool (500 ≤ statusCode))])]

def errorBody (r : SSEResponse) : Except Exn Json :=
  match r.json with
  | .ok body =>
    .ok (if body.isMapping then body
      else unreadableBody "SSE error response was not a JSON object" r.statusCode)
  | .error (.typeError, _) | .error (.valueError, _) =>
    .ok (unreadableBody (if r.text = "" then "Unknown SSE error" else r.text) r.statusCode)
  | .error (cls, message) => .error (.builtin cls message)

/-- `_raise_for_error`: what is raised, if anything. -/
def raiseForError (reader : TextReader) (r : SSEResponse) : Option Raised :=
  if r.statusCode < 400 then none
  else
    match r.aread with
    | some raised => some raised
    | none =>
      match errorBody r with
      | .error e => some (.exception e)
      | .ok body => some (.exception (Errors.raiseForError reader r.statusCode body r.headers))

namespace SubscriptionSession

def create (url channel : String) (auth : Option String) (ownsClient : Bool)
    (malformedData : MalformedDataPolicy) (reconnect : Bool) (maxReconnects : ℤ)
    (reconnectDelay : Number) : Except Exn SubscriptionSession :=
  if hchannel : channel = "" then
    .error (.builtin .valueError "SSE channel must be non-empty")
  else if maxReconnects < 0 then
    .error (.builtin .valueError "max_reconnects cannot be negative")
  else if hdelay : reconnectDelay.value < 0 then
    .error (.builtin .valueError "reconnect_delay cannot be negative")
  else
    .ok {
      streamUrl := Text.rstrip '/' url ++ "/ojs/v1/events/stream"
      channel, auth, malformedData, reconnect
      maxReconnects := maxReconnects.toNat
      reconnectDelay, ownsClient
      channel_ne := hchannel
      delay_nonneg := Number.nonneg_of_not_neg hdelay }

variable (s : SubscriptionSession)

def canReconnect (reconnects : ℕ) : Bool := s.reconnect && reconnects < s.maxReconnects

/-- The sleep before a reconnect. -/
def pause (reconnects : ℕ) : Except Exn ℚ :=
  (s.reconnectDelay.scaled (reconnects - 1)).map fun scaled => min scaled.value 30

def headers (lastEventId : String) : List (String × String) :=
  [("Accept", "text/event-stream"), ("Cache-Control", "no-cache")]
    ++ (match s.auth with
      | some auth => if auth = "" then [] else [("Authorization", "Bearer " ++ auth)]
      | none => [])
    ++ (if lastEventId = "" then [] else [("Last-Event-ID", lastEventId)])

/-- The events of one connection when all of them are asked for, and how the connection ends. -/
def consumeOnce (env : Environment) (lastEventId : String) :
    Connection → List SSEEvent × ConsumeEnd
  | .refused failure => ([], .raised (mapFailure failure))
  | .response r =>
    match raiseForError env.reader r with
    | some failure => ([], .raised (mapFailure failure))
    | none =>
      if r.statusCode = 204 then ([], .terminated)
      else
        match (SSEFrameParser.create s.malformedData lastEventId).feedAll env.loads r.lines with
        | (_, events, some e) => (events, .raised (mapFailure (.exception e)))
        | (p, events, none) =>
          match r.failure with
          | some failure => (events, .raised (mapFailure failure))
          | none => (events ++ p.finish.2.toList, .exhausted)

inductive Next
  | stop (outcome : SessionOutcome)
  | sleep (delay : ℚ)

def sleepNext (reconnects : ℕ) : Next :=
  match s.pause (reconnects + 1) with
  | .error e => .stop (.raised (.exception e))
  | .ok delay => .sleep delay

/-- `except (OJSConnectionError, OJSTimeoutError)`. -/
def lost : Raised → Bool
  | .exception (.connection _) | .exception (.timeout _) | .exception (.executionTimeout _) => true
  | _ => false

def next (reconnects : ℕ) : ConsumeEnd → Next
  | .terminated => .stop .returned
  | .exhausted => if s.canReconnect reconnects then s.sleepNext reconnects else .stop .returned
  | .raised r =>
    if lost r ∧ s.canReconnect reconnects then s.sleepNext reconnects else .stop (.raised r)

/-- Whether the consumer closes the iterator at one of these events. -/
def closesEarly (closesAt : Option ℕ) (events : List SSEEvent) : Bool :=
  match closesAt with
  | some j => j < events.length
  | none => false

/-- The `finally` clause, after a run that makes no further request. -/
def leave (env : Environment) (lastEventId : String) (yielded : List SSEEvent) (sleeps : List ℚ)
    (outcome : SessionOutcome) : SessionRun where
  requests := [s.headers lastEventId]
  yielded := yielded
  sleeps := sleeps
  clientCloses := if s.ownsClient then 1 else 0
  outcome :=
    match s.ownsClient, env.aclose with
    | true, some r => some (.raised r)
    | _, _ => some outcome

/-- The value that `last_event_id` has once these events are yielded. -/
def lastIdOf (lastEventId : String) (events : List SSEEvent) : String :=
  events.foldl (fun _ event => event.id) lastEventId

/-- The loop of `events`, from a number of reconnects and a tracked id. -/
def loop (env : Environment) (reconnects : ℕ) (lastEventId : String) :
    List Connection → SessionRun
  | [] => ⟨[s.headers lastEventId], [], [], 0, none⟩
  | c :: rest =>
    let (events, ended) := s.consumeOnce env lastEventId c
    if closesEarly (env.closesAt reconnects) events then
      s.leave env lastEventId (events.take ((env.closesAt reconnects).getD 0 + 1)) [] .closed
    else
      match s.next reconnects ended with
      | .stop outcome => s.leave env lastEventId events [] outcome
      | .sleep delay =>
        match env.sleep reconnects with
        | some r => s.leave env lastEventId events [delay] (.raised r)
        | none =>
          let tail := loop env (reconnects + 1) (lastIdOf lastEventId events) rest
          ⟨s.headers lastEventId :: tail.requests, events ++ tail.yielded, delay :: tail.sleeps,
            tail.clientCloses, tail.outcome⟩

def events (env : Environment) (connections : List Connection) : SessionRun :=
  s.loop env 0 "" connections

/-! ## Requests that are never sent -/

/-- A request whose Last-Event-ID the client refuses does not get to the network. -/
def meets (env : Environment) (lastEventId : String) (c : Connection) : Connection :=
  match if lastEventId = "" then none else env.refuses lastEventId with
  | some failure => .refused failure
  | none => c

/-- What the requests of one iteration meet on these connections of the network. -/
def met (env : Environment) (lastEventId : String) : List Connection → List Connection
  | [] => []
  | c :: rest =>
    let c := meets env lastEventId c
    c :: met env (lastIdOf lastEventId (s.consumeOnce env lastEventId c).1) rest

/-- One iteration over the connections of a network. -/
def eventsOver (env : Environment) (network : List Connection) : SessionRun :=
  s.events env (s.met env "" network)

end SubscriptionSession

/-- `httpx` over HTTP/1.1: a header is encoded as ASCII, and its value has no blank at an end and no
NUL or line break in it. -/
def httpxRefuses (value : String) : Option Raised :=
  if value.toList.any fun c => 128 ≤ c.toNat then
    some (.exception (.other "UnicodeEncodeError" "'ascii' codec can't encode"))
  else if value.toList.any (fun c => c.toNat = 0 ∨ 10 ≤ c.toNat ∧ c.toNat ≤ 13) ∨
      value.toList.head?.any Char.isWhitespace ∨ value.toList.getLast?.any Char.isWhitespace then
    some (.exception (.request .localProtocolError ("Illegal header value " ++ value)))
  else none

end OpenJobSpec.Sse
