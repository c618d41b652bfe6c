import OpenJobSpec.Foundation.CursorPaging
import OpenJobSpec.Foundation.ExceptRules
import OpenJobSpec.Python.Access
import OpenJobSpec.Wire.Queue

/-! # Offset pages over the cursors of a gRPC backend -/
namespace OpenJobSpec.Grpc
open CursorPaging ExceptRules

structure OffsetPage where
  items : List Json
  total : ℤ
  nextCursor : String
deriving DecidableEq

/-- What the loop carries from one page to the next. -/
structure Collecting where
  remainingSkip : ℕ
  collected : List Json := []
  cursor : String := ""
  nextCursor : String := ""
  total : ℤ := 0
  seenCursors : List String := []

inductive Turn (α β : Type)
  | again (state : α)
  | done (result : β)

def rawItems (itemsKey : String) (response : Fields) : Except Exn (List Json) :=
  match Fields.get response itemsKey (.array []) with
  | .array items => .ok items
  | _ => .error (.validation ("gRPC " ++ itemsKey ++ " response must be an array"))

/-- A boolean is an integer to the interpreter; what is no integer leaves the total as it was. -/
def rawTotal (reader : TextReader) (total : ℤ) (response : Fields) : Except Exn ℤ :=
  match Fields.get response "total_count" (.int total) with
  | .int n => .ok n
  | .bool b => .ok (if b then 1 else 0)
  | .str text =>
    match reader.int text with
    | some n => .ok n
    | none => .error (.validation "gRPC total_count response must be an integer")
  | _ => .ok total

def rawNext (response : Fields) : String :=
  match Fields.get response "next_cursor" (.str "") with
  | .str cursor => cursor
  | _ => ""

def repeatedCursor : Exn := .validation "gRPC pagination returned a repeated cursor"

/-- The body of the loop once a response is there. -/
def collectPage (reader : TextReader) (itemsKey : String) (limit : ℕ) (c : Collecting)
    (response : Fields) : Except Exn (Turn Collecting OffsetPage) := do
  let pageItems ← rawItems itemsKey response
  let total ← rawTotal reader c.total response
  let nextCursor := rawNext response
  let skipped := min c.remainingSkip pageItems.length
  let remainingSkip := c.remainingSkip - skipped
  let collected := c.collected ++ (pageItems.drop skipped).take (limit - c.collected.length)
  if limit ≤ collected.length ∨ nextCursor = "" then .ok (.done ⟨collected, total, nextCursor⟩)
  else if nextCursor ∈ c.seenCursors then .error repeatedCursor
  else
    .ok (.again {
      remainingSkip, collected, nextCursor, total
      cursor := nextCursor
      seenCursors := nextCursor :: c.seenCursors })

variable {σ : Type}

/-- A page ends its loop, or the loop goes on behind it. -/
def proceed {α β : Type} (loop : α → σ → Option (Except Raised β × σ)) (after : σ) :
    Except Exn (Turn α β) → Option (Except Raised β × σ)
  | .error e => some (.error (.exception e), after)
  | .ok (.done result) => some (.ok result, after)
  | .ok (.again state) => loop state after

/-- `while len(collected) < limit`, for at most `fuel` pages. -/
def collectLoop (reader : TextReader) (fetchPage : σ → ℕ → String → Except Raised Fields × σ)
    (itemsKey : String) (limit : ℕ) :
    ℕ → Collecting → σ → Option (Except Raised OffsetPage × σ)
  | 0, _, _ => none
  | fuel + 1, c, s =>
    if limit ≤ c.collected.length then some (.ok ⟨c.collected, c.total, c.nextCursor⟩, s)
    else
      let requested := c.remainingSkip + (limit - c.collected.length)
      match fetchPage s requested c.cursor with
      | (.error raised, after) => some (.error raised, after)
      | (.ok response, after) =>
        proceed (collectLoop reader fetchPage itemsKey limit fuel) after
          (collectPage reader itemsKey limit c response)

def validatePage (limit offset : ℤ) : Except Exn Unit :=
  if limit < 1 then .error (.validation "pagination limit must be at least 1")
  else if offset < 0 then .error (.validation "pagination offset cannot be negative")
  else .ok ()

def collectOffsetPage (reader : TextReader)
    (fetchPage : σ → ℕ → String → Except Raised Fields × σ) (itemsKey : String)
    (limit offset : ℤ) (fuel : ℕ) (s : σ) : Option (Except Raised OffsetPage × σ) :=
  match validatePage limit offset with
  | .error e => some (.error (.exception e), s)
  | .ok () =>
    collectLoop reader fetchPage itemsKey limit.toNat fuel { remainingSkip := offset.toNat } s

def sliceOffsetPage (items : List Json) (limit offset : ℤ) : Except Exn OffsetPage := do
  validatePage limit offset
  return ⟨(items.drop offset.toNat).take limit.toNat, items.length, ""⟩

/-! ## Listing queues -/

def pageRequest (limit : ℕ) (cursor : String) : Fields :=
  [("limit", .int limit)] ++ if cursor = "" then [] else [("cursor", .str cursor)]

def listedQueue (reader : TextReader) (queueData : Json) : Except Exn Queue := do
  let name ← queueData.getMethod "name" (.str "")
  let paused ← queueData.getMethod "paused" .null
  let status := if paused.truthy then "paused" else "active"
  Queue.fromDict reader (.object [("name", name), ("status", .str status)])

structure Listing where
  queues : List Queue := []
  cursor : String := ""
  seenCursors : List String := []

def listPage (reader : TextReader) (l : Listing) (response : Fields) :
    Except Exn (Turn Listing (List Queue)) := do
  let entries ← (Fields.get response "queues" (.array [])).iterate
  let page ← entries.mapM (listedQueue reader)
  let queues := l.queues ++ page
  let nextCursor := rawNext response
  if nextCursor = "" then .ok (.done queues)
  else if nextCursor ∈ l.seenCursors then
    .error (.connection "gRPC queue pagination returned a repeated cursor")
  else
    .ok (.again { queues, cursor := nextCursor, seenCursors := nextCursor :: l.seenCursors })

def listLoop (reader : TextReader) (call : σ → Fields → Except Raised Fields × σ) :
    ℕ → Listing → σ → Option (Except Raised (List Queue) × σ)
  | 0, _, _ => none
  | fuel + 1, l, s =>
    match call s (pageRequest 100 l.cursor) with
    | (.error raised, after) => some (.error raised, after)
    | (.ok response, after) =>
      proceed (listLoop reader call fuel) after (listPage reader l response)

def listQueues (reader : TextReader) (call : σ → Fields → Except Raised Fields × σ) (fuel : ℕ)
    (s : σ) : Option (Except Raised (List Queue) × σ) := listLoop reader call fuel {} s

end OpenJobSpec.Grpc
