import OpenJobSpec.Sse.FrameParser
import Mathlib.Data.List.Basic

/-! # The blocks of an event stream

A stream is a sequence of blocks, each ended by a blank line. What a block says
is read off its lines: the fields named `data` in order, the last field named
`event`, and the last field named `id` whose value has no NUL. The parser gives
the events of the blocks and nothing else.
-/
namespace OpenJobSpec.Sse

/-- The value of a line's field, when the line is not a comment and its field has this name. -/
def valueOf (name line : String) : Option String :=
  if Text.startsWith ':' line ∨ (fieldValue line).1 ≠ name then none else some (fieldValue line).2

def idValue (line : String) : Option String :=
  (valueOf "id" line).filter fun value => ¬ Text.contains "\x00" value

abbrev Block := List String

namespace Block

def data (b : Block) : String := Text.join "\n" (b.filterMap (valueOf "data"))

def eventType (b : Block) : String := (b.filterMap (valueOf "event")).getLast?.getD ""

def type (b : Block) : String := if b.eventType = "" then "message" else b.eventType

/-- A block without data, or with empty data only, gives no event. -/
def quiet (b : Block) : Bool := b.data = ""

end Block

/-- The last event ID buffer after some lines. -/
def idAfter (id : String) (lines : List String) : String :=
  (lines.filterMap idValue).getLast?.getD id

def blocksFrom (block : Block) : List String → List Block
  | [] => []
  | line :: rest =>
    if line = "" then block :: blocksFrom [] rest else blocksFrom (block ++ [line]) rest

/-- The blocks that a blank line ended; the lines after the last blank one belong to none. -/
def blocks (lines : List String) : List Block := blocksFrom [] lines

/-- The events of the blocks, up to one whose payload raises. -/
def readBlocks (loads : Loads) (malformedData : MalformedDataPolicy) (id : String) :
    List Block → List SSEEvent × Option Exn
  | [] => ([], none)
  | b :: rest =>
    if b.quiet then readBlocks loads malformedData (idAfter id b) rest
    else
      match blockEvent loads malformedData (idAfter id b) b.type b.data with
      | .error e => ([], some e)
      | .ok event =>
        let (events, error) := readBlocks loads malformedData (idAfter id b) rest
        (event :: events, error)

theorem idAfter_nil (id : String) : idAfter id [] = id := rfl

theorem getLast?_append_getD (xs ys : List String) (z : String) :
    (xs ++ ys).getLast?.getD z = ys.getLast?.getD (xs.getLast?.getD z) := by
  rw [List.getLast?_append]
  cases ys.getLast? <;> rfl

theorem idAfter_append (id : String) (xs ys : List String) :
    idAfter id (xs ++ ys) = idAfter (idAfter id xs) ys := by
  rw [idAfter, List.filterMap_append, getLast?_append_getD]
  rfl

theorem blockEvent_id {loads : Loads} {malformedData : MalformedDataPolicy}
    {id type raw : String} {event : SSEEvent}
    (h : blockEvent loads malformedData id type raw = .ok event) : event.id = id := by
  unfold blockEvent at h
  split at h
  · split at h <;> cases h
    rfl
  · cases h
  · cases h
    rfl
  · split at h <;> cases h
    rfl

theorem readBlocks_append (loads : Loads) (malformedData : MalformedDataPolicy) (id : String)
    (xs ys : List Block) :
    readBlocks loads malformedData id (xs ++ ys) =
      match readBlocks loads malformedData id xs with
      | (events, some e) => (events, some e)
      | (events, none) =>
        (events ++ (readBlocks loads malformedData (idAfter id xs.flatten) ys).1,
          (readBlocks loads malformedData (idAfter id xs.flatten) ys).2) := by
  induction xs generalizing id with
  | nil => rfl
  | cons b rest ih =>
    rw [List.cons_append, readBlocks, readBlocks, List.flatten_cons, idAfter_append]
    by_cases hq : b.quiet = true
    · rw [if_pos hq, if_pos hq, ih]
    · rw [if_neg hq, if_neg hq]
      cases blockEvent loads malformedData (idAfter id b) b.type b.data with
      | error e => rfl
      | ok event =>
        rw [ih]
        rcases readBlocks loads malformedData (idAfter id b) rest with ⟨events, _ | e⟩
        · rfl
        · rfl

namespace SSEFrameParser
variable (p : SSEFrameParser) (loads : Loads)

/-- The parser after it has read the lines of an unfinished block. -/
def reading (block : Block) : SSEFrameParser :=
  { p with
    eventType := (block.filterMap (valueOf "event")).getLast?.getD p.eventType
    lastEventId := idAfter p.lastEventId block
    dataLines := p.dataLines ++ block.filterMap (valueOf "data") }

theorem reading_nil : p.reading [] = p := by
  simp [reading, idAfter_nil]

theorem reading_append (xs ys : Block) : p.reading (xs ++ ys) = (p.reading xs).reading ys := by
  simp only [reading, List.filterMap_append, getLast?_append_getD, idAfter_append,
    List.append_assoc]

theorem valueOf_comment {line : String} (h : Text.startsWith ':' line = true) (name : String) :
    valueOf name line = none := if_pos (Or.inl h)

theorem valueOf_other {line name : String} (h : (fieldValue line).1 ≠ name) :
    valueOf name line = none := if_pos (Or.inr h)

theorem valueOf_self {line name : String} (hc : Text.startsWith ':' line ≠ true)
    (h : (fieldValue line).1 = name) : valueOf name line = some (fieldValue line).2 :=
  if_neg (not_or.mpr ⟨hc, not_not.mpr h⟩)

/-- A line that is not blank is read into the block, and gives no event. -/
theorem feed_line {line : String} (h : line ≠ "") :
    p.feed loads line = (p.reading [line], .ok none) := by
  rw [feed, if_neg h]
  by_cases hc : Text.startsWith ':' line = true
  · simp [hc, reading, idAfter, idValue, valueOf_comment hc]
  rw [if_neg hc]
  by_cases hevent : (fieldValue line).1 = "event"
  · have hid : valueOf "id" line = none := valueOf_other (by rw [hevent]; decide)
    have hdata : valueOf "data" line = none := valueOf_other (by rw [hevent]; decide)
    simp [hevent, reading, idAfter, idValue, hid, hdata, valueOf_self hc hevent]
  have hev : valueOf "event" line = none := valueOf_other hevent
  by_cases hid : (fieldValue line).1 = "id"
  · have hdata : valueOf "data" line = none := valueOf_other (by rw [hid]; decide)
    by_cases hnul : Text.contains "\x00" (fieldValue line).2 = true
    · simp [hid, hnul, reading, idAfter, idValue, hev, hdata, valueOf_self hc hid]
    · simp [hid, hnul, reading, idAfter, idValue, hev, hdata, valueOf_self hc hid, Option.filter]
  have hi : valueOf "id" line = none := valueOf_other hid
  by_cases hdata : (fieldValue line).1 = "data"
  · simp [hdata, reading, idAfter, idValue, hev, hi, valueOf_self hc hdata]
  · simp [hevent, hid, hdata, reading, idAfter, idValue, hev, hi, valueOf_other hdata]

/-- A blank line gives the event of the block, if it has data, and leaves a parser that has read
nothing but remembers the id. -/
theorem dispatch_reading (malformedData : MalformedDataPolicy) (id : String) (b : Block) :
    ((create malformedData id).reading b).dispatch loads =
      (create malformedData (idAfter id b),
        if b.quiet then .ok none
        else (blockEvent loads malformedData (idAfter id b) b.type b.data).map some) := by
  by_cases hb : b.data = ""
  · have hraw : Text.join "\n" (b.filterMap (valueOf "data")) = "" := hb
    simp [dispatch, reading, create, hraw, Block.quiet, hb]
  · have hraw : Text.join "\n" (b.filterMap (valueOf "data")) ≠ "" := hb
    simp only [dispatch, reading, create, List.nil_append, hraw, if_false, Block.quiet, hb,
      decide_false, Bool.false_eq_true]
    rfl

theorem feedAll_reading (malformedData : MalformedDataPolicy) (lines : List String) (id : String)
    (block : Block) :
    (feedAll loads ((create malformedData id).reading block) lines).2 =
      readBlocks loads malformedData id (blocksFrom block lines) := by
  induction lines generalizing id block with
  | nil => rfl
  | cons line rest ih =>
    rw [feedAll, blocksFrom]
    by_cases hline : line = ""
    · have hfresh := ih (idAfter id block) []
      rw [reading_nil] at hfresh
      rw [if_pos hline, readBlocks, feed, if_pos hline, dispatch_reading]
      by_cases hq : block.quiet = true
      · rw [if_pos hq, if_pos hq, ← hfresh]
        rfl
      · rw [if_neg hq, if_neg hq]
        cases blockEvent loads malformedData (idAfter id block) block.type block.data with
        | error e => rfl
        | ok event =>
          rw [← hfresh]
          rfl
    · rw [if_neg hline, feed_line _ _ hline, ← reading_append, ← ih]
      rfl

/-- What one connection's lines give: the events of the blocks that a blank line ended. -/
theorem feedAll_create (malformedData : MalformedDataPolicy) (id : String) (lines : List String) :
    (feedAll loads (create malformedData id) lines).2 =
      readBlocks loads malformedData id (blocks lines) := by
  rw [blocks, ← feedAll_reading, reading_nil]

end SSEFrameParser

end OpenJobSpec.Sse
