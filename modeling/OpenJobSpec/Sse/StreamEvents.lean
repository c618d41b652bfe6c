import OpenJobSpec.Sse.EventStream
import Mathlib.Data.List.Infix
import Mathlib.Data.List.TakeWhile

/-! # The events of a stream

What a stream says can be read without a parser. Its blocks are what stands
between its blank lines. A block with data gives one event, whose id is the
last one announced before the end of the block, in whichever block that was.
-/
namespace OpenJobSpec.Sse

/-- Decoding a payload as a partial function: what it does not decode is not JSON. -/
def partialLoads (decode : String → Option Json) : Loads := fun raw =>
  match decode raw with
  | some payload => .ok payload
  | none => .error .decodeError

/-- The object a payload holds. -/
def payloadObject (decode : String → Option Json) (raw : String) : Option Fields :=
  match decode raw with
  | some (.object payload) => some payload
  | _ => none

def Block.event (decode : String → Option Json) (id : String) (b : Block) : Option SSEEvent :=
  if b.data = "" then none
  else some ⟨id, b.type, payloadObject decode b.data, b.data⟩

/-- The event of the last of some blocks. -/
def lastEvent (decode : String → Option Json) (id : String) (bs : List Block) : Option SSEEvent :=
  bs.getLast?.bind (Block.event decode (idAfter id bs.flatten))

/-- The blocks that a blank line ended, each read together with the blocks before it. -/
def streamEvents (decode : String → Option Json) (id : String) (lines : List String) :
    List SSEEvent :=
  (lines.splitOn "").dropLast.inits.filterMap (lastEvent decode id)

/-- A comment, or a line whose field has none of the three names. -/
def ignored (line : String) : Bool :=
  line ≠ "" ∧ (Text.startsWith ':' line ∨ (fieldValue line).1 ∉ ["event", "id", "data"])

theorem blocksFrom_eq_splitOnPPrepend (lines : List String) (block : Block) :
    blocksFrom block.reverse lines = (lines.splitOnPPrepend (· == "") block).dropLast := by
  induction lines generalizing block with
  | nil => rfl
  | cons line rest ih =>
    rw [blocksFrom, List.splitOnPPrepend_cons_eq_if]
    by_cases hline : line = ""
    · have hrest := ih []
      rw [List.splitOnPPrepend_nil_right] at hrest
      rw [if_pos hline, if_pos (beq_iff_eq.mpr hline),
        List.dropLast_cons_of_ne_nil (List.splitOnP_ne_nil _ _), ← hrest]
      rfl
    · rw [if_neg hline, if_neg (by simpa using hline), ← ih, List.reverse_cons]

theorem blocks_eq_splitOn (lines : List String) : blocks lines = (lines.splitOn "").dropLast :=
  blocksFrom_eq_splitOnPPrepend lines []

theorem blocksFrom_append {tail : List String} (htail : "" ∉ tail) (block : Block)
    (lines : List String) : blocksFrom block (lines ++ tail) = blocksFrom block lines := by
  induction lines generalizing block with
  | nil =>
    rw [List.nil_append, blocksFrom]
    induction tail generalizing block with
    | nil => rfl
    | cons line rest ih =>
      obtain ⟨hline, hrest⟩ := not_or.mp (List.mem_cons.not.mp htail)
      rw [blocksFrom, if_neg (Ne.symm hline), ih hrest]
  | cons line rest ih =>
    rw [List.cons_append, blocksFrom, blocksFrom, ih, ih]

theorem blockEvent_partialLoads (decode : String → Option Json) (id type raw : String) :
    blockEvent (partialLoads decode) .raw id type raw =
      .ok ⟨id, type, payloadObject decode raw, raw⟩ := by
  unfold blockEvent partialLoads payloadObject
  rcases decode raw with _ | payload
  · rfl
  · cases payload <;> rfl

/-- The events of a connection's blocks are the events of the stream. -/
theorem readBlocks_eq (decode : String → Option Json) (id : String) (bs : List Block) :
    readBlocks (partialLoads decode) .raw id bs = (bs.inits.filterMap (lastEvent decode id), none)
    := by
  induction bs using List.reverseRecOn with
  | nil => rfl
  | append_singleton bs b ih =>
    have hlast : lastEvent decode id (bs ++ [b]) =
        b.event decode (idAfter (idAfter id bs.flatten) b) := by
      rw [lastEvent, List.getLast?_concat, Option.bind_some, List.flatten_append,
        List.flatten_singleton, idAfter_append]
    have hinits : (bs ++ [b]).inits = bs.inits ++ [bs ++ [b]] := by
      rw [List.inits_append]
      rfl
    rw [readBlocks_append, ih, hinits, List.filterMap_append, List.filterMap_cons, hlast,
      Block.event]
    by_cases hb : b.data = ""
    · simp [readBlocks, Block.quiet, hb]
    · simp [readBlocks, Block.quiet, hb, blockEvent_partialLoads]

namespace SSEFrameParser
variable (p : SSEFrameParser) (loads : Loads)

/-- All lines of a connection, then its end. -/
def parse (lines : List String) : List SSEEvent × Option Exn :=
  match p.feedAll loads lines with
  | (_, events, some e) => (events, some e)
  | (q, events, none) => (events ++ q.finish.2.toList, none)

theorem parse_eq (lines : List String) : p.parse loads lines = (p.feedAll loads lines).2 := by
  unfold parse
  rcases p.feedAll loads lines with ⟨q, events, _ | e⟩
  · exact congrArg (·, none) (List.append_nil events)
  · rfl

theorem feed_ignored {line : String} (h : ignored line = true) :
    p.feed loads line = (p, .ok none) := by
  obtain ⟨hline, h⟩ := of_decide_eq_true h
  rw [feed, if_neg hline]
  rcases h with hcomment | hfield
  · rw [if_pos hcomment]
  · simp only [List.mem_cons, List.not_mem_nil, or_false, not_or] at hfield
    obtain ⟨hevent, hid, hdata⟩ := hfield
    simp only [hevent, hid, hdata, false_and, if_false, ite_self]

theorem parse_filter_ignored (lines : List String) :
    p.parse loads (lines.filter fun line => ¬ ignored line) = p.parse loads lines := by
  rw [parse_eq, parse_eq]
  induction lines generalizing p with
  | nil => rfl
  | cons line rest ih =>
    by_cases h : ignored line = true
    · rw [List.filter_cons_of_neg (by simp [h]), ih, feedAll, feed_ignored p loads h]
      rfl
    · rw [List.filter_cons_of_pos (by simp [h]), feedAll, feedAll]
      rcases p.feed loads line with ⟨q, e | event⟩
      · rfl
      · have hq := ih q
        rcases hq₁ : q.feedAll loads rest with ⟨r, events, error⟩
        simp only [hq, hq₁]

end SSEFrameParser

section Fields
variable {name : String} (h : ':' ∉ name.toList)
include h

theorem partition_name : Text.partition ':' name = (name, false, "") := by
  have htake : name.toList.takeWhile (· ≠ ':') = name.toList :=
    List.takeWhile_eq_self_iff.mpr fun _ hc => by simpa using ne_of_mem_of_not_mem hc h
  have hdrop : name.toList.dropWhile (· ≠ ':') = [] :=
    List.dropWhile_eq_nil_iff.mpr fun _ hc => by simpa using ne_of_mem_of_not_mem hc h
  simp only [Text.partition, htake, hdrop, String.ofList_toList]
  rfl

theorem partition_field (value : String) :
    Text.partition ':' (name ++ ":" ++ value) = (name, true, value) := by
  have hne : ∀ c ∈ name.toList, decide (c ≠ ':') = true := fun c hc => by
    simpa using ne_of_mem_of_not_mem hc h
  have htext : (name ++ ":" ++ value).toList = name.toList ++ ':' :: value.toList := by simp
  have htake : (name ++ ":" ++ value).toList.takeWhile (· ≠ ':') = name.toList := by
    rw [htext, List.takeWhile_append_of_pos hne, List.takeWhile_cons_of_neg (by simp),
      List.append_nil]
  have hdrop : (name ++ ":" ++ value).toList.dropWhile (· ≠ ':') = ':' :: value.toList := by
    rw [htext, List.dropWhile_append_of_pos hne, List.dropWhile_cons_of_neg (by simp)]
  simp only [Text.partition, htake, hdrop, List.tail_cons, String.ofList_toList]
  rfl

theorem fieldValue_name : fieldValue name = (name, "") := by
  simp [fieldValue, partition_name h]

theorem fieldValue_spaced (value : String) :
    fieldValue (name ++ ":" ++ " " ++ value) = (name, value) := by
  have hspaced : name ++ ":" ++ " " ++ value = name ++ ":" ++ (" " ++ value) :=
    String.append_assoc
  have hspace : (" " ++ value).toList = ' ' :: value.toList := by simp
  simp [fieldValue, hspaced, partition_field h, Text.startsWith, hspace]

theorem fieldValue_plain {value : String} (hvalue : Text.startsWith ' ' value = false) :
    fieldValue (name ++ ":" ++ value) = (name, value) := by
  simp [fieldValue, partition_field h, hvalue]

end Fields

/-- From any initial id, the parser gives the events of the stream. A comment or a line with an
unknown field changes nothing, nor does a block that no blank line ends, and one leading space of
a value is dropped. -/
theorem parse_gives_stream_events (decode : String → Option Json) (id : String)
    (lines : List String) :
    (SSEFrameParser.create .raw id).parse (partialLoads decode) lines =
        (streamEvents decode id lines, none) ∧
      streamEvents decode id (lines.filter fun line => ¬ ignored line) =
        streamEvents decode id lines ∧
      (∀ tail, "" ∉ tail → streamEvents decode id (lines ++ tail) = streamEvents decode id lines) ∧
      ∀ name : String, ':' ∉ name.toList →
        fieldValue name = (name, "") ∧
        (∀ value, fieldValue (name ++ ":" ++ " " ++ value) = (name, value)) ∧
        ∀ value, Text.startsWith ' ' value = false →
          fieldValue (name ++ ":" ++ value) = (name, value) := by
  have hparse : ∀ lines, (SSEFrameParser.create .raw id).parse (partialLoads decode) lines =
      (streamEvents decode id lines, none) := fun lines => by
    rw [SSEFrameParser.parse_eq, SSEFrameParser.feedAll_create, readBlocks_eq, blocks_eq_splitOn,
      streamEvents]
  refine ⟨hparse lines, ?_, fun tail htail => ?_, fun name h => ⟨fieldValue_name h,
    fieldValue_spaced h, fun value => fieldValue_plain h⟩⟩
  · have hfilter := SSEFrameParser.parse_filter_ignored (SSEFrameParser.create .raw id)
      (partialLoads decode) lines
    rw [hparse, hparse] at hfilter
    exact congrArg Prod.fst hfilter
  · rw [streamEvents, streamEvents, ← blocks_eq_splitOn, ← blocks_eq_splitOn, blocks, blocks,
      blocksFrom_append htail]

end OpenJobSpec.Sse
