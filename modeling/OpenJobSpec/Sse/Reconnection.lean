import OpenJobSpec.Sse.EventStream
import OpenJobSpec.Sse.SubscriptionSession
import Mathlib.Data.List.DropRight

/-! # Which connections another connection follows

Whether the loop goes on after a connection does not depend on the tracked id.
It depends on how the connection ends, on the payloads of its blocks, on the
consumer, and on the sleep.
-/
namespace OpenJobSpec.Sse
open Errors (raiseForError_object)

/-- A payload that gives an event rather than an exception. -/
def Readable (loads : Loads) (malformedData : MalformedDataPolicy) (raw : String) : Prop :=
  match loads raw with
  | .error (.other ..) => False
  | .ok (.object _) => True
  | _ => malformedData = .raw

/-- A connection error or a timeout, raised by the client library or already by the SDK. -/
def Loss : Raised → Prop
  | .exception (.request ..) | .exception (.connection _) | .exception (.timeout _)
  | .exception (.executionTimeout _) => True
  | _ => False

namespace Connection

/-- The lines that a connection delivers to the parser. -/
def lines : Connection → List String
  | .refused _ => []
  | .response r => if r.statusCode < 400 ∧ r.statusCode ≠ 204 then r.lines else []

def eventCount (c : Connection) : ℕ := (blocks c.lines).countP fun b => ¬ b.quiet

/-- The connection is lost, or its stream comes to its end with every payload readable. -/
def Drops (loads : Loads) (malformedData : MalformedDataPolicy) : Connection → Prop
  | .refused failure => Loss failure
  | .response r =>
    if r.statusCode < 400 then
      r.statusCode ≠ 204 ∧
      (∀ b ∈ blocks r.lines, b.quiet = false → Readable loads malformedData b.data) ∧
      ∀ failure, r.failure = some failure → Loss failure
    else ∃ failure, r.aread = some failure ∧ Loss failure

end Connection

/-- What another connection after the n-th one takes. -/
structure Followed (s : SubscriptionSession) (env : Environment) (n : ℕ) (c : Connection) :
    Prop where
  allowed : s.canReconnect n = true
  drops : c.Drops env.loads s.malformedData
  consumed : ∀ j, env.closesAt n = some j → c.eventCount ≤ j
  paused : ∃ delay, s.pause (n + 1) = .ok delay
  slept : env.sleep n = none

theorem blockEvent_ok_iff (loads : Loads) (malformedData : MalformedDataPolicy)
    (id type raw : String) :
    (∃ event, blockEvent loads malformedData id type raw = .ok event) ↔
      Readable loads malformedData raw := by
  unfold blockEvent Readable
  rcases loads raw with (_ | _) | v
  · cases malformedData <;> simp
  · simp
  · cases v <;> cases malformedData <;> simp

section Blocks
variable (loads : Loads) (malformedData : MalformedDataPolicy)

theorem readBlocks_readable_iff (id : String) (bs : List Block) :
    (readBlocks loads malformedData id bs).2 = none ↔
      ∀ b ∈ bs, b.quiet = false → Readable loads malformedData b.data := by
  induction bs generalizing id with
  | nil => simp [readBlocks]
  | cons b rest ih =>
    rw [readBlocks, List.forall_mem_cons]
    by_cases hq : b.quiet = true
    · simp [hq, ih]
    · have hb := blockEvent_ok_iff loads malformedData (idAfter id b) b.type b.data
      rw [if_neg hq, ← hb]
      rcases blockEvent loads malformedData (idAfter id b) b.type b.data with e | event
      · simp [hq]
      · simpa [hq] using ih (idAfter id b)

/-- Every block with data gives one event. -/
theorem readBlocks_length {id : String} {bs : List Block}
    (h : (readBlocks loads malformedData id bs).2 = none) :
    (readBlocks loads malformedData id bs).1.length = bs.countP fun b => ¬ b.quiet := by
  induction bs generalizing id with
  | nil => rfl
  | cons b rest ih =>
    rw [readBlocks] at h ⊢
    by_cases hq : b.quiet = true
    · rw [if_pos hq] at h ⊢
      rw [ih h, List.countP_cons_of_neg (by simp [hq])]
    · rw [if_neg hq] at h ⊢
      rw [List.countP_cons_of_pos (by simp [hq])]
      rcases hb : blockEvent loads malformedData (idAfter id b) b.type b.data with e | event
      · rw [hb] at h
        cases h
      · rw [hb] at h
        rw [← ih h, List.length_cons]

/-- The id of the last event is the id in force at the last block with data. -/
theorem readBlocks_lastId {id : String} {bs : List Block}
    (h : (readBlocks loads malformedData id bs).2 = none) :
    SubscriptionSession.lastIdOf id (readBlocks loads malformedData id bs).1 =
      idAfter id (bs.rdropWhile Block.quiet).flatten := by
  induction bs using List.reverseRecOn with
  | nil => rfl
  | append_singleton bs b ih =>
    rw [readBlocks_append] at h ⊢
    rw [List.rdropWhile_concat]
    rcases hbs : readBlocks loads malformedData id bs with ⟨events, _ | e⟩
    · simp only [hbs, readBlocks] at ih h ⊢
      by_cases hq : b.quiet = true
      · simp only [if_pos hq, List.append_nil]
        exact ih trivial
      · simp only [if_neg hq] at h ⊢
        rcases hb : blockEvent loads malformedData (idAfter (idAfter id bs.flatten) b) b.type b.data
          with e | event
        · rw [hb] at h
          cases h
        · simp only [SubscriptionSession.lastIdOf, List.foldl_append, List.foldl_cons,
            List.foldl_nil, blockEvent_id hb, List.flatten_append, List.flatten_cons,
            List.flatten_nil, List.append_nil, idAfter_append]
    · rw [hbs] at h
      cases h

end Blocks

/-- The pass ended in a way that allows another connection. -/
def ConsumeEnd.Resumes : ConsumeEnd → Prop
  | exhausted => True
  | terminated => False
  | raised r => SubscriptionSession.lost r = true

theorem lost_mapFailure_iff (r : Raised) :
    SubscriptionSession.lost (mapFailure r) = true ↔ Loss r := by
  rcases r with e | _
  · cases e with
    | request cls message =>
      by_cases h : cls.isInstance .timeoutException = true
      · simp [mapFailure, h, SubscriptionSession.lost, Loss]
      · simp [mapFailure, h, SubscriptionSession.lost, Loss]
    | _ => simp [mapFailure, SubscriptionSession.lost, Loss]
  · simp [mapFailure, SubscriptionSession.lost, Loss]

theorem blockEvent_not_loss {loads : Loads} {malformedData : MalformedDataPolicy}
    {id type raw : String} {e : Exn} (h : blockEvent loads malformedData id type raw = .error e) :
    ¬ Loss (.exception e) := by
  unfold blockEvent at h
  split at h
  · split at h <;> cases h
    exact not_false
  · cases h
    exact not_false
  · cases h
  · split at h <;> cases h
    exact not_false

/-- An exception of the parser is no loss of the connection. -/
theorem readBlocks_not_loss {loads : Loads} {malformedData : MalformedDataPolicy} {id : String}
    {bs : List Block} {e : Exn} (h : (readBlocks loads malformedData id bs).2 = some e) :
    ¬ Loss (.exception e) := by
  induction bs generalizing id with
  | nil => cases h
  | cons b rest ih =>
    rw [readBlocks] at h
    by_cases hq : b.quiet = true
    · rw [if_pos hq] at h
      exact ih h
    · rw [if_neg hq] at h
      rcases hb : blockEvent loads malformedData (idAfter id b) b.type b.data with e' | event
      · rw [hb] at h
        cases h
        exact blockEvent_not_loss hb
      · rw [hb] at h
        exact ih h

/-- An error response is answered with an API error, unless its body could not be read. -/
theorem raiseForError_eq_none_iff (reader : TextReader) (r : SSEResponse) :
    raiseForError reader r = none ↔ r.statusCode < 400 := by
  unfold raiseForError
  by_cases h : r.statusCode < 400
  · simp [h]
  · rw [if_neg h]
    rcases r.aread with _ | raised
    · cases errorBody r <;> simp [h]
    · simp [h]

theorem raiseForError_of_error (reader : TextReader) {r : SSEResponse}
    (h : ¬ r.statusCode < 400) : ∃ failure, raiseForError reader r = some failure := by
  rcases hraise : raiseForError reader r with _ | failure
  · exact absurd ((raiseForError_eq_none_iff reader r).mp hraise) h
  · exact ⟨failure, rfl⟩

theorem errorBody_not_loss {r : SSEResponse} {e : Exn} (h : errorBody r = .error e) :
    ¬ Loss (.exception e) := by
  unfold errorBody at h
  split at h
  · cases h
  · cases h
  · cases h
  · cases h
    exact not_false

theorem errorBody_isMapping {r : SSEResponse} {body : Json} (h : errorBody r = .ok body) :
    body.isMapping = true := by
  unfold errorBody at h
  split at h
  next body' _ =>
    cases h
    by_cases hm : body'.isMapping = true
    · rw [if_pos hm]
      exact hm
    · rw [if_neg hm]
      rfl
  next => cases h; rfl
  next => cases h; rfl
  next => cases h

theorem raiseForError_loss_iff (reader : TextReader) {r : SSEResponse}
    (h : ¬ r.statusCode < 400) :
    (∃ failure, raiseForError reader r = some failure ∧ Loss failure) ↔
      ∃ failure, r.aread = some failure ∧ Loss failure := by
  unfold raiseForError
  rw [if_neg h]
  rcases r.aread with _ | raised
  · have hno : ∀ failure, ¬ ((none : Option Raised) = some failure ∧ Loss failure) :=
      fun _ hf => by cases hf.1
    refine iff_of_false ?_ (not_exists.mpr hno)
    rintro ⟨failure, hf, hloss⟩
    rcases hb : errorBody r with e | body
    · rw [hb] at hf
      cases hf
      exact errorBody_not_loss hb hloss
    · obtain ⟨e, he, _⟩ := raiseForError_object reader r.statusCode r.headers
        (errorBody_isMapping hb)
      simp only [hb, he, Option.some.injEq] at hf
      subst hf
      exact hloss
  · rfl

section Consume
variable (s : SubscriptionSession) (env : Environment) (id : String)

/-- A response that is read gives the events of its blocks. -/
theorem consumeOnce_response {r : SSEResponse} (hstatus : r.statusCode < 400)
    (h204 : r.statusCode ≠ 204) :
    s.consumeOnce env id (.response r) =
      match readBlocks env.loads s.malformedData id (blocks r.lines) with
      | (events, some e) => (events, .raised (mapFailure (.exception e)))
      | (events, none) =>
        match r.failure with
        | some failure => (events, .raised (mapFailure failure))
        | none => (events, .exhausted) := by
  simp only [SubscriptionSession.consumeOnce, (raiseForError_eq_none_iff env.reader r).mpr hstatus,
    if_neg h204, ← SSEFrameParser.feedAll_create]
  rcases (SSEFrameParser.create s.malformedData id).feedAll env.loads r.lines
    with ⟨p, events, _ | e⟩
  · cases r.failure <;> simp [SSEFrameParser.finish]
  · rfl

theorem consumeOnce_resumes_iff (c : Connection) :
    (s.consumeOnce env id c).2.Resumes ↔ c.Drops env.loads s.malformedData := by
  rcases c with failure | r
  · exact lost_mapFailure_iff failure
  by_cases hstatus : r.statusCode < 400
  · rw [Connection.Drops, if_pos hstatus]
    by_cases h204 : r.statusCode = 204
    · have hnone := (raiseForError_eq_none_iff env.reader r).mpr hstatus
      simp [SubscriptionSession.consumeOnce, hnone, h204, ConsumeEnd.Resumes]
    · rw [consumeOnce_response s env id hstatus h204,
        ← readBlocks_readable_iff env.loads s.malformedData id]
      rcases hbs : readBlocks env.loads s.malformedData id (blocks r.lines) with ⟨events, _ | e⟩
      · rcases r.failure with _ | failure
        · simp [h204, ConsumeEnd.Resumes]
        · simp [h204, ConsumeEnd.Resumes, lost_mapFailure_iff]
      · have hno := readBlocks_not_loss (congrArg Prod.snd hbs)
        simp [ConsumeEnd.Resumes, lost_mapFailure_iff, hno]
  · rw [Connection.Drops, if_neg hstatus, ← raiseForError_loss_iff env.reader hstatus]
    obtain ⟨failure, hraise⟩ := raiseForError_of_error env.reader hstatus
    simp [SubscriptionSession.consumeOnce, hraise, ConsumeEnd.Resumes, lost_mapFailure_iff]

/-- The events of a connection that dropped are those of its blocks. -/
theorem consumeOnce_events {c : Connection} (h : c.Drops env.loads s.malformedData) :
    (s.consumeOnce env id c).1 = (readBlocks env.loads s.malformedData id (blocks c.lines)).1 ∧
      (readBlocks env.loads s.malformedData id (blocks c.lines)).2 = none := by
  rcases c with failure | r
  · exact ⟨rfl, rfl⟩
  by_cases hstatus : r.statusCode < 400
  · rw [Connection.Drops, if_pos hstatus] at h
    obtain ⟨h204, hread, -⟩ := h
    have hnone := (readBlocks_readable_iff env.loads s.malformedData id _).mpr hread
    rw [Connection.lines, if_pos ⟨hstatus, h204⟩]
    refine ⟨?_, hnone⟩
    rw [consumeOnce_response s env id hstatus h204]
    rcases hbs : readBlocks env.loads s.malformedData id (blocks r.lines) with ⟨events, _ | e⟩
    · cases r.failure <;> rfl
    · rfl
  · rw [Connection.lines, if_neg fun hl => hstatus hl.1]
    refine ⟨?_, rfl⟩
    obtain ⟨failure, hraise⟩ := raiseForError_of_error env.reader hstatus
    simp only [SubscriptionSession.consumeOnce, hraise]
    rfl

theorem next_eq_sleep_iff (n : ℕ) (ended : ConsumeEnd) (delay : ℚ) :
    s.next n ended = .sleep delay ↔
      s.canReconnect n = true ∧ ended.Resumes ∧ s.pause (n + 1) = .ok delay := by
  have hsleep : s.sleepNext n = .sleep delay ↔ s.pause (n + 1) = .ok delay := by
    unfold SubscriptionSession.sleepNext
    cases s.pause (n + 1) <;> simp
  cases ended with
  | exhausted =>
    by_cases h : s.canReconnect n = true
    · simp [SubscriptionSession.next, h, hsleep, ConsumeEnd.Resumes]
    · simp [SubscriptionSession.next, h]
  | terminated => simp [SubscriptionSession.next, ConsumeEnd.Resumes]
  | raised r =>
    by_cases h : s.canReconnect n = true
    · by_cases hr : SubscriptionSession.lost r = true
      · simp [SubscriptionSession.next, h, hr, hsleep, ConsumeEnd.Resumes]
      · simp [SubscriptionSession.next, h, hr, ConsumeEnd.Resumes]
    · simp [SubscriptionSession.next, h]

theorem closesEarly_eq_false_iff (closesAt : Option ℕ) (events : List SSEEvent) :
    SubscriptionSession.closesEarly closesAt events = false ↔
      ∀ j, closesAt = some j → events.length ≤ j := by
  rcases closesAt with _ | j
  · simp [SubscriptionSession.closesEarly]
  · simp [SubscriptionSession.closesEarly]

/-- The loop goes on after a connection exactly when the connection is one that another follows. -/
theorem followed_iff (n : ℕ) (c : Connection) :
    Followed s env n c ↔
      SubscriptionSession.closesEarly (env.closesAt n) (s.consumeOnce env id c).1 = false ∧
      (∃ delay, s.next n (s.consumeOnce env id c).2 = .sleep delay) ∧ env.sleep n = none := by
  constructor
  · intro h
    obtain ⟨hevents, hnone⟩ := consumeOnce_events s env id h.drops
    obtain ⟨delay, hdelay⟩ := h.paused
    refine ⟨?_, ⟨delay, ?_⟩, h.slept⟩
    · rw [closesEarly_eq_false_iff, hevents, readBlocks_length _ _ hnone]
      exact h.consumed
    · rw [next_eq_sleep_iff, consumeOnce_resumes_iff]
      exact ⟨h.allowed, h.drops, hdelay⟩
  · rintro ⟨hclose, ⟨delay, hnext⟩, hslept⟩
    rw [next_eq_sleep_iff, consumeOnce_resumes_iff] at hnext
    obtain ⟨hallowed, hdrops, hdelay⟩ := hnext
    obtain ⟨hevents, hnone⟩ := consumeOnce_events s env id hdrops
    rw [closesEarly_eq_false_iff, hevents, readBlocks_length _ _ hnone] at hclose
    exact ⟨hallowed, hdrops, hclose, ⟨delay, hdelay⟩, hslept⟩

end Consume

end OpenJobSpec.Sse
