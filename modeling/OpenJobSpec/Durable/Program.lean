import OpenJobSpec.Durable.Context
import OpenJobSpec.Foundation.Runs

/-! # Sequential programs over the durable effects

A deterministic program is the function that gives its next effect from the
replies to the effects before it. A run is driven by what the world would
answer at each step; it ends by crash wherever the answers end, and by failure
when an exception leaves the program. Between two effects objects that side
effects returned may be changed in place. A round is one run that starts from
the checkpoint the backend holds.
-/
namespace OpenJobSpec.Durable
open Runs

inductive Effect
  | now
  | random (numBytes : ℕ)
  | sideEffect (key : String)
  | checkpoint (stepIndex : ℤ) (state : Json)

inductive Value
  | time (t : DateTime)
  | text (s : String)
  | json (v : Json)
  | done

/-- What the program sees of an effect; only a side effect's function raises into it. -/
inductive Reply
  | value (v : Value)
  | raised (e : Exn)

abbrev Program := List Reply → Option Effect

/-- The values of replies without an exception among them. -/
def Reply.values : List Reply → Option (List Value)
  | [] => some []
  | .value v :: rest => (values rest).map (v :: ·)
  | .raised _ :: _ => none

/-- A program whose control flow depends on values only stops at the first exception. -/
def Program.ofValues (program : List Value → Option Effect) : Program :=
  fun replies => (Reply.values replies).bind program

structure World where
  clock : DateTime
  token : ℕ → String
  result : Except Exn Json
  /-- whether the checkpoint request reaches the backend, and how it ends -/
  stored : Bool
  checkpoint : Except Exn Unit

/-- What happens up to the next effect, and what the world answers it. -/
structure Turn extends World where
  /-- positions of the log whose objects were changed in place since the last effect, in order, and
  what each became -/
  changes : List (ℕ × Json) := []

structure Event where
  effect : Effect
  reply : Reply

structure Saved where
  path : List Event
  log : List ReplayLogEntry
  /-- the entries of the log as their effects returned -/
  returned : List ReplayLogEntry
  body : Json

/-- No recorded object was changed between its return and the checkpoint. -/
def Saved.Unchanged (c : Saved) : Prop := c.log = c.returned

instance (c : Saved) : Decidable c.Unchanged := by unfold Saved.Unchanged; infer_instance

structure RunState where
  ctx : DurableContext
  /-- the entries as they were loaded, or as their effects returned -/
  returned : List ReplayLogEntry
  /-- the path of the checkpoint the run started from -/
  origin : List Event
  performed : List Event
  /-- the effects for which the clock, the random source or the function was used -/
  live : List Event
  saved : Option Saved
  failed : Option Exn

def Effect.kind : Effect → Option (EffectType × String)
  | now => some (.time, "now")
  | random _ => some (.random, "")
  | sideEffect key => some (.call, key)
  | checkpoint .. => none

theorem Effect.eq_checkpoint {effect : Effect} (h : effect.kind = none) :
    ∃ stepIndex state, effect = .checkpoint stepIndex state := by
  cases effect with
  | checkpoint stepIndex state => exact ⟨stepIndex, state, rfl⟩
  | now => cases h
  | random numBytes => cases h
  | sideEffect key => cases h

/-- How the call of an effect goes on: it returned, using the world or not, or the function
of a side effect is to be called. -/
inductive Answer
  | returned (v : Value) (live : Bool)
  | invoke (key : String)

/-- The call of an effect up to the first thing it waits for; a call that returned without
a function to run used the world exactly when it appended an entry. -/
def startEffect (codec : Codec) (w : World) (ctx : DurableContext) (effect : Effect) :
    DurableContext × Except Exn Answer :=
  match effect with
  | .now =>
    match ctx.now codec w.clock with
    | (after, .ok t) =>
      (after, .ok (.returned (.time t) (ctx.entries.length < after.entries.length)))
    | (after, .error e) => (after, .error e)
  | .random numBytes =>
    match ctx.random (w.token numBytes) with
    | (after, .ok text) =>
      (after, .ok (.returned (.text text) (ctx.entries.length < after.entries.length)))
    | (after, .error e) => (after, .error e)
  | .sideEffect key =>
    match ctx.beginSideEffect key with
    | (after, .ok (some result)) => (after, .ok (.returned (.json result) false))
    | (after, .ok none) => (after, .ok (.invoke key))
    | (after, .error e) => (after, .error e)
  | .checkpoint .. => (ctx, .ok (.returned .done true))

namespace RunState

def replies (s : RunState) : List Reply := s.performed.map Event.reply

def replayed (s : RunState) (ctx : DurableContext) (effect : Effect) (v : Value) : RunState :=
  { s with ctx, performed := s.performed ++ [⟨effect, .value v⟩] }

def performedLive (s : RunState) (ctx : DurableContext) (effect : Effect) (reply : Reply) :
    RunState :=
  { s with
    ctx, returned := s.returned ++ ctx.entries.drop s.ctx.entries.length
    performed := s.performed ++ [⟨effect, reply⟩], live := s.live ++ [⟨effect, reply⟩] }

def fail (s : RunState) (ctx : DurableContext) (e : Exn) : RunState :=
  { s with ctx, failed := some e }

/-- The path of the log: that of the loaded log while it is being replayed. -/
def path (s : RunState) : List Event := if s.ctx.replaying then s.origin else s.performed

def checkpoint (codec : Codec) (s : RunState) (w : World) (stepIndex : ℤ) (state : Json) :
    RunState :=
  let body := s.ctx.checkpointBody codec stepIndex state
  let saved := if w.stored then some ⟨s.path, s.ctx.entries, s.returned, body⟩ else s.saved
  let s := { s with saved }
  match w.checkpoint with
  | .ok () => s.replayed s.ctx (.checkpoint stepIndex state) .done
  | .error e => s.fail s.ctx e

def perform (codec : Codec) (s : RunState) (w : World) (effect : Effect) : RunState :=
  match effect with
  | .checkpoint stepIndex state => s.checkpoint codec w stepIndex state
  | effect =>
    match startEffect codec w s.ctx effect with
    | (ctx, .error e) => s.fail ctx e
    | (ctx, .ok (.returned v true)) => s.performedLive ctx effect (.value v)
    | (ctx, .ok (.returned v false)) => s.replayed ctx effect v
    | (ctx, .ok (.invoke key)) =>
      match w.result with
      | .ok result => s.performedLive (ctx.endSideEffect key result) effect (.value (.json result))
      | .error e => s.performedLive ctx effect (.raised e)

/-- The next effect of the program. -/
def step (codec : Codec) (program : Program) (s : RunState) (w : World) : Option RunState :=
  if s.failed.isSome then none else (program s.replies).map (s.perform codec w)

def change (s : RunState) (changes : List (ℕ × Json)) : RunState :=
  { s with ctx := s.ctx.changeAll changes }

def next (codec : Codec) (program : Program) (s : RunState) (turn : Turn) : Option RunState :=
  (s.change turn.changes).step codec program turn.toWorld

end RunState

/-! ## Rounds of crash and reload -/

structure Round where
  attempt : ℤ
  worlds : List Turn

def runRound (codec : Codec) (program : Program) (jobId : String) (saved : Option Saved)
    (round : Round) : Except Exn RunState := do
  let ctx ← DurableContext.create codec jobId round.attempt
    (.ok (resumeResponse (saved.map Saved.body)))
  return run (RunState.next codec program)
    ⟨ctx, ctx.entries, (saved.map Saved.path).getD [], [], [], saved, none⟩ round.worlds

def afterRounds (codec : Codec) (program : Program) (jobId : String) (rounds : List Round) :
    Option Saved :=
  rounds.foldl (fun saved round =>
    match runRound codec program jobId saved round with
    | .ok s => s.saved
    | .error _ => saved) none

theorem Reply.values_of_raised {replies : List Reply} {e : Exn} (h : .raised e ∈ replies) :
    values replies = none := by
  induction replies with
  | nil => cases h
  | cons reply rest ih =>
    cases reply with
    | raised _ => rfl
    | value v =>
      have hrest : .raised e ∈ rest := by simpa using h
      simp only [values, ih hrest, Option.map_none]

/-! ## What one effect can do -/

def Codec.entryValue (codec : Codec) (entry : ReplayLogEntry) : Option Value :=
  match entry.type, entry.result with
  | .time, .str text => (codec.fromIsoformat text).map .time
  | .random, .str text => some (.text text)
  | .call, result => some (.json result)
  | _, _ => none

def RecordedAs (codec : Codec) (event : Event) (entry : ReplayLogEntry) : Prop :=
  ∃ type key v, event.effect.kind = some (type, key) ∧ DurableContext.Agrees entry type key ∧
    event.reply = .value v ∧ codec.entryValue entry = some v

section startEffect
open DurableContext

variable {codec : Codec} {ctx : DurableContext} {w : World} {effect : Effect} {type : EffectType}
  {key : String} {entry : ReplayLogEntry} {v : Value}

theorem startEffect_agrees (hr : ctx.replaying = true) (he : ctx.entries[ctx.cursor]? = some entry)
    (hk : effect.kind = some (type, key)) (ha : Agrees entry type key)
    (hv : codec.entryValue entry = some v) :
    startEffect codec w ctx effect = (ctx.advance, .ok (.returned v false)) := by
  have hentries : ¬ ctx.entries.length < ctx.advance.entries.length := by
    rw [advance_entries]
    omega
  have hlookup := replayEntry_agrees hr he ha
  obtain ⟨htype, hkey⟩ := ha
  obtain ⟨seq, entryType, result, entryKey⟩ := entry
  dsimp only at htype
  subst htype
  cases effect with
  | now =>
    cases hk
    obtain ⟨text, rfl⟩ : ∃ text, result = .str text := by
      cases result <;> simp [Codec.entryValue] at hv ⊢
    obtain ⟨t, ht, rfl⟩ := Option.map_eq_some_iff.mp hv
    simp only [startEffect, DurableContext.now, hlookup, ht, hentries, decide_false]
  | random numBytes =>
    cases hk
    obtain ⟨text, rfl⟩ : ∃ text, result = .str text := by
      cases result <;> simp [Codec.entryValue] at hv ⊢
    cases hv
    simp only [startEffect, DurableContext.random, hlookup, hentries, decide_false]
  | sideEffect name =>
    cases hk
    have hval : v = .json result := by
      cases result <;> exact (Option.some.inj hv).symm
    subst hval
    simp only [startEffect, beginSideEffect, hlookup]
  | checkpoint stepIndex state => cases hk

theorem startEffect_disagrees (codec : Codec) (w : World) (hr : ctx.replaying = true)
    (he : ctx.entries[ctx.cursor]? = some entry) (hk : effect.kind = some (type, key))
    (ha : ¬ Agrees entry type key) :
    ∃ message, startEffect codec w ctx effect = (ctx, .error (.durableReplay message)) := by
  obtain ⟨message, hlookup⟩ := replayEntry_disagrees hr he ha
  refine ⟨message, ?_⟩
  cases effect with
  | now =>
    cases hk
    simp only [startEffect, DurableContext.now, hlookup]
  | random numBytes =>
    cases hk
    simp only [startEffect, DurableContext.random, hlookup]
  | sideEffect name =>
    cases hk
    simp only [startEffect, beginSideEffect, hlookup]
  | checkpoint stepIndex state => cases hk

theorem startEffect_live (codec : Codec) (w : World) (hr : ctx.replaying = false)
    (hk : effect.kind = some (type, key)) :
    (∃ (entry : ReplayLogEntry) (v : Value), entry.seq = ctx.entries.length ∧
      Agrees entry type key ∧
      (codec.fromIsoformat (codec.isoformat w.clock) = some w.clock →
        codec.entryValue entry = some v) ∧
      startEffect codec w ctx effect =
        ({ ctx with entries := ctx.entries ++ [entry] }, .ok (.returned v true))) ∨
    type = .call ∧ startEffect codec w ctx effect = (ctx, .ok (.invoke key)) := by
  have hlookup := replayEntry_live hr type key
  cases effect with
  | now =>
    cases hk
    refine Or.inl ⟨⟨_, .time, .str (codec.isoformat w.clock), "now"⟩, .time w.clock, rfl,
      ⟨rfl, fun _ => rfl⟩, ?_, ?_⟩
    · intro hclock
      simp only [Codec.entryValue, hclock, Option.map_some]
    · simp [startEffect, DurableContext.now, hlookup, record, stopReplaying, hr]
  | random numBytes =>
    cases hk
    refine Or.inl ⟨⟨_, .random, .str (w.token numBytes), ""⟩, .text (w.token numBytes), rfl,
      ⟨rfl, fun _ => rfl⟩, fun _ => rfl, ?_⟩
    simp [startEffect, DurableContext.random, hlookup, record, stopReplaying, hr]
  | sideEffect name =>
    cases hk
    have hstop : ctx.stopReplaying = ctx := by
      simp only [stopReplaying, ← hr]
    refine Or.inr ⟨rfl, ?_⟩
    simp only [startEffect, beginSideEffect, hlookup, hstop]
  | checkpoint stepIndex state => cases hk

theorem endSideEffect_entry (codec : Codec) (key : String) (result : Json) (ctx : DurableContext) :
    ∃ entry : ReplayLogEntry, entry.seq = ctx.entries.length ∧ Agrees entry .call key ∧
      codec.entryValue entry = some (.json result) ∧
      ctx.endSideEffect key result = { ctx with entries := ctx.entries ++ [entry] } := by
  refine ⟨⟨_, .call, result, key⟩, rfl, ⟨rfl, fun _ => rfl⟩, ?_, rfl⟩
  cases result <;> rfl

end startEffect

namespace RunState
open DurableContext

variable {codec : Codec} {s : RunState} {w : World} {effect : Effect} {type : EffectType}
  {key : String} {entry : ReplayLogEntry} {v : Value}

theorem perform_eq (hk : effect.kind = some (type, key)) :
    s.perform codec w effect =
      match startEffect codec w s.ctx effect with
      | (ctx, .error e) => s.fail ctx e
      | (ctx, .ok (.returned v true)) => s.performedLive ctx effect (.value v)
      | (ctx, .ok (.returned v false)) => s.replayed ctx effect v
      | (ctx, .ok (.invoke key)) =>
        match w.result with
        | .ok result =>
          s.performedLive (ctx.endSideEffect key result) effect (.value (.json result))
        | .error e => s.performedLive ctx effect (.raised e) := by
  cases effect with
  | checkpoint stepIndex state => cases hk
  | now => rfl
  | random numBytes => rfl
  | sideEffect name => rfl

theorem perform_replayed (hr : s.ctx.replaying = true)
    (he : s.ctx.entries[s.ctx.cursor]? = some entry) (hk : effect.kind = some (type, key))
    (ha : Agrees entry type key)
    (hv : codec.entryValue entry = some v) :
    s.perform codec w effect = s.replayed s.ctx.advance effect v := by
  rw [perform_eq hk, startEffect_agrees hr he hk ha hv]

theorem perform_disagrees (codec : Codec) (w : World) (hr : s.ctx.replaying = true)
    (he : s.ctx.entries[s.ctx.cursor]? = some entry) (hk : effect.kind = some (type, key))
    (ha : ¬ Agrees entry type key) :
    ∃ message, s.perform codec w effect = { s with failed := some (.durableReplay message) } := by
  obtain ⟨message, hstart⟩ := startEffect_disagrees codec w hr he hk ha
  exact ⟨message, by rw [perform_eq hk, hstart]; rfl⟩

/-- Once nothing is replayed an effect is performed live: it is recorded under the next
number, or it is a side effect whose function raised. -/
theorem perform_live (codec : Codec) (w : World) (hr : s.ctx.replaying = false)
    (hk : effect.kind = some (type, key)) :
    (∃ (entry : ReplayLogEntry) (v : Value), entry.seq = s.ctx.entries.length ∧
      Agrees entry type key ∧
      (codec.fromIsoformat (codec.isoformat w.clock) = some w.clock →
        codec.entryValue entry = some v) ∧
      s.perform codec w effect =
        s.performedLive { s.ctx with entries := s.ctx.entries ++ [entry] } effect (.value v)) ∨
    ∃ e, s.perform codec w effect = s.performedLive s.ctx effect (.raised e) := by
  rw [perform_eq hk]
  rcases startEffect_live codec w hr hk with
    ⟨entry, v, hseq, hagrees, hvalue, hstart⟩ | ⟨htype, hstart⟩
  · exact Or.inl ⟨entry, v, hseq, hagrees, hvalue, by rw [hstart]⟩
  · subst htype
    rw [hstart]
    cases hresult : w.result with
    | error e => exact Or.inr ⟨e, rfl⟩
    | ok result =>
      obtain ⟨entry, hseq, hagrees, hvalue, hend⟩ := endSideEffect_entry codec key result s.ctx
      exact Or.inl ⟨entry, .json result, hseq, hagrees, fun _ => hvalue, by rw [← hend]⟩

theorem perform_checkpoint (codec : Codec) (s : RunState) (w : World) (stepIndex : ℤ)
    (state : Json) :
    ∃ saved, (saved = s.saved ∨
        saved = some ⟨s.path, s.ctx.entries, s.returned,
          s.ctx.checkpointBody codec stepIndex state⟩) ∧
      ((w.checkpoint = .ok () ∧ s.perform codec w (.checkpoint stepIndex state) =
          { s with
            saved, performed := s.performed ++ [⟨.checkpoint stepIndex state, .value .done⟩] }) ∨
        ∃ e, w.checkpoint = .error e ∧ s.perform codec w (.checkpoint stepIndex state) =
          { s with saved, failed := some e }) := by
  refine ⟨if w.stored then some ⟨s.path, s.ctx.entries, s.returned,
    s.ctx.checkpointBody codec stepIndex state⟩ else s.saved, ?_, ?_⟩
  · split
    · exact Or.inr rfl
    · exact Or.inl rfl
  · cases hc : w.checkpoint with
    | ok value => exact Or.inl ⟨rfl, by simp only [perform, checkpoint, hc, replayed]⟩
    | error e => exact Or.inr ⟨e, rfl, by simp only [perform, checkpoint, hc, fail]⟩

end RunState

end OpenJobSpec.Durable
