import OpenJobSpec.Durable.Paths

/-! # Programs whose effects overlap

A program of several tasks offers the effects its tasks are ready to call next,
given everything that has happened so far; an effect called by the function of
another one is offered after that function was called. The scheduler starts one
of the ready effects or lets a running function return. An entry is appended
when a function returns, but is looked up when an effect is called.
-/
namespace OpenJobSpec.Durable
open Runs DurableContext

/-- What a program can observe of its calls, which are numbered as they are made. -/
inductive Happening
  | returned (call : ℕ) (v : Value)
  | invoked (call : ℕ)
  | raised (call : ℕ) (e : Exn)

abbrev OverlapProgram := List Happening → List Effect

/-- A choice of the scheduler: which ready effect is called and what the world answers it, or
which running function ends. -/
inductive Choice
  | start (index : ℕ) (w : World)
  | complete (index : ℕ) (result : Except Exn Json)

structure OverlapState where
  ctx : DurableContext
  history : List Happening
  calls : ℕ
  /-- the number and the key of each call whose function runs -/
  running : List (ℕ × String)
  /-- the calls answered from the log, and those that were not -/
  replayed : List Event
  live : List Effect
  saved : Option (List ReplayLogEntry × Json)
  failed : Option Exn

namespace OverlapState

def fail (s : OverlapState) (ctx : DurableContext) (e : Exn) : OverlapState :=
  { s with ctx, failed := some e }

def happen (s : OverlapState) (ctx : DurableContext) (happening : Happening) : OverlapState :=
  { s with ctx, history := s.history ++ [happening], calls := s.calls + 1 }

def checkpoint (codec : Codec) (s : OverlapState) (w : World) (stepIndex : ℤ) (state : Json) :
    OverlapState :=
  let body := s.ctx.checkpointBody codec stepIndex state
  let s := { s with saved := if w.stored then some (s.ctx.entries, body) else s.saved }
  match w.checkpoint with
  | .ok () => s.happen s.ctx (.returned s.calls .done)
  | .error e => s.fail s.ctx e

def call (codec : Codec) (s : OverlapState) (w : World) (effect : Effect) : OverlapState :=
  match effect with
  | .checkpoint stepIndex state => s.checkpoint codec w stepIndex state
  | effect =>
    match startEffect codec w s.ctx effect with
    | (ctx, .error e) => s.fail ctx e
    | (ctx, .ok (.returned v true)) =>
      { s.happen ctx (.returned s.calls v) with live := s.live ++ [effect] }
    | (ctx, .ok (.returned v false)) =>
      { s.happen ctx (.returned s.calls v) with replayed := s.replayed ++ [⟨effect, .value v⟩] }
    | (ctx, .ok (.invoke key)) =>
      { s.happen ctx (.invoked s.calls) with
        running := s.running ++ [(s.calls, key)], live := s.live ++ [effect] }

def complete (s : OverlapState) (index : ℕ) (result : Except Exn Json) (number : ℕ) (key : String) :
    OverlapState :=
  let s := { s with running := s.running.eraseIdx index }
  match result with
  | .ok v =>
    { s with
      ctx := s.ctx.endSideEffect key v
      history := s.history ++ [.returned number (.json v)] }
  | .error e => { s with history := s.history ++ [.raised number e] }

def next (codec : Codec) (program : OverlapProgram) (s : OverlapState) (choice : Choice) :
    Option OverlapState :=
  if s.failed.isSome then none
  else
    match choice with
    | .start index w => (program s.history)[index]?.map (s.call codec w)
    | .complete index result =>
      s.running[index]?.map fun (number, key) => s.complete index result number key

end OverlapState

def runOverlap (codec : Codec) (program : OverlapProgram) (jobId : String) (attempt : ℤ)
    (saved : Option (List ReplayLogEntry × Json)) (choices : List Choice) :
    Except Exn OverlapState := do
  let ctx ← DurableContext.create codec jobId attempt (.ok (resumeResponse (saved.map Prod.snd)))
  return run (OverlapState.next codec program) ⟨ctx, [], 0, [], [], [], saved, none⟩ choices

/-! ## What one choice can do -/

namespace OverlapState
variable {codec : Codec} {program : OverlapProgram} {log : List ReplayLogEntry}
  {s s' : OverlapState} {w : World} {effect : Effect} {type : EffectType} {key : String}

theorem call_eq (hk : effect.kind = some (type, key)) :
    s.call codec w effect =
      match startEffect codec w s.ctx effect with
      | (ctx, .error e) => s.fail ctx e
      | (ctx, .ok (.returned v true)) =>
        { s.happen ctx (.returned s.calls v) with live := s.live ++ [effect] }
      | (ctx, .ok (.returned v false)) =>
        { s.happen ctx (.returned s.calls v) with replayed := s.replayed ++ [⟨effect, .value v⟩] }
      | (ctx, .ok (.invoke key)) =>
        { s.happen ctx (.invoked s.calls) with
          running := s.running ++ [(s.calls, key)], live := s.live ++ [effect] } := by
  cases effect with
  | checkpoint stepIndex state => cases hk
  | now => rfl
  | random numBytes => rfl
  | sideEffect name => rfl

theorem call_checkpoint (codec : Codec) (s : OverlapState) (w : World) (stepIndex : ℤ)
    (state : Json) :
    ∃ saved, (saved = s.saved ∨
        saved = some (s.ctx.entries, s.ctx.checkpointBody codec stepIndex state)) ∧
      ((w.checkpoint = .ok () ∧ s.call codec w (.checkpoint stepIndex state) =
          { s with
            saved, history := s.history ++ [.returned s.calls .done], calls := s.calls + 1 }) ∨
        ∃ e, w.checkpoint = .error e ∧ s.call codec w (.checkpoint stepIndex state) =
          { s with saved, failed := some e }) := by
  refine ⟨if w.stored then some (s.ctx.entries, s.ctx.checkpointBody codec stepIndex state)
    else s.saved, ?_, ?_⟩
  · split
    · exact Or.inr rfl
    · exact Or.inl rfl
  · cases hc : w.checkpoint with
    | ok value => exact Or.inl ⟨rfl, by simp only [call, checkpoint, hc, happen]⟩
    | error e => exact Or.inr ⟨e, rfl, by simp only [call, checkpoint, hc, fail]⟩

theorem next_cases {choice : Choice} (hn : OverlapState.next codec program s choice = some s') :
    s.failed = none ∧
      ((∃ index w effect, choice = .start index w ∧ effect ∈ program s.history ∧
          s' = s.call codec w effect) ∨
        ∃ index result number key, choice = .complete index result ∧
          s.running[index]? = some (number, key) ∧ s' = s.complete index result number key) := by
  unfold OverlapState.next at hn
  split at hn
  · cases hn
  · rename_i hf
    refine ⟨by simpa using hf, ?_⟩
    cases choice with
    | start index w =>
      obtain ⟨effect, he, rfl⟩ := Option.map_eq_some_iff.mp hn
      exact Or.inl ⟨index, w, effect, rfl, List.mem_of_getElem? he, rfl⟩
    | complete index result =>
      obtain ⟨⟨number, key⟩, hrunning, rfl⟩ := Option.map_eq_some_iff.mp hn
      exact Or.inr ⟨index, result, number, key, rfl, hrunning, rfl⟩

end OverlapState

/-! ## The first run -/

/-- A log as a run from scratch builds it: numbered, with entries that replay as values. -/
structure Recordable (codec : Codec) (log : List ReplayLogEntry) : Prop where
  numbered : WellNumbered log
  values : ∀ entry ∈ log, ∃ v, codec.entryValue entry = some v

def StoredLog (codec : Codec) (saved : List ReplayLogEntry × Json) : Prop :=
  Recordable codec saved.1 ∧ ∃ (ctx : DurableContext) (stepIndex : ℤ) (state : Json),
    ctx.entries = saved.1 ∧ saved.2 = ctx.checkpointBody codec stepIndex state

variable {codec : Codec} {program : OverlapProgram} {log : List ReplayLogEntry}
  {s s' : OverlapState}

theorem Recordable.concat {entry : ReplayLogEntry} (h : Recordable codec log)
    (hseq : entry.seq = log.length) (hv : ∃ v, codec.entryValue entry = some v) :
    Recordable codec (log ++ [entry]) := by
  refine ⟨wellNumbered_append_singleton h.numbered hseq, ?_⟩
  intro found hfound
  rcases List.mem_append.mp hfound with hlog | hlast
  · exact h.values found hlog
  · rw [List.mem_singleton.mp hlast]
    exact hv

structure FirstRun (codec : Codec) (s : OverlapState) : Prop where
  replaying : s.ctx.replaying = false
  entries : Recordable codec s.ctx.entries
  saved : ∀ c, s.saved = some c → StoredLog codec c

theorem FirstRun.next {choice : Choice} (h : FirstRun codec s)
    (hclock : ∀ index w, choice = .start index w →
      codec.fromIsoformat (codec.isoformat w.clock) = some w.clock)
    (hn : OverlapState.next codec program s choice = some s') : FirstRun codec s' := by
  obtain ⟨_, ⟨index, w, effect, rfl, _, rfl⟩ | ⟨index, result, number, key, _, _, rfl⟩⟩ :=
    OverlapState.next_cases hn
  · cases hk : effect.kind with
    | none =>
      obtain ⟨stepIndex, state, rfl⟩ := Effect.eq_checkpoint hk
      obtain ⟨saved, hsaved, hends⟩ := OverlapState.call_checkpoint codec s w stepIndex state
      have hstored : ∀ c, saved = some c → StoredLog codec c := by
        rcases hsaved with rfl | rfl
        · exact h.saved
        · intro c hc
          cases hc
          exact ⟨h.entries, s.ctx, stepIndex, state, rfl, rfl⟩
      rcases hends with ⟨_, hcall⟩ | ⟨e, _, hcall⟩
      · rw [hcall]
        exact ⟨h.replaying, h.entries, hstored⟩
      · rw [hcall]
        exact ⟨h.replaying, h.entries, hstored⟩
    | some kind =>
      obtain ⟨type, key⟩ := kind
      rw [OverlapState.call_eq hk]
      rcases startEffect_live codec w h.replaying hk with
        ⟨entry, v, hseq, _, hvalue, hstart⟩ | ⟨_, hstart⟩
      · rw [hstart]
        exact ⟨h.replaying, h.entries.concat hseq ⟨v, hvalue (hclock index w rfl)⟩, h.saved⟩
      · rw [hstart]
        exact ⟨h.replaying, h.entries, h.saved⟩
  · cases result with
    | error e => exact ⟨h.replaying, h.entries, h.saved⟩
    | ok v =>
      obtain ⟨entry, hseq, _, hvalue, hend⟩ := endSideEffect_entry codec key v s.ctx
      have hentries : (s.complete index (.ok v) number key).ctx.entries =
          s.ctx.entries ++ [entry] := by
        simp only [OverlapState.complete, hend]
      refine ⟨h.replaying, ?_, h.saved⟩
      rw [hentries]
      exact h.entries.concat hseq ⟨_, hvalue⟩

end OpenJobSpec.Durable
