import OpenJobSpec.Durable.ReplayLog

/-! # The deterministic execution context

While a context replays, each effect takes the recorded value under the cursor
and fails unless that value was recorded for an effect of the same type, and of
the same key for a side effect. Otherwise the effect is performed and appended.
Every operation gives the context it leaves together with what it returns or
raises. An entry keeps the very object that a side effect returned, and its text
is made at a checkpoint, so the log shows what became of the object by then.
-/
namespace OpenJobSpec.Durable

/-- The result of a side effect after it was changed in place; it stays a list or a dict. -/
def ReplayLogEntry.change (entry : ReplayLogEntry) (value : Json) : ReplayLogEntry :=
  match entry.type, entry.result, value with
  | .call, .array _, .array _ | .call, .object _, .object _ => { entry with result := value }
  | _, _, _ => entry

structure DurableContext where
  jobId : String
  attempt : ℤ
  entries : List ReplayLogEntry := []
  cursor : ℕ := 0
  replaying : Bool := false
deriving DecidableEq

namespace DurableContext

/-- `answer` is how the resume request ends; an empty log is not replayed. -/
def create (codec : Codec) (jobId : String) (attempt : ℤ) (answer : Except Exn Json) :
    Except Exn DurableContext := do
  match ← loadReplayLog codec answer with
  | some (entry :: rest) => return { jobId, attempt, entries := entry :: rest, replaying := true }
  | _ => return { jobId, attempt }

def checkReplayDone (ctx : DurableContext) : DurableContext :=
  if ctx.entries.length ≤ ctx.cursor then { ctx with replaying := false } else ctx

def replayEntry (ctx : DurableContext) (effectType : EffectType) (key : String) :
    DurableContext × Except Exn (Option ReplayLogEntry) :=
  if ¬ ctx.replaying then (ctx, .ok none)
  else
    match ctx.entries[ctx.cursor]? with
    | none => ({ ctx with replaying := false }, .ok none)
    | some entry =>
      if entry.type ≠ effectType then
        (ctx, .error (.durableReplay ("replay cursor " ++ toString ctx.cursor ++ " expected "
          ++ Text.repr effectType.name ++ ", found " ++ Text.repr entry.type.name)))
      else if effectType = .call ∧ entry.key ≠ key then
        (ctx, .error (.durableReplay ("replay cursor " ++ toString ctx.cursor
          ++ " expected side effect key " ++ Text.repr key ++ ", found " ++ Text.repr entry.key)))
      else (checkReplayDone { ctx with cursor := ctx.cursor + 1 }, .ok (some entry))

def record (ctx : DurableContext) (type : EffectType) (result : Json) (key : String) :
    DurableContext :=
  { ctx with entries := ctx.entries ++ [{ seq := ctx.entries.length, type, result, key }] }

def stopReplaying (ctx : DurableContext) : DurableContext := { ctx with replaying := false }

/-- `clock` is `datetime.now(UTC)` at the call. -/
def now (codec : Codec) (clock : DateTime) (ctx : DurableContext) :
    DurableContext × Except Exn DateTime :=
  match ctx.replayEntry .time "now" with
  | (ctx, .error e) => (ctx, .error e)
  | (ctx, .ok (some entry)) =>
    match entry.result with
    | .str text =>
      match codec.fromIsoformat text with
      | some t => (ctx, .ok t)
      | none =>
        (ctx, .error (.builtin .valueError ("Invalid isoformat string: " ++ Text.repr text)))
    | _ => (ctx, .error (.durableReplay "replayed time value must be a string"))
  | (ctx, .ok none) =>
    ((ctx.record .time (.str (codec.isoformat clock)) "now").stopReplaying, .ok clock)

/-- `token` is `secrets.token_hex(num_bytes)` at the call. -/
def random (token : String) (ctx : DurableContext) : DurableContext × Except Exn String :=
  match ctx.replayEntry .random "" with
  | (ctx, .error e) => (ctx, .error e)
  | (ctx, .ok (some entry)) =>
    match entry.result with
    | .str text => (ctx, .ok text)
    | _ => (ctx, .error (.durableReplay "replayed random value must be a string"))
  | (ctx, .ok none) => ((ctx.record .random (.str token) "").stopReplaying, .ok token)

/-- The part of `side_effect` before its function is called: the recorded result, or
`none` when the function is to be called. -/
def beginSideEffect (key : String) (ctx : DurableContext) :
    DurableContext × Except Exn (Option Json) :=
  match ctx.replayEntry .call key with
  | (ctx, .error e) => (ctx, .error e)
  | (ctx, .ok (some entry)) => (ctx, .ok (some entry.result))
  | (ctx, .ok none) => (ctx.stopReplaying, .ok none)

def endSideEffect (key : String) (result : Json) (ctx : DurableContext) : DurableContext :=
  ctx.record .call result key

/-- One list or dict is changed in place, the one that the entry at this position keeps. The program
has no hold of an entry that it has yet to replay, nor of the result of another effect. -/
def change (ctx : DurableContext) (position : ℕ) (value : Json) : DurableContext :=
  if ctx.replaying ∧ ctx.cursor ≤ position then ctx
  else { ctx with entries := ctx.entries.modify position fun entry => entry.change value }

def changeAll (ctx : DurableContext) (changes : List (ℕ × Json)) : DurableContext :=
  changes.foldl (fun ctx (position, value) => ctx.change position value) ctx

def checkpointBody (codec : Codec) (stepIndex : ℤ) (state : Json) (ctx : DurableContext) : Json :=
  .object [("state", state), ("step_index", .int stepIndex),
    ("metadata", .object [("_replay_log", .str (codec.dumps (logJson ctx.entries))),
      ("attempt", .str (toString ctx.attempt))])]

/-! ## What one lookup in the log can do -/

theorem replayEntry_live {ctx : DurableContext} (h : ctx.replaying = false) (type : EffectType)
    (key : String) : ctx.replayEntry type key = (ctx, .ok none) := by
  simp [replayEntry, h]

variable {ctx : DurableContext} {entry : ReplayLogEntry} {type : EffectType} {key : String}

/-- The entry under the cursor was recorded for such an effect. -/
def Agrees (entry : ReplayLogEntry) (type : EffectType) (key : String) : Prop :=
  entry.type = type ∧ (type = .call → entry.key = key)

instance : Decidable (Agrees entry type key) := by unfold Agrees; infer_instance

def advance (ctx : DurableContext) : DurableContext :=
  checkReplayDone { ctx with cursor := ctx.cursor + 1 }

theorem replayEntry_agrees (h : ctx.replaying = true) (he : ctx.entries[ctx.cursor]? = some entry)
    (ha : Agrees entry type key) :
    ctx.replayEntry type key = (ctx.advance, .ok (some entry)) := by
  obtain ⟨htype, hkey⟩ := ha
  have hk : ¬ (type = .call ∧ entry.key ≠ key) := fun hc => hc.2 (hkey hc.1)
  simp only [replayEntry, h, he, htype, hk, advance, not_true, ne_eq, if_false]

theorem replayEntry_disagrees (h : ctx.replaying = true)
    (he : ctx.entries[ctx.cursor]? = some entry) (ha : ¬ Agrees entry type key) :
    ∃ message, ctx.replayEntry type key = (ctx, .error (.durableReplay message)) := by
  by_cases htype : entry.type = type
  · have hk : type = .call ∧ entry.key ≠ key := by
      by_contra hk
      exact ha ⟨htype, fun hc => by_contra fun hne => hk ⟨hc, hne⟩⟩
    exact ⟨_, by simp only [replayEntry, h, he, htype, if_pos hk, not_true, ne_eq, if_false]; rfl⟩
  · exact ⟨_, by simp only [replayEntry, h, he, if_pos htype, not_true, ne_eq, if_false]; rfl⟩

theorem advance_entries : ctx.advance.entries = ctx.entries := by
  unfold advance checkReplayDone
  split <;> rfl

theorem advance_cursor : ctx.advance.cursor = ctx.cursor + 1 := by
  unfold advance checkReplayDone
  split <;> rfl

theorem advance_replaying (h : ctx.replaying = true) :
    ctx.advance.replaying = true ↔ ctx.cursor + 1 < ctx.entries.length := by
  unfold advance checkReplayDone
  dsimp only
  split
  · simp
    omega
  · simp [h]
    omega

/-! ## What changes in place can do -/

theorem became_change (entry : ReplayLogEntry) (value : Json) :
    entry.Became (entry.change value) := by
  unfold ReplayLogEntry.change
  split
  · exact ⟨rfl, rfl, rfl, fun hne => absurd ‹entry.type = .call› hne⟩
  · exact ⟨rfl, rfl, rfl, fun hne => absurd ‹entry.type = .call› hne⟩
  · exact .rfl

theorem became_modify (log : List ReplayLogEntry) (position : ℕ) (value : Json) :
    Became log (log.modify position fun entry => entry.change value) := by
  induction log generalizing position with
  | nil =>
    rw [List.modify_nil]
    exact .nil
  | cons entry rest ih =>
    cases position with
    | zero =>
      rw [List.modify_zero_cons]
      exact .cons (became_change entry value) Became.rfl
    | succ position =>
      rw [List.modify_succ_cons]
      exact .cons .rfl (ih position)

/-- What changes in place leave of a context: the entries ahead while it replays, and all but the
results of side effects. -/
structure ChangedTo (ctx later : DurableContext) : Prop where
  jobId : later.jobId = ctx.jobId
  attempt : later.attempt = ctx.attempt
  cursor : later.cursor = ctx.cursor
  replaying : later.replaying = ctx.replaying
  entries : Became ctx.entries later.entries
  ahead : ctx.replaying = true → later.entries.drop ctx.cursor = ctx.entries.drop ctx.cursor

theorem changedTo_change (ctx : DurableContext) (position : ℕ) (value : Json) :
    ctx.ChangedTo (ctx.change position value) := by
  unfold change
  split
  next => exact ⟨rfl, rfl, rfl, rfl, Became.rfl, fun _ => rfl⟩
  next hout =>
    refine ⟨rfl, rfl, rfl, rfl, became_modify _ _ _, fun hr => ?_⟩
    have hlt : position < ctx.cursor := by
      by_contra hle
      exact hout ⟨hr, not_lt.mp hle⟩
    exact List.drop_modify_of_lt _ _ _ _ hlt

theorem changedTo_changeAll (ctx : DurableContext) (changes : List (ℕ × Json)) :
    ctx.ChangedTo (ctx.changeAll changes) := by
  induction changes generalizing ctx with
  | nil => exact ⟨rfl, rfl, rfl, rfl, Became.rfl, fun _ => rfl⟩
  | cons change rest ih =>
    have hfirst := ctx.changedTo_change change.1 change.2
    have hrest := ih (ctx.change change.1 change.2)
    refine ⟨hrest.jobId.trans hfirst.jobId, hrest.attempt.trans hfirst.attempt,
      hrest.cursor.trans hfirst.cursor, hrest.replaying.trans hfirst.replaying,
      Became.trans hfirst.entries hrest.entries, fun hr => ?_⟩
    have hahead := hrest.ahead (hfirst.replaying.trans hr)
    rw [hfirst.cursor] at hahead
    exact hahead.trans (hfirst.ahead hr)

end DurableContext

/-! ## Loading what a checkpoint stored -/

/-- The answer to a resume request of a backend that keeps the last checkpoint. -/
def resumeResponse (saved : Option Json) : Json :=
  match saved with
  | none => .object [("has_checkpoint", .bool false)]
  | some body => .object [("has_checkpoint", .bool true), ("checkpoint", body)]

theorem loadReplayLog_checkpointBody {codec : Codec} {ctx : DurableContext}
    (hc : codec.RoundTrips ctx.entries) (hn : WellNumbered ctx.entries) (stepIndex : ℤ)
    (state : Json) :
    loadReplayLog codec (.ok (resumeResponse (some (ctx.checkpointBody codec stepIndex state)))) =
      .ok (some ctx.entries) := by
  have hd : decodeLog codec (codec.dumps (logJson ctx.entries)) = .ok ctx.entries :=
    decodeLog_dumps hc hn
  simp [loadReplayLog, resumeResponse, DurableContext.checkpointBody, Fields.get, List.lookup_cons,
    hc.dumps_ne_empty, hd]

theorem create_checkpointBody {codec : Codec} {ctx : DurableContext}
    (hc : codec.RoundTrips ctx.entries) (hn : WellNumbered ctx.entries) (stepIndex : ℤ)
    (state : Json) (jobId : String) (attempt : ℤ) :
    DurableContext.create codec jobId attempt
        (.ok (resumeResponse (some (ctx.checkpointBody codec stepIndex state)))) =
      .ok { jobId, attempt, entries := ctx.entries, replaying := !ctx.entries.isEmpty } := by
  simp only [DurableContext.create, loadReplayLog_checkpointBody hc hn, ExceptRules.ok_bind]
  cases ctx.entries <;> rfl

end OpenJobSpec.Durable
