import OpenJobSpec.Durable.Overlap

/-! # Replay of effects that overlapped

An entry stands in the log at the time its effect completed and is consumed at
the time a call is made, and while the log lasts every call returns at once. So
a log can be replayed exactly when its entries stand in the order in which the
program makes its calls under those conditions.
-/
namespace OpenJobSpec.Durable
open Runs DurableContext

/-! ## The condition on the program and its log -/

/-- Histories in which each recorded call returns at once with the value of the next entry:
the history, the number of calls made and the number of entries given out. -/
inductive AtOnce (codec : Codec) (program : OverlapProgram) (log : List ReplayLogEntry) :
    List Happening → ℕ → ℕ → Prop
  | start : AtOnce codec program log [] 0 0
  | entry {history calls given entry effect type key v} :
      AtOnce codec program log history calls given → log[given]? = some entry →
      effect ∈ program history → effect.kind = some (type, key) → Agrees entry type key →
      codec.entryValue entry = some v →
      AtOnce codec program log (history ++ [.returned calls v]) (calls + 1) (given + 1)
  | checkpoint {history calls given stepIndex state} :
      AtOnce codec program log history calls given → given < log.length →
      .checkpoint stepIndex state ∈ program history →
      AtOnce codec program log (history ++ [.returned calls .done]) (calls + 1) given

/-- The log's entries stand in the order in which the program makes its calls when every
recorded call returns at once. -/
def RecordedInCallOrder (codec : Codec) (program : OverlapProgram) (log : List ReplayLogEntry) :
    Prop :=
  ∀ history calls given entry, AtOnce codec program log history calls given →
    log[given]? = some entry → ∀ effect ∈ program history, ∀ type key,
      effect.kind = some (type, key) → Agrees entry type key

/-- What a re-run owes to the log: nothing but a checkpoint request fails it, the calls
answered from the log get the values recorded for their own type and key, and no clock or
function is used before the whole log was given out. -/
structure OverlapFaithful (codec : Codec) (log : List ReplayLogEntry) (choices : List Choice)
    (r : OverlapState) : Prop where
  failure : ∀ e, r.failed = some e → ∃ index w, .start index w ∈ choices ∧ w.checkpoint = .error e
  own_value : List.Forall₂ (RecordedAs codec) r.replayed (log.take r.replayed.length)
  used_up : r.live ≠ [] → r.replayed.length = log.length

variable {codec : Codec} {program : OverlapProgram} {log : List ReplayLogEntry}
  {s s' : OverlapState}

/-! ## The re-run -/

structure Repeating (codec : Codec) (program : OverlapProgram) (log : List ReplayLogEntry)
    (s : OverlapState) : Prop where
  replaying : s.ctx.replaying = true
  entries : s.ctx.entries = log
  lt : s.ctx.cursor < log.length
  at_once : AtOnce codec program log s.history s.calls s.ctx.cursor
  running : s.running = []
  live : s.live = []
  replayed : List.Forall₂ (RecordedAs codec) s.replayed (log.take s.ctx.cursor)

structure GivenOut (codec : Codec) (log : List ReplayLogEntry) (s : OverlapState) : Prop where
  replaying : s.ctx.replaying = false
  replayed : List.Forall₂ (RecordedAs codec) s.replayed log

theorem Repeating.checkpoint (h : Repeating codec program log s) (w : World) {stepIndex : ℤ}
    {state : Json} (he : .checkpoint stepIndex state ∈ program s.history) :
    Repeating codec program log (s.call codec w (.checkpoint stepIndex state)) ∧
      ((w.checkpoint = .ok () ∧
          (s.call codec w (.checkpoint stepIndex state)).failed = s.failed ∧
          (s.call codec w (.checkpoint stepIndex state)).history =
            s.history ++ [.returned s.calls .done] ∧
          (s.call codec w (.checkpoint stepIndex state)).calls = s.calls + 1 ∧
          (s.call codec w (.checkpoint stepIndex state)).ctx = s.ctx) ∨
        ∃ e, w.checkpoint = .error e ∧
          (s.call codec w (.checkpoint stepIndex state)).failed = some e) := by
  obtain ⟨saved, _, hends⟩ := OverlapState.call_checkpoint codec s w stepIndex state
  rcases hends with ⟨hok, hcall⟩ | ⟨e, herror, hcall⟩
  · rw [hcall]
    exact ⟨⟨h.replaying, h.entries, h.lt, h.at_once.checkpoint h.lt he, h.running, h.live,
      h.replayed⟩, Or.inl ⟨hok, rfl, rfl, rfl, rfl⟩⟩
  · rw [hcall]
    exact ⟨⟨h.replaying, h.entries, h.lt, h.at_once, h.running, h.live, h.replayed⟩,
      Or.inr ⟨e, herror, rfl⟩⟩

theorem Repeating.call_agrees (h : Repeating codec program log s) (w : World) {effect : Effect}
    {type : EffectType} {key : String} {entry : ReplayLogEntry} {v : Value}
    (he : effect ∈ program s.history) (hentry : log[s.ctx.cursor]? = some entry)
    (hk : effect.kind = some (type, key)) (ha : Agrees entry type key)
    (hv : codec.entryValue entry = some v) :
    s.call codec w effect = { s with
        ctx := s.ctx.advance, history := s.history ++ [.returned s.calls v], calls := s.calls + 1
        replayed := s.replayed ++ [⟨effect, .value v⟩] } ∧
      (s.ctx.cursor + 1 < log.length → Repeating codec program log (s.call codec w effect)) ∧
      (¬ s.ctx.cursor + 1 < log.length → GivenOut codec log (s.call codec w effect)) := by
  have hcall : s.call codec w effect = { s with
      ctx := s.ctx.advance, history := s.history ++ [.returned s.calls v], calls := s.calls + 1
      replayed := s.replayed ++ [⟨effect, .value v⟩] } := by
    rw [OverlapState.call_eq hk,
      startEffect_agrees h.replaying (by rw [h.entries]; exact hentry) hk ha hv]
    rfl
  have hrecorded : RecordedAs codec ⟨effect, .value v⟩ entry := ⟨type, key, v, hk, ha, rfl, hv⟩
  have htake : log.take (s.ctx.cursor + 1) = log.take s.ctx.cursor ++ [entry] := by
    rw [List.take_add_one, hentry]
    rfl
  have hreplayed : List.Forall₂ (RecordedAs codec) (s.replayed ++ [⟨effect, .value v⟩])
      (log.take (s.ctx.cursor + 1)) := by
    rw [htake]
    exact List.rel_append h.replayed (List.Forall₂.cons hrecorded List.Forall₂.nil)
  have hmode := advance_replaying h.replaying
  rw [h.entries] at hmode
  refine ⟨hcall, ?_, ?_⟩
  · intro hmore
    rw [hcall]
    refine ⟨hmode.mpr hmore, by rw [advance_entries, h.entries], ?_, ?_, h.running, h.live, ?_⟩
    · rw [advance_cursor]
      exact hmore
    · rw [advance_cursor]
      exact h.at_once.entry hentry he hk ha hv
    · rw [advance_cursor]
      exact hreplayed
  · intro hlast
    rw [hcall]
    refine ⟨?_, ?_⟩
    · rw [← Bool.not_eq_true, hmode]
      exact hlast
    · rw [List.take_of_length_le (by omega)] at hreplayed
      exact hreplayed

theorem GivenOut.next {choice : Choice} (h : GivenOut codec log s)
    (hn : OverlapState.next codec program s choice = some s') :
    GivenOut codec log s' ∧
      ∀ e, s'.failed = some e → ∃ index w, choice = .start index w ∧ w.checkpoint = .error e := by
  obtain ⟨hf, ⟨index, w, effect, rfl, _, rfl⟩ | ⟨index, result, number, key, _, _, rfl⟩⟩ :=
    OverlapState.next_cases hn
  · cases hk : effect.kind with
    | none =>
      obtain ⟨stepIndex, state, rfl⟩ := Effect.eq_checkpoint hk
      obtain ⟨saved, _, hends⟩ := OverlapState.call_checkpoint codec s w stepIndex state
      rcases hends with ⟨_, hcall⟩ | ⟨e, herror, hcall⟩
      · rw [hcall]
        exact ⟨⟨h.replaying, h.replayed⟩, by simp [hf]⟩
      · rw [hcall]
        refine ⟨⟨h.replaying, h.replayed⟩, ?_⟩
        intro e' he'
        cases he'
        exact ⟨index, w, rfl, herror⟩
    | some kind =>
      obtain ⟨type, key⟩ := kind
      rw [OverlapState.call_eq hk]
      rcases startEffect_live codec w h.replaying hk with ⟨entry, v, _, _, _, hstart⟩ | ⟨_, hstart⟩
      · rw [hstart]
        exact ⟨⟨h.replaying, h.replayed⟩, by simp [OverlapState.happen, hf]⟩
      · rw [hstart]
        exact ⟨⟨h.replaying, h.replayed⟩, by simp [OverlapState.happen, hf]⟩
  · cases result with
    | ok v => exact ⟨⟨h.replaying, h.replayed⟩, by simp [OverlapState.complete, hf]⟩
    | error e => exact ⟨⟨h.replaying, h.replayed⟩, by simp [OverlapState.complete, hf]⟩

/-- A re-run that the log carries, failed by nothing but a checkpoint request. -/
structure Carried (codec : Codec) (program : OverlapProgram) (log : List ReplayLogEntry)
    (choices : List Choice) (s : OverlapState) : Prop where
  phase : Repeating codec program log s ∨ GivenOut codec log s
  failure : ∀ e, s.failed = some e → ∃ index w, .start index w ∈ choices ∧ w.checkpoint = .error e

theorem Carried.next {choices : List Choice} {choice : Choice}
    (hvalues : ∀ entry ∈ log, ∃ v, codec.entryValue entry = some v)
    (horder : RecordedInCallOrder codec program log) (h : Carried codec program log choices s)
    (hmem : choice ∈ choices) (hn : OverlapState.next codec program s choice = some s') :
    Carried codec program log choices s' := by
  rcases h.phase with hrep | hout
  · obtain ⟨hf, ⟨index, w, effect, rfl, heffect, rfl⟩ | ⟨index, result, number, key, _, hrun, _⟩⟩ :=
      OverlapState.next_cases hn
    · cases hk : effect.kind with
      | none =>
        obtain ⟨stepIndex, state, rfl⟩ := Effect.eq_checkpoint hk
        obtain ⟨hagain, ⟨_, hfailed, _⟩ | ⟨e, herror, hfailed⟩⟩ := hrep.checkpoint w heffect
        · exact ⟨Or.inl hagain, by simp [hfailed, hf]⟩
        · refine ⟨Or.inl hagain, ?_⟩
          intro e' he'
          rw [hfailed] at he'
          cases he'
          exact ⟨index, w, hmem, herror⟩
      | some kind =>
        obtain ⟨type, key⟩ := kind
        have hcursor := hrep.lt
        have hentry : log[s.ctx.cursor]? = some log[s.ctx.cursor] :=
          List.getElem?_eq_getElem hcursor
        have hagrees := horder _ _ _ _ hrep.at_once hentry effect heffect type key hk
        obtain ⟨v, hv⟩ := hvalues _ (List.getElem_mem hcursor)
        obtain ⟨hcall, hmore, hlast⟩ := hrep.call_agrees w heffect hentry hk hagrees hv
        refine ⟨?_, by rw [hcall]; simp [hf]⟩
        by_cases hlt : s.ctx.cursor + 1 < log.length
        · exact Or.inl (hmore hlt)
        · exact Or.inr (hlast hlt)
    · rw [hrep.running] at hrun
      cases hrun
  · obtain ⟨hagain, hfailure⟩ := hout.next hn
    refine ⟨Or.inr hagain, ?_⟩
    intro e he
    obtain ⟨index, w, rfl, herror⟩ := hfailure e he
    exact ⟨index, w, hmem, herror⟩

theorem OverlapFaithful.of_carried {choices : List Choice}
    (h : Carried codec program log choices s) : OverlapFaithful codec log choices s := by
  refine ⟨h.failure, ?_, ?_⟩
  · rcases h.phase with hrep | hout
    · have hlen := hrep.replayed.length_eq
      rw [List.length_take, Nat.min_eq_left hrep.lt.le] at hlen
      rw [hlen]
      exact hrep.replayed
    · rw [List.take_of_length_le hout.replayed.length_eq.ge]
      exact hout.replayed
  · intro hlive
    rcases h.phase with hrep | hout
    · exact absurd hrep.live hlive
    · exact hout.replayed.length_eq

/-! ## A re-run that meets a call out of order -/

theorem exists_start (codec : Codec) {effect : Effect} (hf : s.failed = none)
    (he : effect ∈ program s.history)
    (w : World) :
    ∃ index, OverlapState.next codec program s (.start index w) = some (s.call codec w effect) := by
  obtain ⟨index, hindex⟩ := List.mem_iff_getElem?.mp he
  refine ⟨index, ?_⟩
  simp only [OverlapState.next, hf, Option.isSome_none, Bool.false_eq_true, if_false, hindex,
    Option.map_some]

/-- Every history of calls answered at once is one that some re-run goes through. -/
theorem atOnce_reached (hstart : Repeating codec program log s) (hhistory : s.history = [])
    (hcalls : s.calls = 0) (hcursor : s.ctx.cursor = 0) (hf : s.failed = none) {w : World}
    (hw : w.checkpoint = .ok ()) {history : List Happening} {calls given : ℕ}
    (h : AtOnce codec program log history calls given) (hlt : given < log.length) :
    ∃ choices t, run (OverlapState.next codec program) s choices = t ∧
      (∀ choice ∈ choices, ∃ index, choice = .start index w) ∧
      Repeating codec program log t ∧ t.history = history ∧ t.calls = calls ∧
      t.ctx.cursor = given ∧ t.failed = none := by
  induction h with
  | start => exact ⟨[], s, rfl, by simp, hstart, hhistory, hcalls, hcursor, hf⟩
  | entry hprev hentry heffect hk ha hv ih =>
    obtain ⟨choices, t, hrun, hstarts, hrep, rfl, rfl, rfl, hfailed⟩ := ih (by omega)
    obtain ⟨index, hnext⟩ := exists_start codec hfailed heffect w
    obtain ⟨hcall, hmore, _⟩ := hrep.call_agrees w heffect hentry hk ha hv
    refine ⟨choices ++ [.start index w], _, ?_, ?_, hmore hlt, ?_⟩
    · rw [run_append, hrun, run_cons, run_nil, apply, hnext, Option.getD_some]
    · intro choice hmem
      rcases List.mem_append.mp hmem with hbefore | hlast
      · exact hstarts choice hbefore
      · exact ⟨index, List.mem_singleton.mp hlast⟩
    · rw [hcall]
      exact ⟨rfl, rfl, advance_cursor, hfailed⟩
  | checkpoint hprev hgiven heffect ih =>
    obtain ⟨choices, t, hrun, hstarts, hrep, rfl, rfl, rfl, hfailed⟩ := ih hgiven
    obtain ⟨index, hnext⟩ := exists_start codec hfailed heffect w
    obtain ⟨hagain, ⟨_, hf', hh', hc', hctx⟩ | ⟨e, he, _⟩⟩ := hrep.checkpoint w heffect
    · refine ⟨choices ++ [.start index w], _, ?_, ?_, hagain, hh', hc', by rw [hctx],
        hf'.trans hfailed⟩
      · rw [run_append, hrun, run_cons, run_nil, apply, hnext, Option.getD_some]
      · intro choice hmem
        rcases List.mem_append.mp hmem with hbefore | hlast
        · exact hstarts choice hbefore
        · exact ⟨index, List.mem_singleton.mp hlast⟩
    · rw [hw] at he
      cases he

/-! ## The exact condition -/

def overlapStart (jobId : String) (attempt : ℤ) (c : List ReplayLogEntry × Json) : OverlapState :=
  ⟨{ jobId, attempt, entries := c.1, replaying := !c.1.isEmpty }, [], 0, [], [], [], some c, none⟩

theorem StoredLog.runOverlap_eq {c : List ReplayLogEntry × Json} (h : StoredLog codec c)
    (hc : codec.RoundTrips c.1) (jobId : String) (attempt : ℤ) (choices : List Choice) :
    runOverlap codec program jobId attempt (some c) choices =
      .ok (run (OverlapState.next codec program) (overlapStart jobId attempt c) choices) := by
  obtain ⟨hrecordable, ctx, stepIndex, state, hentries, hbody⟩ := h
  have hnumbered := hrecordable.numbered
  rw [← hentries] at hc hnumbered
  have hcreate := create_checkpointBody hc hnumbered stepIndex state jobId attempt
  rw [← hbody, hentries] at hcreate
  simp only [runOverlap, Option.map_some, hcreate, ExceptRules.ok_bind]
  rfl

theorem overlapStart_repeating (jobId : String) (attempt : ℤ) {c : List ReplayLogEntry × Json}
    (h : 0 < c.1.length) : Repeating codec program c.1 (overlapStart jobId attempt c) := by
  refine ⟨?_, rfl, h, AtOnce.start, rfl, rfl, List.Forall₂.nil⟩
  simpa [overlapStart, List.isEmpty_iff] using List.ne_nil_of_length_pos h

theorem overlapStart_carried (jobId : String) (attempt : ℤ) (c : List ReplayLogEntry × Json)
    (choices : List Choice) :
    Carried codec program c.1 choices (overlapStart jobId attempt c) := by
  refine ⟨?_, fun e he => by cases he⟩
  rcases Nat.eq_zero_or_pos c.1.length with hnone | hsome
  · have hempty := List.length_eq_zero_iff.mp hnone
    refine Or.inr ⟨by simp [overlapStart, hempty], ?_⟩
    rw [hempty]
    exact List.Forall₂.nil
  · exact Or.inl (overlapStart_repeating jobId attempt hsome)

theorem FirstRun.of_run {jobId : String} {attempt : ℤ} {choices : List Choice}
    (hclock : ∀ index w, .start index w ∈ choices →
      codec.fromIsoformat (codec.isoformat w.clock) = some w.clock)
    (h : runOverlap codec program jobId attempt none choices = .ok s) : FirstRun codec s := by
  cases h
  apply run_invariant (FirstRun codec)
  · refine ⟨rfl, ⟨wellNumbered_nil, ?_⟩, fun c hc => by cases hc⟩
    intro entry he
    cases he
  · intro s choice t hmem hs hn
    exact hs.next (fun index w hchoice => hclock index w (hchoice ▸ hmem)) hn

/-- If the program can make its calls in another order, some re-run is failed by it. -/
theorem agrees_of_faithful {c : List ReplayLogEntry × Json} (jobId : String)
    (hstored : StoredLog codec c) (hlog : codec.RoundTrips c.1)
    (h : ∀ (attempt : ℤ) (again : List Choice), ∃ r,
      runOverlap codec program jobId attempt (some c) again = .ok r ∧
        OverlapFaithful codec c.1 again r) : RecordedInCallOrder codec program c.1 := by
  intro history calls given entry hat hentry effect heffect type key hk
  by_contra hagrees
  obtain ⟨hlt, hfound⟩ := List.getElem?_eq_some_iff.mp hentry
  let w : World := ⟨⟨1, 1, 1, 0, 0, 0, 0, some 0⟩, fun _ => "", .ok .null, true, .ok ()⟩
  have hw : w.checkpoint = .ok () := rfl
  obtain ⟨choices, t, hrun, hstarts, hrep, rfl, _, rfl, hfailed⟩ :=
    atOnce_reached (overlapStart_repeating jobId 2 (Nat.zero_lt_of_lt hlt)) rfl rfl rfl rfl
      hw hat hlt
  obtain ⟨index, hnext⟩ := exists_start codec hfailed heffect w
  obtain ⟨message, hstart⟩ := startEffect_disagrees codec w hrep.replaying
    (by rw [hrep.entries]; exact hentry) hk hagrees
  obtain ⟨r, hr, hfaithful⟩ := h 2 (choices ++ [.start index w])
  rw [hstored.runOverlap_eq hlog, run_append, hrun, run_cons, run_nil, apply, hnext,
    Option.getD_some, OverlapState.call_eq hk, hstart] at hr
  cases hr
  obtain ⟨i, u, hmem, herror⟩ := hfaithful.failure _ rfl
  have hu : u = w := by
    rcases List.mem_append.mp hmem with hbefore | hlast
    · obtain ⟨j, hj⟩ := hstarts _ hbefore
      cases hj
      rfl
    · cases List.mem_singleton.mp hlast
      rfl
  rw [hu, hw] at herror
  cases herror

/-- A log stored by a run whose effects overlapped is replayed faithfully, whatever the
scheduler of the re-run does, exactly when its entries stand in the order in which the
program makes its calls when every recorded call returns at once. -/
theorem overlap_replay_iff (codec : Codec) (program : OverlapProgram) (jobId : String)
    (attempt : ℤ) (choices : List Choice) (first : OverlapState)
    (c : List ReplayLogEntry × Json)
    (hfirst : runOverlap codec program jobId attempt none choices = .ok first)
    (hsaved : first.saved = some c)
    (hclock : ∀ index w, .start index w ∈ choices →
      codec.fromIsoformat (codec.isoformat w.clock) = some w.clock)
    (hlog : codec.RoundTrips c.1) :
    (∀ (attempt : ℤ) (again : List Choice), ∃ r,
        runOverlap codec program jobId attempt (some c) again = .ok r ∧
          OverlapFaithful codec c.1 again r) ↔
      RecordedInCallOrder codec program c.1 := by
  have hstored : StoredLog codec c := (FirstRun.of_run hclock hfirst).saved c hsaved
  constructor
  · exact agrees_of_faithful jobId hstored hlog
  · intro horder attempt again
    have hcarried : Carried codec program c.1 again
        (run (OverlapState.next codec program) (overlapStart jobId attempt c) again) := by
      apply run_invariant (Carried codec program c.1 again)
      · exact overlapStart_carried jobId attempt c again
      · intro s choice t hmem hs hn
        exact hs.next hstored.1.values horder hmem hn
    exact ⟨_, hstored.runOverlap_eq hlog jobId attempt again, OverlapFaithful.of_carried hcarried⟩

/-! Two side effects awaited together, and a side effect whose function reads the clock. -/

def gatherProgram : OverlapProgram
  | [] => [.sideEffect "a"]
  | [.invoked _] => [.sideEffect "b"]
  | [.returned ..] => [.sideEffect "b"]
  | [.invoked _, .invoked _, .returned .., .returned ..] => [.checkpoint 1 .null]
  | _ => []

def nestedProgram : OverlapProgram
  | [] => [.sideEffect "outer"]
  | [.invoked _] => [.now]
  | [.invoked _, .returned .., .returned ..] => [.checkpoint 1 .null]
  | _ => []

def startTime : DateTime := ⟨2026, 1, 15, 10, 0, 0, 0, some 0⟩

def overlapWorld : World := ⟨startTime, fun _ => "", .ok .null, true, .ok ()⟩

def startCodec (log : List ReplayLogEntry) (text : String) : Codec :=
  .ofTexts [(logJson log, text)] [(startTime, "2026-01-15T10:00:00+00:00")]

def inOrderLog : List ReplayLogEntry := [⟨0, .call, .int 1, "a"⟩, ⟨1, .call, .int 2, "b"⟩]

def inOrderCodec : Codec := startCodec inOrderLog
  ("[\x7b\"seq\": 0, \"type\": \"call\", \"result\": 1, \"key\": \"a\"\x7d, "
    ++ "\x7b\"seq\": 1, \"type\": \"call\", \"result\": 2, \"key\": \"b\"\x7d]")

def swappedCodec : Codec :=
  startCodec [⟨0, .call, .int 2, "b"⟩, ⟨1, .call, .int 1, "a"⟩]
  ("[\x7b\"seq\": 0, \"type\": \"call\", \"result\": 2, \"key\": \"b\"\x7d, "
    ++ "\x7b\"seq\": 1, \"type\": \"call\", \"result\": 1, \"key\": \"a\"\x7d]")

def nestedCodec : Codec :=
  startCodec [⟨0, .time, .str "2026-01-15T10:00:00+00:00", "now"⟩, ⟨1, .call, .int 1, "outer"⟩]
  ("[\x7b\"seq\": 0, \"type\": \"time\", \"result\": \"2026-01-15T10:00:00+00:00\", "
    ++ "\"key\": \"now\"\x7d, "
    ++ "\x7b\"seq\": 1, \"type\": \"call\", \"result\": 1, \"key\": \"outer\"\x7d]")

theorem gather_in_order_replay_iff :
    ∃ first c, runOverlap inOrderCodec gatherProgram "job-1" 1 none
        [.start 0 overlapWorld, .start 0 overlapWorld, .complete 0 (.ok (.int 1)),
          .complete 0 (.ok (.int 2)), .start 0 overlapWorld] = .ok first ∧
      first.saved = some c ∧ c.1 = inOrderLog ∧
      ((∀ (attempt : ℤ) (again : List Choice), ∃ r,
          runOverlap inOrderCodec gatherProgram "job-1" attempt (some c) again = .ok r ∧
            OverlapFaithful inOrderCodec c.1 again r) ↔
        RecordedInCallOrder inOrderCodec gatherProgram c.1) := by
  refine ⟨_, _, rfl, rfl, rfl, overlap_replay_iff inOrderCodec gatherProgram "job-1" 1
    [.start 0 overlapWorld, .start 0 overlapWorld, .complete 0 (.ok (.int 1)),
      .complete 0 (.ok (.int 2)), .start 0 overlapWorld] _ _ rfl rfl ?_ ⟨rfl, by decide⟩⟩
  intro index w hmem
  have hw : index = 0 ∧ w = overlapWorld := by simpa using hmem
  rw [hw.2]
  decide

set_option maxRecDepth 4000 in
/-- With the two functions returning in the other order, and with an effect inside a
recorded function, no re-run gets past its first call. -/
theorem overlap_unresumable :
    (∃ first c r, runOverlap swappedCodec gatherProgram "job-1" 1 none
        [.start 0 overlapWorld, .start 0 overlapWorld, .complete 1 (.ok (.int 2)),
          .complete 0 (.ok (.int 1)), .start 0 overlapWorld] = .ok first ∧
      first.saved = some c ∧
      runOverlap swappedCodec gatherProgram "job-1" 2 (some c) [.start 0 overlapWorld] = .ok r ∧
      r.failed = some (.durableReplay
        "replay cursor 0 expected side effect key 'a', found 'b'")) ∧
    ∃ first c r, runOverlap nestedCodec nestedProgram "job-1" 1 none
        [.start 0 overlapWorld, .start 0 overlapWorld, .complete 0 (.ok (.int 1)),
          .start 0 overlapWorld] = .ok first ∧
      first.saved = some c ∧
      runOverlap nestedCodec nestedProgram "job-1" 2 (some c) [.start 0 overlapWorld] = .ok r ∧
      r.failed = some (.durableReplay "replay cursor 0 expected 'call', found 'time'") :=
  ⟨⟨_, _, _, rfl, rfl, rfl, by decide⟩, ⟨_, _, _, rfl, rfl, rfl, by decide⟩⟩

end OpenJobSpec.Durable
