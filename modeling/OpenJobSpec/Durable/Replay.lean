import OpenJobSpec.Durable.Paths

/-! # Replay along a recorded path

A run that loads a log first follows the path along which the log was recorded,
taking every value from the log, and from its last entry on performs and records
each effect live. The path must be free of exceptions up to the last entry: an
exception leaves no entry, so it cannot be followed.
-/
namespace OpenJobSpec.Durable
open Runs RunState DurableContext

variable {codec : Codec} {program : Program} {path : List Event} {log : List ReplayLogEntry}
  {s s' : RunState} {w : World}

/-- A path that a run can follow from the log: the log records it, it has no exception on
it, and it ends with a recorded event. -/
structure Followable (codec : Codec) (program : Program) (path : List Event)
    (log : List ReplayLogEntry) : Prop where
  path_of : PathOf program path
  records : Records codec path log
  no_raised : ∀ event ∈ path, ¬ event.isRaised
  tail : ∀ before after, path = before ++ after → after.filter Event.recorded = [] → after = []

theorem Followable.nil : Followable codec program [] [] :=
  ⟨PathOf.nil, Records.nil, by simp, fun _ _ h _ => (List.append_eq_nil_iff.mp h.symm).2⟩

theorem Followable.of_records {path : List Event} (hp : PathOf program path)
    (hr : Records codec path log) (hn : ∀ event ∈ recordedPath path, ¬ event.isRaised) :
    Followable codec program (recordedPath path) log :=
  ⟨hp.prefix_of (recordedPath_initial path), hr.recordedPath, hn, fun _ _ => recordedPath_tail⟩

/-- The checkpoint of the backend after a step is the one before it, or one of the state. -/
def SavedStep (codec : Codec) (s : RunState) (saved : Option Saved) : Prop :=
  saved = s.saved ∨ ∃ stepIndex state,
    saved = some ⟨s.path, s.ctx.entries, s.returned, s.ctx.checkpointBody codec stepIndex state⟩

theorem failed_of_step (hn : RunState.step codec program s w = some s') : s.failed = none := by
  unfold RunState.step at hn
  by_contra hsome
  rw [if_pos (Option.isSome_iff_ne_none.mpr hsome)] at hn
  cases hn

/-! ## The replaying phase -/

/-- The run has followed the path to a point before its last recorded event. -/
structure Replaying (log : List ReplayLogEntry) (path : List Event) (s : RunState) : Prop where
  replaying : s.ctx.replaying = true
  entries : Became log s.ctx.entries
  ahead : s.ctx.entries.drop s.ctx.cursor = log.drop s.ctx.cursor
  returned : s.returned = log
  cursor : s.ctx.cursor = (s.performed.filter Event.recorded).length
  lt : s.ctx.cursor < log.length
  follows : s.performed <+: path
  live : s.live = []

theorem Replaying.length_entries (h : Replaying log path s) :
    s.ctx.entries.length = log.length :=
  h.entries.length_eq.symm

/-- The entry that is looked up next is the loaded one. -/
theorem Replaying.entry_at (h : Replaying log path s) :
    s.ctx.entries[s.ctx.cursor]? = log[s.ctx.cursor]? := by
  have hhead := congrArg List.head? h.ahead
  rwa [List.head?_drop, List.head?_drop] at hhead

theorem Replaying.change (h : Replaying log path s) (changes : List (ℕ × Json)) :
    Replaying log path (s.change changes) := by
  have hc := s.ctx.changedTo_changeAll changes
  refine ⟨hc.replaying.trans h.replaying, Became.trans h.entries hc.entries, ?_, h.returned,
    hc.cursor.trans h.cursor, hc.cursor ▸ h.lt, h.follows, h.live⟩
  simp only [RunState.change, hc.cursor]
  exact (hc.ahead h.replaying).trans h.ahead

theorem Replaying.next_event (hrec : Records codec path log) (h : Replaying log path s) :
    ∃ event rest, path = s.performed ++ event :: rest := by
  obtain ⟨rest, hrest⟩ := h.follows
  cases rest with
  | cons event rest => exact ⟨event, rest, hrest.symm⟩
  | nil =>
    rw [List.append_nil] at hrest
    have hlen := hrec.length_eq
    have hcursor := h.cursor
    have hlt := h.lt
    rw [hrest] at hcursor
    omega

theorem Replaying.next_eq (hp : PathOf program path) (h : Replaying log path s)
    (hf : s.failed = none) {event : Event} {rest : List Event}
    (hevent : path = s.performed ++ event :: rest) (hn : ¬ event.isRaised)
    (hat : event.recorded = true → ∃ entry,
      log[(s.performed.filter Event.recorded).length]? = some entry ∧ RecordedAs codec event entry)
    (w : World) :
    ∃ saved, SavedStep codec s saved ∧
      ((∃ e, w.checkpoint = .error e ∧
          RunState.step codec program s w = some { s with saved, failed := some e }) ∨
        RunState.step codec program s w = some { s with
          ctx := if event.recorded then s.ctx.advance else s.ctx
          saved, performed := s.performed ++ [event] }) := by
  have hstep : RunState.step codec program s w = some (s.perform codec w event.effect) := by
    have hprogram := hp.step _ _ _ hevent
    simp only [RunState.step, hf, Option.isSome_none, Bool.false_eq_true, if_false, replies,
      hprogram, Option.map_some]
  cases hk : event.effect.kind with
  | none =>
    have hunrecorded : event.recorded = false := by simp [Event.recorded, Event.effectful, hk]
    have hreply := hp.checkpoint event (by simp [hevent]) hk
    obtain ⟨effect, reply⟩ := event
    dsimp only at hk hreply hstep
    subst hreply
    obtain ⟨stepIndex, state, rfl⟩ := Effect.eq_checkpoint hk
    obtain ⟨saved, hsaved, hends⟩ := perform_checkpoint codec s w stepIndex state
    refine ⟨saved, hsaved.imp_right fun h => ⟨stepIndex, state, h⟩, ?_⟩
    rw [hstep]
    rcases hends with ⟨_, hok⟩ | ⟨e, he, herror⟩
    · exact Or.inr (by rw [hok, hunrecorded]; rfl)
    · exact Or.inl ⟨e, he, by rw [herror]⟩
  | some kind =>
    have hrecorded : event.recorded = true :=
      Event.recorded_iff.mpr ⟨by simp [Event.effectful, hk], hn⟩
    obtain ⟨entry, hentry, type, key, v, hkind, hagrees, hreply, hvalue⟩ := hat hrecorded
    rw [← h.cursor, ← h.entry_at] at hentry
    have hperform : s.perform codec w event.effect = s.replayed s.ctx.advance event.effect v :=
      perform_replayed h.replaying hentry hkind hagrees hvalue
    refine ⟨s.saved, Or.inl rfl, Or.inr ?_⟩
    have heta : (⟨event.effect, .value v⟩ : Event) = event := by rw [← hreply]
    rw [hstep, hperform, hrecorded]
    simp only [replayed, heta, if_true]

theorem Replaying.follow (h : Replaying log path s) {event : Event} {rest : List Event}
    (hevent : path = s.performed ++ event :: rest) (saved : Option Saved)
    (hmore : ((s.performed ++ [event]).filter Event.recorded).length < log.length) :
    Replaying log path { s with
      ctx := if event.recorded then s.ctx.advance else s.ctx
      saved, performed := s.performed ++ [event] } := by
  have hfollows : s.performed ++ [event] <+: path :=
    ⟨rest, by rw [hevent, List.append_assoc, List.singleton_append]⟩
  rw [List.filter_append] at hmore
  by_cases hrecorded : event.recorded = true
  · rw [List.filter_cons_of_pos hrecorded, List.length_append, ← h.cursor] at hmore
    have hcount : ((s.performed ++ [event]).filter Event.recorded).length = s.ctx.cursor + 1 := by
      rw [List.filter_append, List.filter_cons_of_pos hrecorded, List.length_append, h.cursor]
      rfl
    simp only [hrecorded, if_true]
    refine ⟨?_, ?_, ?_, h.returned, ?_, ?_, hfollows, h.live⟩
    · exact (advance_replaying h.replaying).mpr (by rw [h.length_entries]; exact hmore)
    · simp only [advance_entries]
      exact h.entries
    · simp only [advance_entries, advance_cursor]
      rw [← List.drop_drop, h.ahead, List.drop_drop]
    · simp only [advance_cursor, hcount]
    · simp only [advance_cursor]
      exact hmore
  · rw [Bool.not_eq_true] at hrecorded
    have hcount : (s.performed ++ [event]).filter Event.recorded =
        s.performed.filter Event.recorded := by
      simp [List.filter_append, hrecorded]
    simp only [hrecorded, Bool.false_eq_true, if_false]
    exact ⟨h.replaying, h.entries, h.ahead, h.returned, by rw [hcount]; exact h.cursor, h.lt,
      hfollows, h.live⟩

/-- A step of the replaying phase fails with its checkpoint request, goes on replaying, or
reaches the end of the path and with it the live phase. -/
theorem Replaying.next_cases (hl : Followable codec program path log) (h : Replaying log path s)
    (hn : RunState.step codec program s w = some s') :
    s'.origin = s.origin ∧ s'.ctx.entries = s.ctx.entries ∧ SavedStep codec s s'.saved ∧
    ((∃ e, w.checkpoint = .error e ∧ s'.failed = some e ∧ Replaying log path s') ∨
      (s'.failed = none ∧ Replaying log path s') ∨
      (s'.failed = none ∧ s'.ctx.replaying = false ∧ s'.returned = log ∧ s'.performed = path ∧
        s'.live = [])) := by
  have hf : s.failed = none := failed_of_step hn
  obtain ⟨event, rest, hevent⟩ := h.next_event hl.records
  have hraised : ¬ event.isRaised := hl.no_raised event (by simp [hevent])
  have hrec := hl.records
  rw [hevent] at hrec
  obtain ⟨saved, hsaved, hnext⟩ :=
    h.next_eq hl.path_of hf hevent hraised (fun hrecorded => hrec.entry_at hrecorded) w
  rcases hnext with ⟨e, he, hnext⟩ | hnext
  · rw [hnext] at hn
    cases hn
    exact ⟨rfl, rfl, hsaved,
      Or.inl ⟨e, he, rfl, ⟨h.replaying, h.entries, h.ahead, h.returned, h.cursor, h.lt, h.follows,
        h.live⟩⟩⟩
  rw [hnext] at hn
  cases hn
  have hentries : (if event.recorded then s.ctx.advance else s.ctx).entries = s.ctx.entries := by
    split
    · exact advance_entries
    · rfl
  refine ⟨rfl, hentries, hsaved, Or.inr ?_⟩
  by_cases hmore : ((s.performed ++ [event]).filter Event.recorded).length < log.length
  · exact Or.inl ⟨hf, h.follow hevent saved hmore⟩
  have hsplit : path = (s.performed ++ [event]) ++ rest := by
    rw [hevent, List.append_assoc, List.singleton_append]
  have hlen := hl.records.length_eq
  rw [hsplit, List.filter_append, List.length_append] at hlen
  have hrest : rest = [] := by
    apply hl.tail _ rest hsplit
    exact List.length_eq_zero_iff.mp (by omega)
  have hrecorded : event.recorded = true := by
    by_contra hnot
    have hcount : (s.performed ++ [event]).filter Event.recorded =
        s.performed.filter Event.recorded := by
      simp [List.filter_append, hnot]
    rw [hcount, ← h.cursor] at hmore
    exact hmore h.lt
  refine Or.inr ⟨hf, ?_, h.returned, ?_, h.live⟩
  · simp only [hrecorded, if_true]
    rw [← Bool.not_eq_true, advance_replaying h.replaying, h.length_entries]
    rw [List.filter_append, List.filter_cons_of_pos hrecorded, List.length_append, ← h.cursor]
      at hmore
    exact hmore
  · rw [hevent, hrest]

/-! ## The live phase -/

theorem next_live_cases (hr : s.ctx.replaying = false)
    (hn : RunState.step codec program s w = some s') :
    s'.origin = s.origin ∧ s'.ctx.replaying = false ∧ SavedStep codec s s'.saved ∧
    ((∃ e, w.checkpoint = .error e ∧ s'.failed = some e ∧ s'.ctx = s.ctx ∧
        s'.returned = s.returned ∧ s'.performed = s.performed ∧ s'.live = s.live) ∨
      s'.failed = none ∧ ∃ event, program s.replies = some event.effect ∧
        s'.performed = s.performed ++ [event] ∧
        ((event.effect.kind = none ∧ event.reply = .value .done ∧ s'.ctx = s.ctx ∧
            s'.returned = s.returned ∧ s'.live = s.live) ∨
          (event.effectful = true ∧ s'.live = s.live ++ [event] ∧
            ((event.isRaised ∧ s'.ctx = s.ctx ∧ s'.returned = s.returned) ∨
              ∃ entry : ReplayLogEntry, entry.seq = s.ctx.entries.length ∧
                s'.ctx.entries = s.ctx.entries ++ [entry] ∧
                s'.returned = s.returned ++ [entry] ∧
                (codec.fromIsoformat (codec.isoformat w.clock) = some w.clock →
                  RecordedAs codec event entry))))) := by
  have hf : s.failed = none := failed_of_step hn
  obtain ⟨effect, hprogram, hperform⟩ : ∃ effect, program s.replies = some effect ∧
      s.perform codec w effect = s' := by
    simpa only [RunState.step, hf, Option.isSome_none, Bool.false_eq_true, if_false,
      Option.map_eq_some_iff] using hn
  cases hk : effect.kind with
  | none =>
    obtain ⟨stepIndex, state, rfl⟩ := Effect.eq_checkpoint hk
    obtain ⟨saved, hsaved, hends⟩ := perform_checkpoint codec s w stepIndex state
    have hsaved : SavedStep codec s saved := hsaved.imp_right fun h => ⟨stepIndex, state, h⟩
    rcases hends with ⟨_, hok⟩ | ⟨e, he, herror⟩
    · rw [hok] at hperform
      subst hperform
      exact ⟨rfl, hr, hsaved, Or.inr ⟨hf, _, hprogram, rfl, Or.inl ⟨rfl, rfl, rfl, rfl, rfl⟩⟩⟩
    · rw [herror] at hperform
      subst hperform
      exact ⟨rfl, hr, hsaved, Or.inl ⟨e, he, rfl, rfl, rfl, rfl, rfl⟩⟩
  | some kind =>
    obtain ⟨type, key⟩ := kind
    have heffectful (reply : Reply) : (⟨effect, reply⟩ : Event).effectful = true := by
      simp [Event.effectful, hk]
    rcases perform_live codec w hr hk with
      ⟨entry, v, hseq, hagrees, hvalue, hlive⟩ | ⟨e, hlive⟩
    · rw [hlive] at hperform
      subst hperform
      exact ⟨rfl, hr, Or.inl rfl, Or.inr ⟨hf, _, hprogram, rfl, Or.inr ⟨heffectful _, rfl,
        Or.inr ⟨entry, hseq, rfl, by simp [performedLive],
          fun hc => ⟨type, key, v, hk, hagrees, rfl, hvalue hc⟩⟩⟩⟩⟩
    · rw [hlive] at hperform
      subst hperform
      exact ⟨rfl, hr, Or.inl rfl, Or.inr ⟨hf, _, hprogram, rfl, Or.inr ⟨heffectful _, rfl,
        Or.inl ⟨⟨e, rfl⟩, rfl, by simp [performedLive]⟩⟩⟩⟩

/-! ## The run -/

/-- The run has followed the path to its end, and every effect since was performed live. -/
structure Live (log : List ReplayLogEntry) (path : List Event) (s : RunState) : Prop where
  replaying : s.ctx.replaying = false
  extends_log : log <+: s.returned
  follows : path <+: s.performed
  used_up : log.length ≤ (s.performed.filter Event.effectful).length
  live : s.live = (s.performed.filter Event.effectful).drop log.length

theorem effectful_eq_recorded (hn : ∀ event ∈ path, ¬ event.isRaised) :
    path.filter Event.effectful = path.filter Event.recorded := by
  apply List.filter_congr
  intro event he
  rw [Bool.eq_iff_iff, Event.recorded_iff]
  exact ⟨fun h => ⟨h, hn event he⟩, fun h => h.1⟩

theorem Live.change (h : Live log path s) (changes : List (ℕ × Json)) :
    Live log path (s.change changes) :=
  ⟨(s.ctx.changedTo_changeAll changes).replaying.trans h.replaying, h.extends_log, h.follows,
    h.used_up, h.live⟩

theorem Live.step (h : Live log path s) (hn : RunState.step codec program s w = some s') :
    Live log path s' := by
  obtain ⟨_, hreplaying, _, hends⟩ := next_live_cases h.replaying hn
  rcases hends with ⟨e, _, _, _, hreturned, hperformed, hlive⟩ | ⟨_, event, _, hperformed, hkind⟩
  · exact ⟨hreplaying, by rw [hreturned]; exact h.extends_log, by rw [hperformed]; exact h.follows,
      by rw [hperformed]; exact h.used_up, by rw [hperformed, hlive]; exact h.live⟩
  have hfollows : path <+: s'.performed := by
    rw [hperformed]
    exact h.follows.trans (List.prefix_append _ _)
  rcases hkind with ⟨hk, _, _, hreturned, hlive⟩ | ⟨he, hlive, hentries⟩
  · have hfilter : s'.performed.filter Event.effectful = s.performed.filter Event.effectful := by
      rw [hperformed, List.filter_append]
      simp [Event.effectful, hk]
    exact ⟨hreplaying, by rw [hreturned]; exact h.extends_log, hfollows,
      by rw [hfilter]; exact h.used_up, by rw [hfilter, hlive]; exact h.live⟩
  · have hfilter : s'.performed.filter Event.effectful =
        s.performed.filter Event.effectful ++ [event] := by
      rw [hperformed, List.filter_append, List.filter_cons_of_pos he, List.filter_nil]
    have hextends : log <+: s'.returned := by
      rcases hentries with ⟨_, _, hreturned⟩ | ⟨entry, _, _, hreturned, _⟩
      · rw [hreturned]
        exact h.extends_log
      · rw [hreturned]
        exact h.extends_log.trans (List.prefix_append _ _)
    refine ⟨hreplaying, hextends, hfollows, ?_, ?_⟩
    · rw [hfilter, List.length_append]
      exact Nat.le_add_right_of_le h.used_up
    · rw [hfilter, hlive, List.drop_append_of_le_length h.used_up, ← h.live]

theorem Live.of_end (hl : Followable codec program path log) (hr : s.ctx.replaying = false)
    (hreturned : s.returned = log) (hperformed : s.performed = path) (hlive : s.live = []) :
    Live log path s := by
  have hlen : (s.performed.filter Event.effectful).length = log.length := by
    rw [hperformed, effectful_eq_recorded hl.no_raised]
    exact hl.records.length_eq
  refine ⟨hr, by rw [hreturned], by rw [hperformed], hlen.ge, ?_⟩
  rw [hlive, List.drop_eq_nil_of_le hlen.le]

/-- A run along the path, before or after its end, which only a checkpoint request has failed. -/
structure Resumes (log : List ReplayLogEntry) (path : List Event) (worlds : List Turn)
    (s : RunState) : Prop where
  phase : Replaying log path s ∨ Live log path s
  failure : ∀ e, s.failed = some e → ∃ w ∈ worlds, w.checkpoint = .error e

theorem Resumes.change {worlds : List Turn} (h : Resumes log path worlds s)
    (changes : List (ℕ × Json)) : Resumes log path worlds (s.change changes) :=
  ⟨h.phase.imp (fun hr => hr.change changes) fun hl => hl.change changes, h.failure⟩

theorem Resumes.next {worlds : List Turn} {turn : Turn} (hl : Followable codec program path log)
    (h : Resumes log path worlds s) (hw : turn ∈ worlds)
    (hn : RunState.next codec program s turn = some s') : Resumes log path worlds s' := by
  rcases (h.change turn.changes).phase with hreplay | hlive
  · obtain ⟨_, _, _, hends⟩ := hreplay.next_cases hl hn
    rcases hends with ⟨e, he, hf, hp⟩ | ⟨hf, hp⟩ | ⟨hf, hr, hreturned, hperformed, hnolive⟩
    · refine ⟨Or.inl hp, ?_⟩
      intro e' he'
      rw [hf] at he'
      cases he'
      exact ⟨turn, hw, he⟩
    · exact ⟨Or.inl hp, by simp [hf]⟩
    · exact ⟨Or.inr (Live.of_end hl hr hreturned hperformed hnolive), by simp [hf]⟩
  · refine ⟨Or.inr (hlive.step hn), ?_⟩
    obtain ⟨_, _, _, ⟨e, he, hf, _⟩ | ⟨hf, _⟩⟩ := next_live_cases hlive.replaying hn
    · intro e' he'
      rw [hf] at he'
      cases he'
      exact ⟨turn, hw, he⟩
    · simp [hf]

/-- Where nothing is changed in place the log goes on holding the entries as they were returned. -/
theorem Resumes.next_as_returned {worlds : List Turn} {turn : Turn}
    (hl : Followable codec program path log) (h : Resumes log path worlds s)
    (hs : s.ctx.entries = s.returned) (hchanges : turn.changes = [])
    (hn : RunState.next codec program s turn = some s') : s'.ctx.entries = s'.returned := by
  rw [RunState.next, hchanges] at hn
  rcases h.phase with hreplay | hlive
  · obtain ⟨_, hentries, _, hends⟩ := hreplay.next_cases hl hn
    rw [hentries, hs, hreplay.returned]
    rcases hends with ⟨_, _, _, hp⟩ | ⟨_, hp⟩ | ⟨_, _, hreturned, _⟩
    · exact hp.returned.symm
    · exact hp.returned.symm
    · exact hreturned.symm
  · obtain ⟨_, _, _, hends⟩ := next_live_cases hlive.replaying hn
    rcases hends with ⟨_, _, _, hctx, hreturned, _⟩ | ⟨_, event, _, _, hkind⟩
    · rw [hctx, hreturned, hs]
    rcases hkind with ⟨_, _, hctx, hreturned, _⟩ | ⟨_, _, hentry⟩
    · rw [hctx, hreturned, hs]
    rcases hentry with ⟨_, hctx, hreturned⟩ | ⟨entry, _, hentries, hreturned, _⟩
    · rw [hctx, hreturned, hs]
    · rw [hentries, hreturned, hs]

end OpenJobSpec.Durable
