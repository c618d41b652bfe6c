import OpenJobSpec.Durable.Replay

/-! # Faithful replay over any number of rounds

Every checkpoint a run stores records a path of the program, so the next round
can follow it again, unless a recorded object was changed in place before the
checkpoint. A program that stops at its first exception records no exception,
and for it this carries through every round of crash and reload.
-/
namespace OpenJobSpec.Durable
open Runs RunState DurableContext

variable {codec : Codec} {program : Program} {path : List Event} {log : List ReplayLogEntry}
  {s s' : RunState} {w : World} {turn : Turn}

structure SavedSound (codec : Codec) (program : Program) (c : Saved) : Prop where
  path_of : PathOf program c.path
  records : Records codec c.path c.returned
  became : Became c.returned c.log
  body : ∃ (ctx : DurableContext) (stepIndex : ℤ) (state : Json), ctx.entries = c.log ∧
    c.body = ctx.checkpointBody codec stepIndex state

structure Sound (codec : Codec) (program : Program) (s : RunState) : Prop where
  performed : PathOf program s.performed
  path_of : PathOf program s.path
  records : Records codec s.path s.returned
  became : Became s.returned s.ctx.entries
  saved : ∀ c, s.saved = some c → SavedSound codec program c

/-- The clock values of a round survive `isoformat` and `fromisoformat`. -/
def ClocksRoundTrip (codec : Codec) (worlds : List Turn) : Prop :=
  ∀ w ∈ worlds, codec.fromIsoformat (codec.isoformat w.clock) = some w.clock

/-! ## A run keeps the log recording its path -/

theorem Sound.savedStep {saved : Option Saved} (h : Sound codec program s)
    (hs : SavedStep codec s saved) : ∀ c, saved = some c → SavedSound codec program c := by
  rcases hs with rfl | ⟨stepIndex, state, rfl⟩
  · exact h.saved
  · intro c hc
    cases hc
    exact ⟨h.path_of, h.records, h.became, s.ctx, stepIndex, state, rfl, rfl⟩

theorem Sound.change (h : Sound codec program s) (changes : List (ℕ × Json)) :
    Sound codec program (s.change changes) := by
  have hc := s.ctx.changedTo_changeAll changes
  have hpath : (s.change changes).path = s.path := by
    simp only [RunState.path, RunState.change, hc.replaying]
  exact ⟨h.performed, by rw [hpath]; exact h.path_of, by rw [hpath]; exact h.records,
    Became.trans h.became hc.entries, h.saved⟩

theorem Sound.step {worlds : List Turn} (hl : Followable codec program path log)
    (hr : Resumes log path worlds s) (h : Sound codec program s)
    (hclock : codec.fromIsoformat (codec.isoformat w.clock) = some w.clock)
    (hn : RunState.step codec program s w = some s') : Sound codec program s' := by
  rcases hr.phase with hreplay | hlive
  · have hpath : s.path = s.origin := by simp only [RunState.path, hreplay.replaying, if_true]
    obtain ⟨horigin, hentries, hsaved, hends⟩ := hreplay.next_cases hl hn
    have hagain : Replaying log path s' → Sound codec program s' := by
      intro hp
      have hpath' : s'.path = s.path := by
        rw [hpath, ← horigin]
        simp only [RunState.path, hp.replaying, if_true]
      have hreturned : s'.returned = s.returned := hp.returned.trans hreplay.returned.symm
      exact ⟨hl.path_of.prefix_of hp.follows, by rw [hpath']; exact h.path_of,
        by rw [hpath', hreturned]; exact h.records,
        by rw [hreturned, hentries]; exact h.became, h.savedStep hsaved⟩
    rcases hends with ⟨_, _, _, hp⟩ | ⟨_, hp⟩ | ⟨_, hdone, hreturned, hperformed, _⟩
    · exact hagain hp
    · exact hagain hp
    · have hpath' : s'.path = path := by
        simp only [RunState.path, hdone, Bool.false_eq_true, if_false, hperformed]
      exact ⟨by rw [hperformed]; exact hl.path_of, by rw [hpath']; exact hl.path_of,
        by rw [hpath', hreturned]; exact hl.records,
        by rw [hreturned, hentries]; exact hreplay.entries, h.savedStep hsaved⟩
  · have hpath : s.path = s.performed := by
      simp only [RunState.path, hlive.replaying, Bool.false_eq_true, if_false]
    obtain ⟨_, hreplaying, hsaved, hends⟩ := next_live_cases hlive.replaying hn
    have hpath' : s'.path = s'.performed := by
      simp only [RunState.path, hreplaying, Bool.false_eq_true, if_false]
    have hrecords : Records codec s.performed s.returned := hpath ▸ h.records
    rcases hends with ⟨e, _, _, hctx, hreturned, hperformed, _⟩ |
      ⟨_, event, hprogram, hperformed, hkind⟩
    · exact ⟨by rw [hperformed]; exact h.performed, by rw [hpath', hperformed]; exact h.performed,
        by rw [hpath', hperformed, hreturned]; exact hrecords,
        by rw [hreturned, hctx]; exact h.became, h.savedStep hsaved⟩
    have hof : PathOf program s'.performed := by
      rw [hperformed]
      apply h.performed.concat hprogram
      intro hk
      rcases hkind with ⟨_, hreply, _⟩ | ⟨heffectful, _⟩
      · exact hreply
      · simp [Event.effectful, hk] at heffectful
    have hends : Records codec s'.performed s'.returned ∧ Became s'.returned s'.ctx.entries := by
      rw [hperformed]
      rcases hkind with ⟨hk, _, hctx, hreturned, _⟩ |
        ⟨_, _, ⟨hraised, hctx, hreturned⟩ | ⟨entry, hseq, hentries, hreturned, hrecorded⟩⟩
      · rw [hctx, hreturned]
        exact ⟨hrecords.concat_unrecorded (by simp [Event.recorded, Event.effectful, hk]), h.became⟩
      · rw [hctx, hreturned]
        refine ⟨hrecords.concat_unrecorded ?_, h.became⟩
        rw [← Bool.not_eq_true, Event.recorded_iff]
        exact fun hrec => hrec.2 hraised
      · rw [hentries, hreturned]
        exact ⟨hrecords.concat_recorded (hrecorded hclock) (by rw [hseq, h.became.length_eq]),
          List.rel_append h.became (.cons .rfl .nil)⟩
    exact ⟨hof, by rw [hpath']; exact hof, by rw [hpath']; exact hends.1, hends.2,
      h.savedStep hsaved⟩

theorem Sound.next {worlds : List Turn} (hl : Followable codec program path log)
    (hr : Resumes log path worlds s) (h : Sound codec program s)
    (hclock : codec.fromIsoformat (codec.isoformat turn.clock) = some turn.clock)
    (hn : RunState.next codec program s turn = some s') : Sound codec program s' :=
  (h.change turn.changes).step hl (hr.change turn.changes) hclock hn

/-! ## Starting from a stored checkpoint -/

def savedLog (saved : Option Saved) : List ReplayLogEntry := (saved.map Saved.log).getD []

def savedPath (saved : Option Saved) : List Event := (saved.map Saved.path).getD []

theorem SavedSound.numbered {c : Saved} (h : SavedSound codec program c) : WellNumbered c.log :=
  wellNumbered_of_became h.became h.records.numbered

/-- What a run may start from: nothing, or a checkpoint that is sound and reads back. -/
def Loadable (codec : Codec) (program : Program) (saved : Option Saved) : Prop :=
  ∀ c, saved = some c → SavedSound codec program c ∧ codec.RoundTrips c.log

theorem Loadable.records {saved : Option Saved} (h : Loadable codec program saved)
    (hu : ∀ c, saved = some c → c.Unchanged) :
    PathOf program (savedPath saved) ∧ Records codec (savedPath saved) (savedLog saved) := by
  cases saved with
  | none => exact ⟨PathOf.nil, Records.nil⟩
  | some c =>
    refine ⟨(h c rfl).1.path_of, ?_⟩
    have hrecords := (h c rfl).1.records
    rwa [← hu c rfl] at hrecords

theorem Loadable.create {saved : Option Saved} (h : Loadable codec program saved) (jobId : String)
    (attempt : ℤ) :
    DurableContext.create codec jobId attempt (.ok (resumeResponse (saved.map Saved.body))) =
      .ok { jobId, attempt, entries := savedLog saved
            replaying := !(savedLog saved).isEmpty } := by
  cases saved with
  | none => rfl
  | some c =>
    obtain ⟨hsound, hroundTrips⟩ := h c rfl
    have hnumbered := hsound.numbered
    obtain ⟨_, _, _, ctx, stepIndex, state, hentries, hbody⟩ := hsound
    rw [← hentries] at hnumbered hroundTrips
    have hcreate := create_checkpointBody hroundTrips hnumbered stepIndex state jobId attempt
    rw [← hbody, hentries] at hcreate
    exact hcreate

def startState (jobId : String) (attempt : ℤ) (saved : Option Saved) : RunState :=
  ⟨{ jobId, attempt, entries := savedLog saved, replaying := !(savedLog saved).isEmpty },
    savedLog saved, savedPath saved, [], [], saved, none⟩

theorem Loadable.runRound_eq {saved : Option Saved} (h : Loadable codec program saved)
    (jobId : String) (round : Round) :
    runRound codec program jobId saved round =
      .ok (run (RunState.next codec program) (startState jobId round.attempt saved)
        round.worlds) := by
  simp only [runRound, h.create, ExceptRules.ok_bind]
  rfl

theorem startState_replaying (saved : Option Saved) (jobId : String) (attempt : ℤ)
    (path : List Event) (hlog : 0 < (savedLog saved).length) :
    Replaying (savedLog saved) path (startState jobId attempt saved) := by
  refine ⟨?_, Became.rfl, rfl, rfl, rfl, hlog, List.nil_prefix, rfl⟩
  simpa [startState, List.isEmpty_iff] using List.ne_nil_of_length_pos hlog

theorem startState_resumes {saved : Option Saved} (jobId : String) (attempt : ℤ)
    (worlds : List Turn)
    (hl : Followable codec program path (savedLog saved)) :
    Resumes (savedLog saved) path worlds (startState jobId attempt saved) := by
  refine ⟨?_, fun e he => by cases he⟩
  rcases Nat.eq_zero_or_pos (savedLog saved).length with hnone | hlog
  · have hempty := List.length_eq_zero_iff.mp hnone
    have hpath : path = [] := by
      apply hl.tail [] path rfl
      apply List.length_eq_zero_iff.mp
      rw [hl.records.length_eq, hnone]
    subst hpath
    exact Or.inr (Live.of_end hl (by simp [startState, hempty]) rfl rfl rfl)
  · exact Or.inl (startState_replaying saved jobId attempt path hlog)

theorem startState_sound {saved : Option Saved} (h : Loadable codec program saved)
    (hu : ∀ c, saved = some c → c.Unchanged) (jobId : String) (attempt : ℤ) :
    Sound codec program (startState jobId attempt saved) := by
  obtain ⟨hpath, hrecords⟩ := h.records hu
  have hsaved : ∀ c, saved = some c → SavedSound codec program c := fun c hc => (h c hc).1
  cases hlog : savedLog saved with
  | nil =>
    have hempty : (startState jobId attempt saved).path = [] := by
      simp [RunState.path, startState, hlog]
    refine ⟨PathOf.nil, by rw [hempty]; exact PathOf.nil, ?_, Became.rfl, hsaved⟩
    rw [hempty]
    simp only [startState, hlog]
    exact Records.nil
  | cons entry rest =>
    have horigin : (startState jobId attempt saved).path = savedPath saved := by
      simp [RunState.path, startState, hlog]
    exact ⟨PathOf.nil, by rw [horigin]; exact hpath, by rw [horigin]; exact hrecords, Became.rfl,
      hsaved⟩

/-- A run from a loadable checkpoint follows the recorded path of that checkpoint, and with
clocks that round-trip it goes on recording its path. -/
theorem runRound_resumes {saved : Option Saved} (h : Loadable codec program saved)
    (hu : ∀ c, saved = some c → c.Unchanged)
    (hn : ∀ event ∈ recordedPath (savedPath saved), ¬ event.isRaised) (jobId : String)
    (round : Round) :
    ∃ s, runRound codec program jobId saved round = .ok s ∧
      Resumes (savedLog saved) (recordedPath (savedPath saved)) round.worlds s ∧
      (ClocksRoundTrip codec round.worlds → Sound codec program s) ∧
      ((∀ turn ∈ round.worlds, turn.changes = []) → s.ctx.entries = s.returned) := by
  obtain ⟨hpath, hrecords⟩ := h.records hu
  have hl : Followable codec program (recordedPath (savedPath saved)) (savedLog saved) :=
    Followable.of_records hpath hrecords hn
  refine ⟨_, h.runRound_eq jobId round, ?_⟩
  apply run_invariant (fun s => Resumes (savedLog saved) (recordedPath (savedPath saved))
    round.worlds s ∧ (ClocksRoundTrip codec round.worlds → Sound codec program s) ∧
      ((∀ turn ∈ round.worlds, turn.changes = []) → s.ctx.entries = s.returned))
  · exact ⟨startState_resumes jobId round.attempt round.worlds hl,
      fun _ => startState_sound h hu jobId round.attempt, fun _ => rfl⟩
  · intro s turn s' hturn ⟨hresumes, hsound, hreturned⟩ hnext
    exact ⟨hresumes.next hl hturn hnext,
      fun hclock => (hsound hclock).next hl hresumes (hclock turn hturn) hnext,
      fun hnone => hresumes.next_as_returned hl (hreturned hnone) (hnone turn hturn) hnext⟩

/-! ## Rounds -/

theorem afterRounds_concat (jobId : String) (rounds : List Round) (round : Round) :
    afterRounds codec program jobId (rounds ++ [round]) =
      match runRound codec program jobId (afterRounds codec program jobId rounds) round with
      | .ok s => s.saved
      | .error _ => afterRounds codec program jobId rounds := by
  rw [afterRounds, List.foldl_append]
  rfl

/-- The checkpoint after some rounds is sound, if those before it read back, had no exception on
their recorded paths, and were made before any recorded object was changed. -/
theorem afterRounds_sound (jobId : String) (rounds : List Round)
    (hclock : ∀ round ∈ rounds, ClocksRoundTrip codec round.worlds)
    (hlogs : ∀ before, before <+: rounds → before ≠ rounds → ∀ c,
      afterRounds codec program jobId before = some c → codec.RoundTrips c.log)
    (hu : ∀ before, before <+: rounds → before ≠ rounds → ∀ c,
      afterRounds codec program jobId before = some c → c.Unchanged)
    (hn : ∀ before, before <+: rounds → before ≠ rounds → ∀ c,
      afterRounds codec program jobId before = some c → SavedSound codec program c →
      ∀ event ∈ recordedPath c.path, ¬ event.isRaised) :
    ∀ c, afterRounds codec program jobId rounds = some c → SavedSound codec program c := by
  induction rounds using List.reverseRecOn with
  | nil =>
    intro c hc
    cases hc
  | append_singleton rounds round ih =>
    have hpre {before : List Round} (hb : before <+: rounds) :
        before <+: rounds ++ [round] ∧ before ≠ rounds ++ [round] := by
      refine ⟨hb.trans (List.prefix_append _ _), ?_⟩
      rintro rfl
      have hlen := hb.length_le
      rw [List.length_append, List.length_singleton] at hlen
      omega
    have hsound := ih (fun r hr => hclock r (List.mem_append_left _ hr))
      (fun before hb _ => hlogs before (hpre hb).1 (hpre hb).2)
      (fun before hb _ => hu before (hpre hb).1 (hpre hb).2)
      (fun before hb _ => hn before (hpre hb).1 (hpre hb).2)
    have hself := hpre (List.prefix_refl rounds)
    have hload : Loadable codec program (afterRounds codec program jobId rounds) :=
      fun c hc => ⟨hsound c hc, hlogs rounds hself.1 hself.2 c hc⟩
    have hraised : ∀ event ∈ recordedPath (savedPath (afterRounds codec program jobId rounds)),
        ¬ event.isRaised := by
      cases hsaved : afterRounds codec program jobId rounds with
      | none => simp [savedPath, recordedPath]
      | some c => exact hn rounds hself.1 hself.2 c hsaved (hsound c hsaved)
    obtain ⟨s, hs, _, hstate, _⟩ :=
      runRound_resumes hload (hu rounds hself.1 hself.2) hraised jobId round
    rw [afterRounds_concat, hs]
    exact (hstate (hclock round (by simp))).saved

theorem ofValues_no_raised {program : List Value → Option Effect} {path : List Event}
    (h : PathOf (Program.ofValues program) path) :
    ∀ event ∈ recordedPath path, ¬ event.isRaised := by
  rintro event hmem ⟨e, he⟩
  obtain ⟨before, after, hsplit⟩ := List.append_of_mem hmem
  have hafter : after = [] := by
    cases after with
    | nil => rfl
    | cons last rest =>
      have hof := h.prefix_of (recordedPath_initial path)
      have hstep := hof.step (before ++ [event]) last rest (by simp [hsplit])
      have hraised : .raised e ∈ (before ++ [event]).map Event.reply := by simp [he]
      rw [Program.ofValues, Reply.values_of_raised hraised] at hstep
      cases hstep
  subst hafter
  have hunrecorded : event.recorded = false := by simp [Event.recorded, he]
  have htail := recordedPath_tail hsplit (by simp [hunrecorded])
  cases htail

/-! ## Faithful replay -/

/-- What a run owes to the log it loaded. -/
structure FaithfulReplay (codec : Codec) (log : List ReplayLogEntry) (worlds : List Turn)
    (r : RunState) : Prop where
  /-- only a checkpoint request fails the run -/
  failure : ∀ e, r.failed = some e → ∃ w ∈ worlds, w.checkpoint = .error e
  /-- the effects return the recorded values, one by one -/
  replayed : List.Forall₂ (RecordedAs codec) ((r.performed.filter Event.recorded).take log.length)
    (log.take (r.performed.filter Event.recorded).length)
  /-- the effects performed live are those after the recorded ones -/
  live : r.live = (r.performed.filter Event.effectful).drop log.length
  extends_log : log <+: r.returned
  numbered : WellNumbered r.ctx.entries
  /-- once the log is used up, every effect that returned has its entry -/
  recorded : log.length ≤ (r.performed.filter Event.recorded).length →
    List.Forall₂ (RecordedAs codec) (r.performed.filter Event.recorded) r.returned
  /-- the log holds the entries as they were returned, until an object of one is changed -/
  became : Became r.returned r.ctx.entries
  as_returned : (∀ turn ∈ worlds, turn.changes = []) → r.ctx.entries = r.returned
  /-- the log of a stored checkpoint is accepted again -/
  reload : ∀ c, r.saved = some c → codec.RoundTrips c.log →
    loadReplayLog codec (.ok (resumeResponse (some c.body))) = .ok (some c.log)

theorem FaithfulReplay.of_resumes {worlds : List Turn}
    (hl : Followable codec program path log) (h : Resumes log path worlds s)
    (hs : Sound codec program s)
    (hreturned : (∀ turn ∈ worlds, turn.changes = []) → s.ctx.entries = s.returned) :
    FaithfulReplay codec log worlds s := by
  have hreload : ∀ c, s.saved = some c → codec.RoundTrips c.log →
      loadReplayLog codec (.ok (resumeResponse (some c.body))) = .ok (some c.log) := by
    intro c hc hroundTrips
    have hnumbered := (hs.saved c hc).numbered
    obtain ⟨_, _, _, ctx, stepIndex, state, hentries, hbody⟩ := hs.saved c hc
    rw [← hentries] at hnumbered hroundTrips
    rw [hbody, ← hentries]
    exact loadReplayLog_checkpointBody hroundTrips hnumbered stepIndex state
  have hnumbered := wellNumbered_of_became hs.became hs.records.numbered
  rcases h.phase with hreplay | hlive
  · have hlen : (s.performed.filter Event.recorded).length < log.length := by
      rw [← hreplay.cursor]
      exact hreplay.lt
    have hfollow : (s.performed.filter Event.recorded) <+: path.filter Event.recorded :=
      hreplay.follows.filter _
    have hclean : s.performed.filter Event.effectful = s.performed.filter Event.recorded :=
      effectful_eq_recorded fun event he => hl.no_raised event (hreplay.follows.subset he)
    refine ⟨h.failure, ?_, ?_, by rw [hreplay.returned], hnumbered, ?_, hs.became, hreturned,
      hreload⟩
    · rw [List.take_of_length_le hlen.le]
      nth_rewrite 1 [List.prefix_iff_eq_take.mp hfollow]
      exact List.forall₂_take _ hl.records.entries
    · rw [hreplay.live, hclean, List.drop_eq_nil_of_le hlen.le]
    · intro hle
      omega
  · have hpath : s.path = s.performed := by
      simp only [RunState.path, hlive.replaying, Bool.false_eq_true, if_false]
    have hrecords : Records codec s.performed s.returned := hpath ▸ hs.records
    have hlog := List.prefix_iff_eq_take.mp hlive.extends_log
    refine ⟨h.failure, ?_, hlive.live, hlive.extends_log, hnumbered, fun _ => hrecords.entries,
      hs.became, hreturned, hreload⟩
    have hle : log.length ≤ (s.performed.filter Event.recorded).length := by
      rw [hrecords.length_eq]
      exact hlive.extends_log.length_le
    rw [List.take_of_length_le hle]
    nth_rewrite 2 [hlog]
    exact List.forall₂_take _ hrecords.entries

/-- Running a program of values again after any rounds of crash and reload replays what the
last checkpoint recorded and performs and records the rest live, if no recorded object was
changed in place between its return and the checkpoint of its round; and whatever is run, an
effect that is not the recorded one fails before its function is called, with the
context and its cursor as they were. -/
theorem replay_faithful (codec : Codec) (program : List Value → Option Effect) (jobId : String)
    (rounds : List Round) (round : Round)
    (hclock : ∀ r ∈ rounds ++ [round], ClocksRoundTrip codec r.worlds)
    (hlogs : ∀ before, before <+: rounds → ∀ c,
      afterRounds codec (.ofValues program) jobId before = some c → codec.RoundTrips c.log)
    (hu : ∀ before, before <+: rounds → ∀ c,
      afterRounds codec (.ofValues program) jobId before = some c → c.Unchanged) :
    (∃ r, runRound codec (.ofValues program) jobId
          (afterRounds codec (.ofValues program) jobId rounds) round = .ok r ∧
        FaithfulReplay codec (savedLog (afterRounds codec (.ofValues program) jobId rounds))
          round.worlds r) ∧
      ∀ (s : RunState) (w : World) (effect : Effect) (entry : ReplayLogEntry) (type : EffectType)
        (key : String), s.ctx.replaying = true → s.ctx.entries[s.ctx.cursor]? = some entry →
        effect.kind = some (type, key) → ¬ Agrees entry type key →
        ∃ message,
          s.perform codec w effect = { s with failed := some (.durableReplay message) } := by
  refine ⟨?_, fun s w effect entry type key hr he hk ha => perform_disagrees codec w hr he hk ha⟩
  have hsound := afterRounds_sound jobId rounds
    (fun r hr => hclock r (List.mem_append_left _ hr)) (fun before hb _ => hlogs before hb)
    (fun before hb _ => hu before hb) (fun before _ _ c _ hc => ofValues_no_raised hc.path_of)
  have hload : Loadable codec (.ofValues program)
      (afterRounds codec (.ofValues program) jobId rounds) :=
    fun c hc => ⟨hsound c hc, hlogs rounds (List.prefix_refl _) c hc⟩
  obtain ⟨hpath, hrecords⟩ := hload.records (hu rounds (List.prefix_refl _))
  have hraised := ofValues_no_raised hpath
  obtain ⟨r, hr, hresumes, hstate, hreturned⟩ :=
    runRound_resumes hload (hu rounds (List.prefix_refl _)) hraised jobId round
  exact ⟨r, hr, FaithfulReplay.of_resumes (Followable.of_records hpath hrecords hraised) hresumes
    (hstate (hclock round (by simp))) hreturned⟩

/-! A program that charges once, checkpoints and then notifies. -/

def chargeTime : DateTime := ⟨2026, 1, 15, 10, 0, 0, 0, some 0⟩

def chargeLog : List ReplayLogEntry := [⟨0, .call, .int 7, "charge"⟩]

def chargeCodec : Codec := .ofTexts
  [(logJson chargeLog,
    "[\x7b\"seq\": 0, \"type\": \"call\", \"result\": 7, \"key\": \"charge\"\x7d]")]
  [(chargeTime, "2026-01-15T10:00:00+00:00")]

def chargeProgram : List Value → Option Effect
  | [] => some (.sideEffect "charge")
  | [_] => some (.checkpoint 1 .null)
  | [_, _] => some (.sideEffect "notify")
  | _ => none

def chargeWorld (n : ℤ) : Turn where
  clock := chargeTime
  token _ := ""
  result := .ok (.int n)
  stored := true
  checkpoint := .ok ()

theorem charge_saved {before : List Round}
    (hb : before <+: [⟨1, [chargeWorld 7, chargeWorld 7]⟩]) {c : Saved}
    (hc : afterRounds chargeCodec (.ofValues chargeProgram) "job-1" before = some c) :
    c.log = chargeLog ∧ c.returned = chargeLog := by
  rcases List.prefix_cons_iff.mp hb with rfl | ⟨rest, rfl, hrest⟩
  · cases hc
  · rw [List.prefix_nil.mp hrest] at hc
    cases hc
    exact ⟨rfl, rfl⟩

theorem charge_replayed :
    ∃ r, runRound chargeCodec (.ofValues chargeProgram) "job-1"
        (afterRounds chargeCodec (.ofValues chargeProgram) "job-1"
          [⟨1, [chargeWorld 7, chargeWorld 7]⟩])
        ⟨2, [chargeWorld 8, chargeWorld 8, chargeWorld 8]⟩ = .ok r ∧
      FaithfulReplay chargeCodec chargeLog [chargeWorld 8, chargeWorld 8, chargeWorld 8] r := by
  refine (replay_faithful chargeCodec chargeProgram "job-1" [⟨1, [chargeWorld 7, chargeWorld 7]⟩]
    ⟨2, [chargeWorld 8, chargeWorld 8, chargeWorld 8]⟩ ?_ ?_ ?_).1
  · intro r hr w hw
    have hclock : w.clock = chargeTime := by
      simp only [List.cons_append, List.nil_append, List.mem_cons, List.not_mem_nil, or_false] at hr
      rcases hr with rfl | rfl <;> simp only [List.mem_cons, List.not_mem_nil, or_false] at hw
      · rcases hw with rfl | rfl <;> rfl
      · rcases hw with rfl | rfl | rfl <;> rfl
    rw [hclock]
    decide
  · intro before hb c hc
    rw [(charge_saved hb hc).1]
    exact ⟨rfl, by decide⟩
  · intro before hb c hc
    exact (charge_saved hb hc).1.trans (charge_saved hb hc).2.symm

/-! A program that appends to the list that its first side effect returned, and goes on by the
length of the list. -/

def appendProgram : List Value → Option Effect
  | [] => some (.sideEffect "fetch")
  | [.json (.array items)] =>
    some (.sideEffect (if (items ++ [Json.int 3]).length = 3 then "a" else "b"))
  | [_, _] => some (.checkpoint 1 .null)
  | _ => none

def fetched (items : List ℤ) : Json := .array (items.map Json.int)

def appendLog : List ReplayLogEntry :=
  [⟨0, .call, fetched [1, 2, 3], "fetch"⟩, ⟨1, .call, .int 7, "a"⟩]

def appendCodec : Codec := .ofTexts
  [(logJson appendLog,
    "[\x7b\"seq\": 0, \"type\": \"call\", \"result\": [1, 2, 3], \"key\": \"fetch\"\x7d, "
      ++ "\x7b\"seq\": 1, \"type\": \"call\", \"result\": 7, \"key\": \"a\"\x7d]")]
  [(chargeTime, "2026-01-15T10:00:00+00:00")]

def fetchWorld (items : List ℤ) : Turn := { chargeWorld 0 with result := .ok (fetched items) }

/-- The list that the program was given has one item more by its next effect. -/
def appendWorld (items : List ℤ) : Turn := { chargeWorld 7 with changes := [(0, fetched items)] }

/-- The log of the checkpoint holds the list as the program left it. The re-run is given that list,
appends to it again, and fails. -/
theorem changed_object_unresumable :
    ∃ c, afterRounds appendCodec (.ofValues appendProgram) "job-1"
        [⟨1, [fetchWorld [1, 2], appendWorld [1, 2, 3], chargeWorld 0]⟩] = some c ∧
      c.log = appendLog ∧ ¬ c.Unchanged ∧
      ∃ r, runRound appendCodec (.ofValues appendProgram) "job-1" (some c)
          ⟨2, [fetchWorld [1, 2], appendWorld [1, 2, 3, 3]]⟩ = .ok r ∧
        r.failed = some (.durableReplay
          "replay cursor 1 expected side effect key 'b', found 'a'") ∧
        ¬ FaithfulReplay appendCodec c.log [fetchWorld [1, 2], appendWorld [1, 2, 3, 3]] r := by
  refine ⟨_, rfl, rfl, by decide, _, rfl, by decide, fun h => ?_⟩
  obtain ⟨turn, hturn, he⟩ := h.failure _ rfl
  rcases List.mem_cons.mp hturn with rfl | hturn
  · cases he
  · rw [List.mem_singleton.mp hturn] at he
    cases he

end OpenJobSpec.Durable
