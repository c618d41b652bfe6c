import OpenJobSpec.Durable.Rounds

/-! # Programs that handle a side effect's failure

A failed side effect leaves no entry, so on replay its call is matched against
the next recorded one. A checkpoint can be resumed exactly when no failure comes
before the last effect that its log records, and no recorded object was changed
before the checkpoint.
-/
namespace OpenJobSpec.Durable
open Runs RunState DurableContext

variable {codec : Codec} {program : Program} {path : List Event} {log : List ReplayLogEntry}
  {s : RunState} {w : World} {returned : List ReplayLogEntry}

/-- Every side effect that failed comes after the last recorded event. -/
def FailuresAfterRecorded (path : List Event) : Prop :=
  ∀ before event after, path = before ++ event :: after → event.isRaised →
    ∀ later ∈ after, later.recorded = false

/-- A re-run that fails with nothing but a checkpoint request, and gives each call up to the
last recorded one the reply it had when the log was recorded. -/
structure SamePath (c : Saved) (worlds : List Turn) (r : RunState) : Prop where
  failure : ∀ e, r.failed = some e → ∃ w ∈ worlds, w.checkpoint = .error e
  same_path : ∀ (i : ℕ) event recorded, r.performed[i]? = some event →
    (recordedPath c.path)[i]? = some recorded → event = recorded

theorem Event.isRaised.not_recorded {event : Event} (h : event.isRaised) :
    event.recorded = false := by
  obtain ⟨e, he⟩ := h
  simp [Event.recorded, he]

theorem failuresAfterRecorded_iff (path : List Event) :
    FailuresAfterRecorded path ↔ ∀ event ∈ recordedPath path, ¬ event.isRaised := by
  obtain ⟨dropped, hsplit⟩ := recordedPath_initial path
  constructor
  · intro h event hmem hraised
    obtain ⟨before, after, hmid⟩ := List.append_of_mem hmem
    have hlater := h before event (after ++ dropped) (by rw [← hsplit, hmid]; simp) hraised
    have hnone : (event :: after).filter Event.recorded = [] := by
      apply List.filter_eq_nil_iff.mpr
      intro found hfound
      rcases List.mem_cons.mp hfound with rfl | hafter
      · simp [hraised.not_recorded]
      · simp [hlater found (List.mem_append_left dropped hafter)]
    cases recordedPath_tail hmid hnone
  · intro h before event after hpath hraised later hlater
    have hdropped : ∀ found ∈ dropped, found.recorded = false := by
      intro found hfound
      have htake : dropped = path.rtakeWhile (fun event => !event.recorded) := by
        have hself : recordedPath path ++ path.rtakeWhile (fun event => !event.recorded) = path :=
          List.rdropWhile_append_rtakeWhile
        exact List.append_cancel_left (hsplit.trans hself.symm)
      rw [htake] at hfound
      simpa using List.mem_rtakeWhile_imp hfound
    rw [← hsplit] at hpath
    rcases List.append_eq_append_iff.mp hpath with ⟨middle, _, hrest⟩ | ⟨middle, hmid, hrest⟩
    · exact hdropped later (by rw [hrest]; simp [hlater])
    · cases middle with
      | nil =>
        rw [List.nil_append] at hrest
        exact hdropped later (by rw [← hrest]; exact List.mem_cons_of_mem _ hlater)
      | cons found middle =>
        cases hrest
        exact absurd hraised (h event (by rw [hmid]; simp))

/-! ## A re-run along a path without failures before the last record -/

theorem getElem?_of_prefix {α : Type} {shorter longer : List α} (h : shorter <+: longer) {i : ℕ}
    {a : α} (ha : shorter[i]? = some a) : longer[i]? = some a := by
  obtain ⟨hi, rfl⟩ := List.getElem?_eq_some_iff.mp ha
  exact List.prefix_iff_getElem?.mp h i hi

theorem SamePath.of_resumes {c : Saved} {worlds : List Turn}
    (h : Resumes log (recordedPath c.path) worlds s) : SamePath c worlds s := by
  refine ⟨h.failure, ?_⟩
  intro i event recorded hevent hrecorded
  rcases h.phase with hreplay | hlive
  · have hsame := getElem?_of_prefix hreplay.follows hevent
    exact Option.some.inj (hsame.symm.trans hrecorded)
  · have hsame := getElem?_of_prefix hlive.follows hrecorded
    exact Option.some.inj (hevent.symm.trans hsame)

/-! ## A re-run that meets a failure or a changed object on the path -/

theorem next_of_unchanged {turn : Turn} (h : turn.changes = []) :
    RunState.next codec program s turn = RunState.step codec program s turn.toWorld := by
  rw [RunState.next, h]
  rfl

/-- What a re-run follows: events without an exception, whose entries are as they were returned. -/
structure Followed (log returned : List ReplayLogEntry) (before : List Event) : Prop where
  no_raised : ∀ event ∈ before, ¬ event.isRaised
  as_returned : ∀ i < (before.filter Event.recorded).length, log[i]? = returned[i]?

theorem Followed.prefix_of {before after : List Event}
    (h : Followed log returned (before ++ after)) : Followed log returned before := by
  refine ⟨fun event he => h.no_raised event (List.mem_append_left _ he), fun i hi => ?_⟩
  apply h.as_returned i
  rw [List.filter_append, List.length_append]
  omega

theorem exists_first_unfollowed (h : ¬ Followed log returned path) :
    ∃ before event rest, path = before ++ event :: rest ∧ Followed log returned before ∧
      ¬ Followed log returned (before ++ [event]) := by
  induction path using List.reverseRecOn with
  | nil => exact absurd ⟨by simp, by simp⟩ h
  | append_singleton path event ih =>
    by_cases hpath : Followed log returned path
    · exact ⟨path, event, [], rfl, hpath, h⟩
    · obtain ⟨before, found, rest, rfl, hbefore, hfound⟩ := ih hpath
      exact ⟨before, found, rest ++ [event], by simp, hbefore, hfound⟩

/-- While checkpoints succeed, a re-run gets past any events that it can follow before the last
recorded one. -/
theorem replay_reaches (hp : PathOf program path) (hrec : Records codec path returned)
    (hstart : Replaying log path s) (hperformed : s.performed = []) (hf : s.failed = none)
    {turn : Turn} (hw : turn.checkpoint = .ok ()) (hchanges : turn.changes = [])
    (before : List Event) (hbefore : before <+: path) (hfollow : Followed log returned before)
    (hmore : (before.filter Event.recorded).length < log.length) :
    Replaying log path (run (RunState.next codec program) s (List.replicate before.length turn)) ∧
      (run (RunState.next codec program) s (List.replicate before.length turn)).performed = before ∧
      (run (RunState.next codec program) s (List.replicate before.length turn)).failed = none := by
  induction before using List.reverseRecOn with
  | nil => exact ⟨hstart, hperformed, hf⟩
  | append_singleton before event ih =>
    obtain ⟨rest, hrest⟩ := hbefore
    have hle : (before.filter Event.recorded).length ≤
        ((before ++ [event]).filter Event.recorded).length := by
      rw [List.filter_append, List.length_append]
      exact Nat.le_add_right _ _
    obtain ⟨hreplay, hat, hfailed⟩ := ih
      ⟨event :: rest, by rw [← hrest, List.append_assoc, List.singleton_append]⟩
      hfollow.prefix_of (by omega)
    rw [List.length_append, List.length_singleton, List.replicate_succ', run_append, run_cons,
      run_nil]
    generalize run (RunState.next codec program) s (List.replicate before.length turn) = t at *
    subst hat
    have hevent : path = t.performed ++ event :: rest := by
      rw [← hrest, List.append_assoc, List.singleton_append]
    have hentry : event.recorded = true → ∃ entry,
        log[(t.performed.filter Event.recorded).length]? = some entry ∧
          RecordedAs codec event entry := by
      intro hrecorded
      rw [hevent] at hrec
      obtain ⟨entry, hentry, has⟩ := hrec.entry_at hrecorded
      refine ⟨entry, ?_, has⟩
      rw [hfollow.as_returned _ ?_, hentry]
      rw [List.filter_append, List.length_append, List.filter_singleton, hrecorded]
      exact Nat.lt_succ_self _
    obtain ⟨saved, _, hnext⟩ :=
      hreplay.next_eq hp hfailed hevent (hfollow.no_raised event (by simp)) hentry turn.toWorld
    rcases hnext with ⟨e, he, _⟩ | hnext
    · rw [hw] at he
      cases he
    · rw [apply, next_of_unchanged hchanges, hnext, Option.getD_some]
      exact ⟨hreplay.follow hevent saved hmore, rfl, hfailed⟩

theorem Replaying.step_eq (hp : PathOf program path) (hf : s.failed = none) {event : Event}
    {rest : List Event} (hevent : path = s.performed ++ event :: rest) (w : World) :
    RunState.step codec program s w = some (s.perform codec w event.effect) := by
  have hprogram := hp.step _ _ _ hevent
  simp only [RunState.step, hf, Option.isSome_none, Bool.false_eq_true, if_false, replies,
    hprogram, Option.map_some]

/-- The value that an entry replays as, once its object may have been changed. -/
theorem entryValue_became {entry later : ReplayLogEntry} (h : entry.Became later)
    (hv : ∃ v, codec.entryValue entry = some v) : ∃ v, codec.entryValue later = some v := by
  by_cases htype : entry.type = .call
  · obtain ⟨seq, type, result, key⟩ := later
    obtain rfl : type = .call := h.type.trans htype
    cases result <;> exact ⟨_, rfl⟩
  · have hsame : codec.entryValue later = codec.entryValue entry := by
      unfold Codec.entryValue
      rw [h.type, h.result htype]
    rw [hsame]
    exact hv

/-- At the first event that cannot be followed the re-run fails, or gives the call another reply. -/
theorem Replaying.next_at_unfollowed (hp : PathOf program path) (hrec : Records codec path returned)
    (hbecame : Became returned log) (h : Replaying log path s) (hf : s.failed = none)
    {event : Event} {rest : List Event} (hevent : path = s.performed ++ event :: rest)
    (hfollow : Followed log returned s.performed)
    (hnot : ¬ Followed log returned (s.performed ++ [event])) (w : World) :
    ∃ s', RunState.step codec program s w = some s' ∧
      ((∃ message, s'.failed = some (.durableReplay message)) ∨
        ∃ v, s'.performed = s.performed ++ [⟨event.effect, .value v⟩] ∧
          event.reply ≠ .value v) := by
  refine ⟨_, Replaying.step_eq hp hf hevent w, ?_⟩
  obtain ⟨entry, hentry⟩ : ∃ entry, log[s.ctx.cursor]? = some entry :=
    ⟨_, List.getElem?_eq_getElem h.lt⟩
  have hlookup := h.entry_at.trans hentry
  obtain ⟨original, horiginal, hentryBecame⟩ := Became.get hbecame hentry
  obtain ⟨v, hvalue⟩ := entryValue_became hentryBecame
    (hrec.entryValue (List.mem_of_getElem? horiginal))
  by_cases hraised : event.isRaised
  · obtain ⟨e, he⟩ := hraised
    obtain ⟨type, key, hkind⟩ : ∃ type key, event.effect.kind = some (type, key) := by
      cases hk : event.effect.kind with
      | some kind => exact ⟨kind.1, kind.2, rfl⟩
      | none =>
        rw [hp.checkpoint event (by simp [hevent]) hk] at he
        cases he
    by_cases hagrees : Agrees entry type key
    · refine Or.inr ⟨v, ?_, by simp [he]⟩
      rw [perform_replayed h.replaying hlookup hkind hagrees hvalue]
      rfl
    · obtain ⟨message, hfail⟩ := perform_disagrees codec w h.replaying hlookup hkind hagrees
      exact Or.inl ⟨message, by rw [hfail]⟩
  · -- no exception, so what keeps the event from being followed is its entry
    have hchanged : event.recorded = true ∧ entry ≠ original := by
      by_contra hsame
      refine hnot ⟨fun found hfound => ?_, fun i hi => ?_⟩
      · rcases List.mem_append.mp hfound with hbefore | hlast
        · exact hfollow.no_raised found hbefore
        · rwa [List.mem_singleton.mp hlast]
      · by_cases hbefore : i < (s.performed.filter Event.recorded).length
        · exact hfollow.as_returned i hbefore
        · rw [List.filter_append, List.length_append, List.filter_singleton] at hi
          by_cases hrecorded : event.recorded = true
          · rw [hrecorded] at hi
            have hi' : i = s.ctx.cursor := by
              rw [h.cursor]
              simp at hi
              omega
            rw [hi', hentry, horiginal, not_not.mp fun hne => hsame ⟨hrecorded, hne⟩]
          · simp [hrecorded] at hi
            exact absurd hi hbefore
    obtain ⟨hrecorded, hne⟩ := hchanged
    have hrec' := hrec
    rw [hevent] at hrec'
    obtain ⟨found, hfound, type, key, v₀, hkind, hagrees, hreply, hvalue₀⟩ :=
      hrec'.entry_at hrecorded
    rw [← h.cursor, horiginal] at hfound
    cases hfound
    have hcall : original.type = .call := by
      by_contra htype
      apply hne
      obtain ⟨seq, kind, result, name⟩ := entry
      obtain ⟨seq', kind', result', name'⟩ := original
      obtain ⟨hseq, hkind, hname, hresult⟩ := hentryBecame
      have hresult := hresult htype
      dsimp only at hseq hkind hname hresult
      rw [hseq, hkind, hname, hresult]
    have hlater : Agrees entry type key :=
      ⟨hentryBecame.type.trans hagrees.1, fun hc => hentryBecame.key.trans (hagrees.2 hc)⟩
    refine Or.inr ⟨v, ?_, ?_⟩
    · rw [perform_replayed h.replaying hlookup hkind hlater hvalue]
      rfl
    · rw [hreply]
      rintro ⟨rfl⟩
      apply hne
      obtain ⟨seq, kind, result, name⟩ := entry
      obtain ⟨seq', kind', result', name'⟩ := original
      obtain ⟨hseq, hkind, hname, -⟩ := hentryBecame
      dsimp only at hseq hkind hname hcall
      subst hcall hseq hkind hname
      have hresult : ∀ v : Json, codec.entryValue ⟨seq, .call, v, name⟩ = some (.json v) := by
        intro v
        cases v <;> rfl
      rw [hresult] at hvalue hvalue₀
      cases hvalue
      cases hvalue₀
      rfl

theorem not_samePath_of_unfollowed {c : Saved} (hload : Loadable codec program (some c))
    (hbad : ¬ ((∀ event ∈ recordedPath c.path, ¬ event.isRaised) ∧ c.Unchanged)) (jobId : String) :
    ∃ round : Round, ∀ r, runRound codec program jobId (some c) round = .ok r →
      ¬ SamePath c round.worlds r := by
  obtain ⟨hpath, hrecords, hbecame, -⟩ := (hload c rfl).1
  have hp : PathOf program (recordedPath c.path) := hpath.prefix_of (recordedPath_initial c.path)
  have hrec : Records codec (recordedPath c.path) c.returned := hrecords.recordedPath
  have hnot : ¬ Followed c.log c.returned (recordedPath c.path) := by
    intro hfollow
    refine hbad ⟨hfollow.no_raised, List.ext_getElem? fun i => ?_⟩
    by_cases hi : i < c.returned.length
    · exact hfollow.as_returned i (by rw [hrec.length_eq]; exact hi)
    · have hlen := hbecame.length_eq
      rw [List.getElem?_eq_none (by omega), List.getElem?_eq_none (by omega)]
  obtain ⟨before, event, rest, hsplit, hfollow, hevent⟩ := exists_first_unfollowed hnot
  have hmore : (before.filter Event.recorded).length < c.log.length := by
    rw [← hbecame.length_eq, ← hrec.length_eq, hsplit, List.filter_append, List.length_append]
    apply Nat.lt_add_of_pos_right
    apply List.length_pos_of_ne_nil
    intro hnone
    cases recordedPath_tail hsplit hnone
  let turn : Turn := ⟨⟨⟨1, 1, 1, 0, 0, 0, 0, some 0⟩, fun _ => "", .ok .null, true, .ok ()⟩, []⟩
  have hstart : Replaying c.log (recordedPath c.path) (startState jobId 1 (some c)) :=
    startState_replaying (some c) jobId 1 _ (Nat.zero_lt_of_lt hmore)
  have hw : turn.checkpoint = .ok () := rfl
  have hchanges : turn.changes = [] := rfl
  obtain ⟨hreplay, hat, hfailed⟩ := replay_reaches hp hrec hstart rfl rfl hw hchanges before
    ⟨event :: rest, hsplit.symm⟩ hfollow hmore
  refine ⟨⟨1, List.replicate (before.length + 1) turn⟩, ?_⟩
  intro r hr hsame
  rw [hload.runRound_eq, List.replicate_succ', run_append, run_cons, run_nil] at hr
  generalize run (RunState.next codec program) (startState jobId 1 (some c))
    (List.replicate before.length turn) = t at *
  subst hat
  obtain ⟨s', hnext, hends⟩ :=
    hreplay.next_at_unfollowed hp hrec hbecame hfailed hsplit hfollow hevent turn.toWorld
  rw [apply, next_of_unchanged hchanges, hnext, Option.getD_some] at hr
  cases hr
  rcases hends with ⟨message, hfail⟩ | ⟨v, hperformed, hreply⟩
  · obtain ⟨found, hfound, herror⟩ := hsame.failure _ hfail
    rw [(List.mem_replicate.mp hfound).2] at herror
    cases herror
  · have heq := hsame.same_path t.performed.length ⟨event.effect, .value v⟩ event
      (by rw [hperformed]; simp) (by rw [hsplit]; simp)
    exact hreply (by rw [← heq])

/-- A checkpoint left by a program that may handle failures is resumed along the same path,
whatever the re-run meets, exactly when its own run had no side effect fail before the
last effect that it records, and no recorded object was changed before the checkpoint. -/
theorem handled_failure_resumes_iff (codec : Codec) (program : Program) (jobId : String)
    (rounds : List Round) (c : Saved) (hc : afterRounds codec program jobId rounds = some c)
    (hclock : ∀ r ∈ rounds, ClocksRoundTrip codec r.worlds)
    (hlogs : ∀ before, before <+: rounds → ∀ d,
      afterRounds codec program jobId before = some d → codec.RoundTrips d.log)
    (hearlier : ∀ before, before <+: rounds → before ≠ rounds → ∀ d,
      afterRounds codec program jobId before = some d →
        FailuresAfterRecorded d.path ∧ d.Unchanged) :
    (∀ round : Round, ∃ r, runRound codec program jobId (some c) round = .ok r ∧
        SamePath c round.worlds r) ↔
      FailuresAfterRecorded c.path ∧ c.Unchanged := by
  have hsound := afterRounds_sound jobId rounds hclock (fun before hb _ => hlogs before hb)
    (fun before hb hne d hd => (hearlier before hb hne d hd).2)
    (fun before hb hne d hd _ =>
      (failuresAfterRecorded_iff d.path).mp (hearlier before hb hne d hd).1)
  have hload : Loadable codec program (some c) := by
    intro d hd
    cases hd
    exact ⟨hsound c hc, hlogs rounds (List.prefix_refl _) c hc⟩
  rw [failuresAfterRecorded_iff]
  constructor
  · intro h
    by_contra hbad
    obtain ⟨round, hnot⟩ := not_samePath_of_unfollowed hload hbad jobId
    obtain ⟨r, hr, hsame⟩ := h round
    exact hnot r hr hsame
  · rintro ⟨hn, hu⟩ round
    obtain ⟨r, hr, hresumes, _⟩ :=
      runRound_resumes hload (fun d hd => by cases hd; exact hu) hn jobId round
    exact ⟨r, hr, SamePath.of_resumes hresumes⟩

/-! A program that handles the failure of one side effect by another. -/

def fallbackProgram : Program
  | [] => some (.sideEffect "primary")
  | [.raised _] => some (.sideEffect "fallback")
  | [.raised _, .value _] => some (.checkpoint 1 .null)
  | _ => none

def fallbackLog : List ReplayLogEntry := [⟨0, .call, .int 7, "fallback"⟩]

def fallbackCodec : Codec := .ofTexts
  [(logJson fallbackLog,
    "[\x7b\"seq\": 0, \"type\": \"call\", \"result\": 7, \"key\": \"fallback\"\x7d]")]
  [(chargeTime, "2026-01-15T10:00:00+00:00")]

def failingWorld : Turn :=
  { chargeWorld 7 with result := .error (.connection "primary is down") }

theorem fallback_resumes_iff :
    ∃ c, afterRounds fallbackCodec fallbackProgram "job-1"
        [⟨1, [failingWorld, chargeWorld 7, chargeWorld 7]⟩] = some c ∧
      ((∀ round : Round, ∃ r,
          runRound fallbackCodec fallbackProgram "job-1" (some c) round = .ok r ∧
          SamePath c round.worlds r) ↔
        FailuresAfterRecorded c.path ∧ c.Unchanged) := by
  refine ⟨_, rfl, handled_failure_resumes_iff fallbackCodec fallbackProgram "job-1"
    [⟨1, [failingWorld, chargeWorld 7, chargeWorld 7]⟩] _ rfl ?_ ?_ ?_⟩
  · intro r hr w hw
    have hclock : w.clock = chargeTime := by
      rw [List.mem_singleton.mp hr] at hw
      simp only [List.mem_cons, List.not_mem_nil, or_false] at hw
      rcases hw with rfl | rfl | rfl <;> rfl
    rw [hclock]
    decide
  · intro before hb d hd
    rcases List.prefix_cons_iff.mp hb with rfl | ⟨rest, rfl, hrest⟩
    · cases hd
    · rw [List.prefix_nil.mp hrest] at hd
      have hlog : d.log = fallbackLog := by
        cases hd
        rfl
      rw [hlog]
      exact ⟨rfl, by decide⟩
  · intro before hb hne d hd
    rcases List.prefix_cons_iff.mp hb with rfl | ⟨rest, rfl, hrest⟩
    · cases hd
    · rw [List.prefix_nil.mp hrest] at hne
      exact absurd rfl hne

/-- The first attempt stores its checkpoint after the fallback; no later attempt gets past
the primary call. -/
theorem fallback_unresumable :
    ∃ c, afterRounds fallbackCodec fallbackProgram "job-1"
        [⟨1, [failingWorld, chargeWorld 7, chargeWorld 7]⟩] = some c ∧
      c.log = fallbackLog ∧
      ∃ r, runRound fallbackCodec fallbackProgram "job-1" (some c) ⟨2, [chargeWorld 7]⟩ = .ok r ∧
        r.failed = some (.durableReplay
          "replay cursor 0 expected side effect key 'primary', found 'fallback'") :=
  ⟨_, rfl, rfl, _, rfl, by decide⟩

end OpenJobSpec.Durable
