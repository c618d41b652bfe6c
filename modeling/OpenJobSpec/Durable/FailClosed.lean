import OpenJobSpec.Durable.Context
import OpenJobSpec.Durable.LoadedLog

/-! # Whether a replay log fails closed

The context checks a recorded value when it is replayed. By then the cursor has
moved, so an entry whose value has the wrong format is lost.
-/
namespace OpenJobSpec.Durable
open ExceptRules

variable (codec : Codec)

/-- Each operation gives the recorded value, or it fails and the entry is still to be replayed. -/
structure ReplaysClosed (ctx : DurableContext) (entry : ReplayLogEntry) : Prop where
  now : ∀ clock, (∃ text t, entry.result = .str text ∧ codec.fromIsoformat text = some t ∧
      (ctx.now codec clock).2 = .ok t) ∨
    ∃ message, ctx.now codec clock = (ctx, .error (.durableReplay message))
  random : ∀ token, (∃ text, entry.result = .str text ∧ (ctx.random token).2 = .ok text) ∨
    ∃ message, ctx.random token = (ctx, .error (.durableReplay message))
  sideEffect : ∀ key, (ctx.beginSideEffect key).2 = .ok (some entry.result) ∨
    ∃ message, ctx.beginSideEffect key = (ctx, .error (.durableReplay message))

/-- The recorded value has the format that its type is replayed in. -/
def RecordedValue (entry : ReplayLogEntry) : Prop :=
  (entry.type = .time → ∃ text, entry.result = .str text ∧ (codec.fromIsoformat text).isSome) ∧
    (entry.type = .random → ∃ text, entry.result = .str text)

namespace DurableContext
variable {ctx : DurableContext} {entry : ReplayLogEntry} (h : ctx.replaying = true)
  (he : ctx.entries[ctx.cursor]? = some entry)

theorem advance_ne (ctx : DurableContext) : ctx.advance ≠ ctx := by
  intro heq
  have hcursor := congrArg DurableContext.cursor heq
  rw [advance_cursor] at hcursor
  omega

include h he

/-- An operation on an entry of another type or key fails, and leaves the context as it is. -/
theorem now_disagrees (clock : DateTime) (htype : entry.type ≠ .time) :
    ∃ message, ctx.now codec clock = (ctx, .error (.durableReplay message)) := by
  have hno : ¬ Agrees entry .time "now" := fun ha => htype ha.1
  obtain ⟨message, hr⟩ := replayEntry_disagrees h he hno
  exact ⟨message, by rw [now, hr]⟩

theorem random_disagrees (token : String) (htype : entry.type ≠ .random) :
    ∃ message, ctx.random token = (ctx, .error (.durableReplay message)) := by
  have hno : ¬ Agrees entry .random "" := fun ha => htype ha.1
  obtain ⟨message, hr⟩ := replayEntry_disagrees h he hno
  exact ⟨message, by rw [random, hr]⟩

theorem beginSideEffect_disagrees {key : String} (ha : ¬ Agrees entry .call key) :
    ∃ message, ctx.beginSideEffect key = (ctx, .error (.durableReplay message)) := by
  obtain ⟨message, hr⟩ := replayEntry_disagrees h he ha
  exact ⟨message, by rw [beginSideEffect, hr]⟩

/-- The entry is taken before its value is looked at. -/
theorem now_agrees (clock : DateTime) (htype : entry.type = .time) :
    (ctx.now codec clock).1 = ctx.advance ∧ ∀ t, (ctx.now codec clock).2 = .ok t ↔
      ∃ text, entry.result = .str text ∧ codec.fromIsoformat text = some t := by
  have ha : Agrees entry .time "now" := ⟨htype, nofun⟩
  have hr := replayEntry_agrees h he ha
  rcases hresult : entry.result with _ | _ | _ | _ | text | _ | _
  case str =>
    rcases hiso : codec.fromIsoformat text with _ | t
    · simp [now, hr, hresult, hiso]
    · simp [now, hr, hresult, hiso]
  all_goals simp [now, hr, hresult]

theorem random_agrees (token : String) (htype : entry.type = .random) :
    (ctx.random token).1 = ctx.advance ∧ ∀ text, (ctx.random token).2 = .ok text ↔
      entry.result = .str text := by
  have ha : Agrees entry .random "" := ⟨htype, nofun⟩
  have hr := replayEntry_agrees h he ha
  rcases hresult : entry.result with _ | _ | _ | _ | _ | _ | _
  all_goals simp [random, hr, hresult]

theorem beginSideEffect_agrees {key : String} (ha : Agrees entry .call key) :
    ctx.beginSideEffect key = (ctx.advance, .ok (some entry.result)) := by
  rw [beginSideEffect, replayEntry_agrees h he ha]

theorem replaysClosed_iff : ReplaysClosed codec ctx entry ↔ RecordedValue codec entry := by
  constructor
  · intro hc
    refine ⟨fun htype => ?_, fun htype => ?_⟩
    · obtain ⟨hfst, _⟩ := now_agrees codec h he ⟨0, 0, 0, 0, 0, 0, 0, none⟩ htype
      rcases hc.now ⟨0, 0, 0, 0, 0, 0, 0, none⟩ with ⟨text, t, htext, hiso, _⟩ | ⟨message, hsame⟩
      · exact ⟨text, htext, by rw [hiso, Option.isSome_some]⟩
      · rw [hsame] at hfst
        exact absurd hfst.symm (advance_ne ctx)
    · obtain ⟨hfst, _⟩ := random_agrees h he "" htype
      rcases hc.random "" with ⟨text, htext, _⟩ | ⟨message, hsame⟩
      · exact ⟨text, htext⟩
      · rw [hsame] at hfst
        exact absurd hfst.symm (advance_ne ctx)
  · rintro ⟨htime, hrandom⟩
    refine ⟨fun clock => ?_, fun token => ?_, fun key => ?_⟩
    · by_cases htype : entry.type = .time
      · obtain ⟨text, htext, hiso⟩ := htime htype
        obtain ⟨t, ht⟩ := Option.isSome_iff_exists.mp hiso
        exact .inl ⟨text, t, htext, ht,
          ((now_agrees codec h he clock htype).2 t).mpr ⟨text, htext, ht⟩⟩
      · exact .inr (now_disagrees codec h he clock htype)
    · by_cases htype : entry.type = .random
      · obtain ⟨text, htext⟩ := hrandom htype
        exact .inl ⟨text, htext, ((random_agrees h he token htype).2 text).mpr htext⟩
      · exact .inr (random_disagrees h he token htype)
    · by_cases ha : Agrees entry .call key
      · exact .inl (by rw [beginSideEffect_agrees h he ha])
      · exact .inr (beginSideEffect_disagrees h he ha)

end DurableContext

/-- The contexts a loaded log is replayed in, before its last entry is taken. -/
inductive InReplay (answer : Except Exn Json) : DurableContext → Prop
  | created {jobId : String} {attempt : ℤ} {ctx : DurableContext}
    (h : DurableContext.create codec jobId attempt answer = .ok ctx) (hr : ctx.replaying = true) :
    InReplay answer ctx
  | now {ctx : DurableContext} (h : InReplay answer ctx) (clock : DateTime)
    (hr : (ctx.now codec clock).1.replaying = true) : InReplay answer (ctx.now codec clock).1
  | random {ctx : DurableContext} (h : InReplay answer ctx) (token : String)
    (hr : (ctx.random token).1.replaying = true) : InReplay answer (ctx.random token).1
  | sideEffect {ctx : DurableContext} (h : InReplay answer ctx) (key : String)
    (hr : (ctx.beginSideEffect key).1.replaying = true) :
    InReplay answer (ctx.beginSideEffect key).1

/-- Loading ends as it should, and so does replaying what was loaded. -/
structure FailsClosed (answer : Except Exn Json) : Prop where
  missing : loadReplayLog codec answer = .ok none → ReportsMissing answer
  numbered : ∀ log, loadReplayLog codec answer = .ok (some log) → WellNumbered log
  raises : ∀ e, loadReplayLog codec answer = .error e → IsReplayError e ∨ answer = .error e
  replays : ∀ ctx, InReplay codec answer ctx → ∀ entry, ctx.entries[ctx.cursor]? = some entry →
    ReplaysClosed codec ctx entry

/-- What a stored log must not hold for that: a text that the decoder fails on otherwise than by
saying so, an entry whose type cannot be hashed, a recorded value of the wrong format. -/
structure Acceptable (answer : Except Exn Json) : Prop where
  decodes : ∀ raw, storedLog answer = some raw → ∀ e, codec.loads raw = .error (.other e) →
    IsReplayError e
  hashable : ∀ raw items, storedLog answer = some raw → codec.loads raw = .ok (.array items) →
    ∀ (i : ℕ) item, items[i]? = some item →
      (∀ j < i, ∃ before, items[j]? = some before ∧ WellFormed j before) → ¬ UnhashableType item
  values : ∀ raw items, storedLog answer = some raw → codec.loads raw = .ok (.array items) →
    (∀ (i : ℕ) item, items[i]? = some item → WellFormed i item) →
    ∀ item ∈ items, ∀ entry, Describes item entry → RecordedValue codec entry

section Iff
variable {codec} {answer : Except Exn Json}

theorem storedLog_answer {raw : String} (h : storedLog answer = some raw) :
    ∃ value, answer = .ok value := by
  rcases answer with e | value
  · cases h
  · exact ⟨value, rfl⟩

/-- The loader after it found the text of the log. -/
theorem loadReplayLog_stored {raw : String} (h : storedLog answer = some raw) :
    loadReplayLog codec answer = some <$> decodeLog codec raw := by
  rcases loadReplayLog_cases codec answer with ⟨raw', hraw', hload⟩ | ⟨hnone, _⟩
  · cases h.symm.trans hraw'
    exact hload
  · rw [hnone] at h
    cases h

theorem map_some_eq_ok_iff {log : List ReplayLogEntry} {x : Except Exn (List ReplayLogEntry)} :
    some <$> x = .ok (some log) ↔ x = .ok log := by
  cases x <;> simp

theorem loaded_iff {log : List ReplayLogEntry} :
    loadReplayLog codec answer = .ok (some log) ↔ ∃ raw items, storedLog answer = some raw ∧
      codec.loads raw = .ok (.array items) ∧ entriesFrom codec 0 items = .ok log := by
  constructor
  · intro h
    rcases loadReplayLog_cases codec answer with ⟨raw, hraw, hload⟩ | ⟨_, ⟨hnone, _⟩ | ⟨e, he, _⟩⟩
    · obtain ⟨items, hitems, hlog⟩ := (decodeLog_eq_ok_iff codec raw log).mp
        (map_some_eq_ok_iff.mp (hload.symm.trans h))
      exact ⟨raw, items, hraw, hitems, hlog⟩
    · cases h.symm.trans hnone
    · cases h.symm.trans he
  · rintro ⟨raw, items, hraw, hitems, hlog⟩
    rw [loadReplayLog_stored hraw, map_some_eq_ok_iff, decodeLog_eq_ok_iff]
    exact ⟨items, hitems, hlog⟩

/-- What escapes the loader is what escapes the decoding of the stored text. -/
theorem load_raises_iff :
    (∀ e, loadReplayLog codec answer = .error e → IsReplayError e ∨ answer = .error e) ↔
      ∀ raw, storedLog answer = some raw → OnlyRaises IsReplayError (decodeLog codec raw) := by
  constructor
  · intro h raw hraw e he
    obtain ⟨value, rfl⟩ := storedLog_answer hraw
    refine (h e ?_).resolve_right nofun
    rw [loadReplayLog_stored hraw, he]
    rfl
  · intro h e he
    rcases loadReplayLog_cases codec answer with
      ⟨raw, hraw, hload⟩ | ⟨_, ⟨hnone, _⟩ | ⟨e', he', hend⟩⟩
    · refine .inl (h raw hraw e ?_)
      rw [hload] at he
      rcases hdecode : decodeLog codec raw with e' | log
      · rw [hdecode] at he
        cases he
        rfl
      · rw [hdecode] at he
        cases he
    · cases he.symm.trans hnone
    · cases he.symm.trans he'
      exact hend

theorem wellNumbered_of_loaded {log : List ReplayLogEntry}
    (h : loadReplayLog codec answer = .ok (some log)) : WellNumbered log := by
  obtain ⟨_, items, _, _, hlog⟩ := loaded_iff.mp h
  intro i entry hi
  rw [((entriesFrom_eq_ok_iff codec 0 items log).mp hlog).2 i entry hi, Nat.zero_add]

theorem reportsMissing_of_none (h : loadReplayLog codec answer = .ok none) :
    ReportsMissing answer := by
  rcases loadReplayLog_cases codec answer with ⟨raw, _, hload⟩ | ⟨_, ⟨_, hmissing⟩ | ⟨e, he, _⟩⟩
  · rw [hload] at h
    rcases hdecode : decodeLog codec raw with e | log
    · rw [hdecode] at h
      cases h
    · rw [hdecode] at h
      cases h
  · exact hmissing
  · cases h.symm.trans he

theorem create_replaying {jobId : String} {attempt : ℤ} {ctx : DurableContext}
    (h : DurableContext.create codec jobId attempt answer = .ok ctx) (hr : ctx.replaying = true) :
    loadReplayLog codec answer = .ok (some ctx.entries) ∧ ctx.cursor = 0 ∧ ctx.entries ≠ [] := by
  rw [DurableContext.create] at h
  rcases hload : loadReplayLog codec answer with e | (_ | (_ | ⟨entry, rest⟩))
  · rw [hload] at h
    cases h
  · rw [hload] at h
    cases h
    cases hr
  · rw [hload] at h
    cases h
    cases hr
  · rw [hload] at h
    cases h
    exact ⟨rfl, rfl, List.cons_ne_nil entry rest⟩

theorem create_of_loaded {log : List ReplayLogEntry}
    (h : loadReplayLog codec answer = .ok (some log)) (hlog : log ≠ []) :
    ∃ ctx, DurableContext.create codec "" 1 answer = .ok ctx ∧ ctx.replaying = true ∧
      ctx.entries = log ∧ ctx.cursor = 0 := by
  obtain ⟨entry, rest, rfl⟩ := List.exists_cons_of_ne_nil hlog
  refine ⟨{ jobId := "", attempt := 1, entries := entry :: rest, replaying := true }, ?_, rfl, rfl,
    rfl⟩
  rw [DurableContext.create, h]
  rfl

/-- While a log is replayed, an operation leaves the context or takes one entry. -/
theorem step_cases {ctx : DurableContext} (h : ctx.replaying = true)
    (hcursor : ctx.cursor < ctx.entries.length) :
    (∀ clock, (ctx.now codec clock).1 = ctx ∨ (ctx.now codec clock).1 = ctx.advance) ∧
      (∀ token, (ctx.random token).1 = ctx ∨ (ctx.random token).1 = ctx.advance) ∧
      ∀ key, (ctx.beginSideEffect key).1 = ctx ∨ (ctx.beginSideEffect key).1 = ctx.advance := by
  have he := List.getElem?_eq_getElem hcursor
  refine ⟨fun clock => ?_, fun token => ?_, fun key => ?_⟩
  · by_cases htype : ctx.entries[ctx.cursor].type = .time
    · exact .inr (DurableContext.now_agrees codec h he clock htype).1
    · obtain ⟨message, hsame⟩ := DurableContext.now_disagrees codec h he clock htype
      exact .inl (by rw [hsame])
  · by_cases htype : ctx.entries[ctx.cursor].type = .random
    · exact .inr (DurableContext.random_agrees h he token htype).1
    · obtain ⟨message, hsame⟩ := DurableContext.random_disagrees h he token htype
      exact .inl (by rw [hsame])
  · by_cases ha : DurableContext.Agrees ctx.entries[ctx.cursor] .call key
    · exact .inr (by rw [DurableContext.beginSideEffect_agrees h he ha])
    · obtain ⟨message, hsame⟩ := DurableContext.beginSideEffect_disagrees h he ha
      exact .inl (by rw [hsame])

/-- A context in replay holds the loaded log, and its cursor is inside of it. -/
theorem InReplay.holds {ctx : DurableContext} (h : InReplay codec answer ctx) :
    ctx.replaying = true ∧ loadReplayLog codec answer = .ok (some ctx.entries) ∧
      ctx.cursor < ctx.entries.length := by
  have hstep : ∀ {ctx ctx' : DurableContext}, ctx.replaying = true ∧
      loadReplayLog codec answer = .ok (some ctx.entries) ∧ ctx.cursor < ctx.entries.length →
      ctx' = ctx ∨ ctx' = ctx.advance → ctx'.replaying = true →
      ctx'.replaying = true ∧ loadReplayLog codec answer = .ok (some ctx'.entries) ∧
        ctx'.cursor < ctx'.entries.length := by
    rintro ctx ctx' ⟨hr, hload, hcursor⟩ (rfl | rfl) hr'
    · exact ⟨hr, hload, hcursor⟩
    · rw [DurableContext.advance_entries, DurableContext.advance_cursor]
      exact ⟨hr', hload, (DurableContext.advance_replaying hr).mp hr'⟩
  induction h with
  | created h hr =>
    obtain ⟨hload, hcursor, hne⟩ := create_replaying h hr
    exact ⟨hr, hload, by rw [hcursor]; exact List.length_pos_iff.mpr hne⟩
  | now _ clock hr ih => exact hstep ih ((step_cases ih.1 ih.2.2).1 clock) hr
  | random _ token hr ih => exact hstep ih ((@step_cases codec _ ih.1 ih.2.2).2.1 token) hr
  | sideEffect _ key hr ih => exact hstep ih ((@step_cases codec _ ih.1 ih.2.2).2.2 key) hr

/-- Every entry of the loaded log is under the cursor of some context in replay. -/
theorem inReplay_at {log : List ReplayLogEntry}
    (h : loadReplayLog codec answer = .ok (some log)) {i : ℕ} (hi : i < log.length) :
    ∃ ctx, InReplay codec answer ctx ∧ ctx.entries = log ∧ ctx.cursor = i := by
  induction i with
  | zero =>
    obtain ⟨ctx, hcreate, hr, hentries, hcursor⟩ :=
      create_of_loaded h (List.ne_nil_of_length_pos hi)
    exact ⟨ctx, .created hcreate hr, hentries, hcursor⟩
  | succ i ih =>
    obtain ⟨ctx, hctx, rfl, rfl⟩ := ih (Nat.lt_of_succ_lt hi)
    have hr := hctx.holds.1
    have he := List.getElem?_eq_getElem (Nat.lt_of_succ_lt hi)
    have hadvance : ctx.advance.replaying = true := (DurableContext.advance_replaying hr).mpr hi
    refine ⟨ctx.advance, ?_, DurableContext.advance_entries, DurableContext.advance_cursor⟩
    rcases htype : ctx.entries[ctx.cursor].type with _ | _ | _
    · have hnow := (DurableContext.now_agrees codec hr he ⟨0, 0, 0, 0, 0, 0, 0, none⟩ htype).1
      exact hnow ▸ hctx.now _ (hnow ▸ hadvance)
    · have hrandom := (DurableContext.random_agrees hr he "" htype).1
      exact hrandom ▸ hctx.random _ (hrandom ▸ hadvance)
    · have hcall : (ctx.beginSideEffect ctx.entries[ctx.cursor].key).1 = ctx.advance := by
        rw [DurableContext.beginSideEffect_agrees hr he ⟨htype, fun _ => rfl⟩]
      exact hcall ▸ hctx.sideEffect _ (hcall ▸ hadvance)

end Iff

/-- An entry says one thing only. -/
theorem Describes.unique {item : Json} {entry entry' : ReplayLogEntry} (h : Describes item entry)
    (h' : Describes item entry') : entry = entry' := by
  obtain ⟨data, rfl, hseq, htype, hresult, hkey⟩ := h
  obtain ⟨_, ⟨⟩, hseq', htype', hresult', hkey'⟩ := h'
  have hname : entry.type.name = entry'.type.name := Json.str.inj (htype.symm.trans htype')
  have hof : some entry.type = some entry'.type := by
    rw [← EffectType.ofName_name, ← EffectType.ofName_name, hname]
  obtain ⟨seq, type, result, key⟩ := entry
  obtain ⟨seq', type', result', key'⟩ := entry'
  cases Json.int.inj (hseq.symm.trans hseq')
  cases hof
  cases hresult.symm.trans hresult'
  cases Json.str.inj (hkey.symm.trans hkey')
  rfl

theorem entriesFrom_of_wellFormed {k : ℕ} {items : List Json}
    (h : ∀ (i : ℕ) item, items[i]? = some item → WellFormed (k + i) item) :
    ∃ log, entriesFrom codec k items = .ok log := by
  induction items generalizing k with
  | nil => exact ⟨[], rfl⟩
  | cons raw rest ih =>
    obtain ⟨entry, hentry⟩ := h 0 raw rfl
    obtain ⟨tail, htail⟩ := ih (k := k + 1) fun i item hi => by
      rw [Nat.add_right_comm]
      exact h (i + 1) item hi
    refine ⟨entry :: tail, ?_⟩
    rw [entriesFrom_cons, (readEntry_eq_ok_iff codec k raw entry).mpr hentry, ok_bind, htail]
    rfl

/-- Loading and replaying fail closed exactly when the stored log is acceptable. -/
theorem fails_closed_iff (answer : Except Exn Json) :
    FailsClosed codec answer ↔ Acceptable codec answer := by
  constructor
  · rintro ⟨_, _, hraises, hreplays⟩
    have hdecodes := load_raises_iff.mp hraises
    refine ⟨fun raw hraw => ((decodeLog_raises_iff codec raw).mp (hdecodes raw hraw)).1,
      fun raw items hraw hitems => ?_,
      fun raw items hraw hitems hwell item hitem entry hentry => ?_⟩
    · have hitems' := ((decodeLog_raises_iff codec raw).mp (hdecodes raw hraw)).2 items hitems
      simpa using (entriesFrom_raises_iff codec 0 items).mp hitems'
    · have hwell' : ∀ (i : ℕ) item, items[i]? = some item → WellFormed (0 + i) item := by
        simpa using hwell
      obtain ⟨log, hlog⟩ := entriesFrom_of_wellFormed codec hwell'
      obtain ⟨hall, _⟩ := (entriesFrom_eq_ok_iff codec 0 items log).mp hlog
      obtain ⟨i, hi, rfl⟩ := List.getElem_of_mem hitem
      have hlt : i < log.length := hall.length_eq ▸ hi
      obtain rfl : entry = log[i] := hentry.unique (hall.get hi hlt)
      obtain ⟨ctx, hctx, rfl, rfl⟩ :=
        inReplay_at (loaded_iff.mpr ⟨raw, items, hraw, hitems, hlog⟩) hlt
      have he := List.getElem?_eq_getElem hlt
      exact (DurableContext.replaysClosed_iff codec hctx.holds.1 he).mp (hreplays ctx hctx _ he)
  · intro hacc
    refine ⟨reportsMissing_of_none, fun log => wellNumbered_of_loaded, load_raises_iff.mpr ?_, ?_⟩
    · intro raw hraw
      refine (decodeLog_raises_iff codec raw).mpr ⟨hacc.decodes raw hraw, fun items hitems => ?_⟩
      rw [entriesFrom_raises_iff]
      simpa using hacc.hashable raw items hraw hitems
    · intro ctx hctx entry he
      obtain ⟨hr, hload, hcursor⟩ := hctx.holds
      obtain ⟨raw, items, hraw, hitems, hlog⟩ := loaded_iff.mp hload
      obtain ⟨hall, hnumbers⟩ := (entriesFrom_eq_ok_iff codec 0 items ctx.entries).mp hlog
      have hlt : ctx.cursor < items.length := hall.length_eq.symm ▸ hcursor
      obtain rfl : ctx.entries[ctx.cursor] = entry :=
        Option.some.inj ((List.getElem?_eq_getElem hcursor).symm.trans he)
      rw [DurableContext.replaysClosed_iff codec hr he]
      refine hacc.values raw items hraw hitems (fun i item hi => ?_) _ (List.getElem_mem hlt) _
        (hall.get hlt hcursor)
      obtain ⟨hilt, rfl⟩ := List.getElem?_eq_some_iff.mp hi
      have hilog : i < ctx.entries.length := hall.length_eq ▸ hilt
      exact ⟨ctx.entries[i], hall.get hilt hilog,
        by rw [hnumbers i _ (List.getElem?_eq_getElem hilog), Nat.zero_add]⟩

/-- A log of one entry, as the backend answers a resume request. -/
def storedEntry (fields : Fields) : Codec × Except Exn Json :=
  (Codec.ofTexts [(.array [.object fields], "log")] [],
    .ok (resumeResponse (some (.object [("metadata", .object [("_replay_log", .str "log")])]))))

def listTypeEntry : Codec × Except Exn Json :=
  storedEntry [("seq", .int 0), ("type", .array []), ("result", .int 1)]

def malformedTimeEntry : Codec × Except Exn Json :=
  storedEntry [("seq", .int 0), ("type", .str "time"), ("result", .str "noon"), ("key", .str "now")]

theorem malformed_entries_escape :
    ¬ FailsClosed listTypeEntry.1 listTypeEntry.2 ∧
      ¬ FailsClosed malformedTimeEntry.1 malformedTimeEntry.2 := by
  constructor
  · intro h
    rcases h.raises (.builtin .typeError "unhashable type: 'list'") (by decide +kernel)
      with ⟨_, hreplay⟩ | hanswer
    · cases hreplay
    · cases hanswer
  · intro h
    let ctx : DurableContext :=
      { jobId := "j-1", attempt := 2, replaying := true
        entries := [{ seq := 0, type := .time, result := .str "noon", key := "now" }] }
    have hcreate : DurableContext.create malformedTimeEntry.1 "j-1" 2 malformedTimeEntry.2 =
        .ok ctx := by decide +kernel
    rcases (h.replays ctx (.created hcreate rfl) _ rfl).now ⟨2026, 1, 1, 0, 0, 0, 0, some 0⟩
      with ⟨_, _, _, hiso, _⟩ | ⟨_, hsame⟩
    · cases hiso
    · have hcursor : 1 = 0 := congrArg (fun after => after.1.cursor) hsame
      exact absurd hcursor (by decide)

end OpenJobSpec.Durable
