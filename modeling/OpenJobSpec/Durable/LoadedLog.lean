import OpenJobSpec.Durable.ReplayLog

/-! # How loading a replay log ends

The loader checks the shape of every entry in turn. Only a type that cannot be
looked up in a set of names, or a text on which the JSON decoder itself gives
up, makes an exception of another class escape.
-/
namespace OpenJobSpec.Durable
open ExceptRules

def IsReplayError (e : Exn) : Prop := ∃ message, e = .durableReplay message

theorem onlyRaises_durableReplay {α : Type} (message : String) :
    OnlyRaises IsReplayError (.error (.durableReplay message) : Except Exn α) :=
  .raise ⟨message, rfl⟩

/-- What a raw entry says when its shape passes every check. -/
def Describes (item : Json) (entry : ReplayLogEntry) : Prop :=
  ∃ data, item = .object data ∧ Fields.get data "seq" .null = .int entry.seq ∧
    Fields.get data "type" .null = .str entry.type.name ∧
    data.lookup "result" = some entry.result ∧ Fields.get data "key" (.str "") = .str entry.key

/-- A raw entry that the loader accepts at a position. -/
def WellFormed (position : ℕ) (item : Json) : Prop :=
  ∃ entry, Describes item entry ∧ entry.seq = position

/-- A numbered entry whose type is an array or an object, which a set of strings cannot hold. -/
def UnhashableType (item : Json) : Prop :=
  ∃ data, item = .object data ∧ (∃ n, Fields.get data "seq" .null = .int n) ∧
    ((∃ items, Fields.get data "type" .null = .array items) ∨
      ∃ fields, Fields.get data "type" .null = .object fields)

/-- The checks of one entry, up to its sequence number. -/
def readEntry (codec : Codec) (expected : ℕ) (raw : Json) : Except Exn ReplayLogEntry := do
  let data ← match raw with
    | .object data => pure data
    | _ => throw (.durableReplay ("replay entry " ++ toString expected ++ " must be an object"))
  let entry ← ReplayLogEntry.fromDict codec data
  if entry.seq ≠ expected then
    throw (.durableReplay ("replay sequence mismatch: expected " ++ toString expected ++
      ", got " ++ toString entry.seq))
  return entry

variable (codec : Codec)

theorem entriesFrom_cons (expected : ℕ) (raw : Json) (rest : List Json) :
    entriesFrom codec expected (raw :: rest) = (do
      let entry ← readEntry codec expected raw
      let tail ← entriesFrom codec (expected + 1) rest
      return entry :: tail) := by
  cases raw with
  | object data =>
    simp only [entriesFrom, readEntry, pure_bind, bind_assoc]
    refine congrArg _ (funext fun entry => ?_)
    by_cases h : entry.seq = expected
    · simp only [h, ne_eq, not_true, if_false]
      rfl
    · simp only [h, ne_eq, not_false_eq_true, if_true]
      rfl
  | _ => rfl

theorem EffectType.ofName_eq_some_iff {name : String} {t : EffectType} :
    ofName name = some t ↔ name = t.name := by
  refine ⟨fun h => ?_, fun h => h ▸ ofName_name t⟩
  simp only [ofName, List.lookup_cons] at h
  split at h
  next heq => cases h; exact beq_iff_eq.mp heq
  next =>
    split at h
    next heq => cases h; exact beq_iff_eq.mp heq
    next =>
      split at h
      next heq => cases h; exact beq_iff_eq.mp heq
      next => cases h

namespace ReplayLogEntry

theorem effectType_eq_ok_iff (seq : ℤ) (value : Json) (t : EffectType) :
    effectType codec seq value = .ok t ↔ value = .str t.name := by
  cases value with
  | str name =>
    simp only [effectType, Json.str.injEq, ← EffectType.ofName_eq_some_iff]
    cases EffectType.ofName name <;> simp
  | _ => simp [effectType]

theorem effectType_raises_iff (seq : ℤ) (value : Json) :
    OnlyRaises IsReplayError (effectType codec seq value) ↔
      ¬ ((∃ items, value = .array items) ∨ ∃ fields, value = .object fields) := by
  have htype : ∀ message,
      ¬ OnlyRaises IsReplayError
        (.error (.builtin .typeError message) : Except Exn EffectType) := by
    intro message h
    obtain ⟨m, hm⟩ := h _ rfl
    cases hm
  cases value with
  | str name =>
    refine iff_of_true ?_ (by simp)
    rcases hname : EffectType.ofName name with _ | t
    · simp only [effectType, hname]
      exact onlyRaises_durableReplay _
    · simp only [effectType, hname]
      exact .ok t
  | array items => exact iff_of_false (htype _) (by simp)
  | object fields => exact iff_of_false (htype _) (by simp)
  | _ => exact iff_of_true (onlyRaises_durableReplay _) (by simp)

/-- The checks of an entry that follow those of its number and its type. -/
def readRest (data : Fields) (seq : ℤ) (type : EffectType) : Except Exn ReplayLogEntry :=
  match data.lookup "result" with
  | none => .error (.durableReplay ("replay entry " ++ toString seq ++ " is missing result"))
  | some result =>
    match Fields.get data "key" (.str "") with
    | .str key => .ok { seq, type, result, key }
    | _ => .error (.durableReplay ("replay entry " ++ toString seq ++ " key must be a string"))

theorem fromDict_of_int {data : Fields} {n : ℤ} (h : Fields.get data "seq" .null = .int n) :
    fromDict codec data =
      effectType codec n (Fields.get data "type" .null) >>= readRest data n := by
  simp only [fromDict, h, pure_bind]
  refine congrArg _ (funext fun type => ?_)
  unfold readRest
  cases data.lookup "result" with
  | none => rfl
  | some result => cases Fields.get data "key" (.str "") <;> rfl

theorem fromDict_of_not_int {data : Fields} (h : ∀ n, Fields.get data "seq" .null ≠ .int n) :
    fromDict codec data = .error (.durableReplay "replay entry seq must be an integer") := by
  rw [fromDict]
  rcases hseq : Fields.get data "seq" .null with _ | _ | n | _ | _ | _ | _
  case int => exact absurd hseq (h n)
  all_goals rfl

theorem readRest_eq_ok_iff {data : Fields} {seq : ℤ} {type : EffectType} {entry : ReplayLogEntry} :
    readRest data seq type = .ok entry ↔
      entry.seq = seq ∧ entry.type = type ∧ data.lookup "result" = some entry.result ∧
        Fields.get data "key" (.str "") = .str entry.key := by
  obtain ⟨seq', type', result', key'⟩ := entry
  unfold readRest
  cases data.lookup "result" with
  | none => simp
  | some result =>
    cases Fields.get data "key" (.str "") with
    | str key =>
      simp only [Except.ok.injEq, ReplayLogEntry.mk.injEq, Option.some.injEq, Json.str.injEq]
      exact ⟨fun ⟨h₁, h₂, h₃, h₄⟩ => ⟨h₁.symm, h₂.symm, h₃, h₄⟩,
        fun ⟨h₁, h₂, h₃, h₄⟩ => ⟨h₁.symm, h₂.symm, h₃, h₄⟩⟩
    | _ => simp

theorem readRest_raises (data : Fields) (seq : ℤ) (type : EffectType) :
    OnlyRaises IsReplayError (readRest data seq type) := by
  unfold readRest
  split
  · exact onlyRaises_durableReplay _
  · split
    · exact .ok _
    · exact onlyRaises_durableReplay _

theorem fromDict_eq_ok_iff (data : Fields) (entry : ReplayLogEntry) :
    fromDict codec data = .ok entry ↔ Describes (.object data) entry := by
  by_cases hint : ∃ n, Fields.get data "seq" .null = .int n
  · obtain ⟨n, hn⟩ := hint
    rw [fromDict_of_int codec hn, bind_eq_ok]
    constructor
    · rintro ⟨type, htype, hrest⟩
      obtain ⟨rfl, rfl, hresult, hkey⟩ := readRest_eq_ok_iff.mp hrest
      exact ⟨data, rfl, hn, (effectType_eq_ok_iff codec _ _ _).mp htype, hresult, hkey⟩
    · rintro ⟨_, ⟨⟩, hseq, htype, hresult, hkey⟩
      have hnumber : entry.seq = n := Json.int.inj (hseq.symm.trans hn)
      exact ⟨entry.type, (effectType_eq_ok_iff codec _ _ _).mpr htype,
        readRest_eq_ok_iff.mpr ⟨hnumber, rfl, hresult, hkey⟩⟩
  · rw [fromDict_of_not_int codec (not_exists.mp hint)]
    refine iff_of_false nofun ?_
    rintro ⟨_, ⟨⟩, hseq, _⟩
    exact hint ⟨_, hseq⟩

/-- The type is the only thing whose shape can make another exception escape. -/
theorem fromDict_raises_iff (data : Fields) :
    OnlyRaises IsReplayError (fromDict codec data) ↔ ¬ UnhashableType (.object data) := by
  by_cases hint : ∃ n, Fields.get data "seq" .null = .int n
  · obtain ⟨n, hn⟩ := hint
    have hun : UnhashableType (.object data) ↔
        (∃ items, Fields.get data "type" .null = .array items) ∨
          ∃ fields, Fields.get data "type" .null = .object fields := by
      constructor
      · rintro ⟨_, ⟨⟩, _, h⟩
        exact h
      · exact fun h => ⟨data, rfl, ⟨n, hn⟩, h⟩
    rw [hun, ← effectType_raises_iff codec n, fromDict_of_int codec hn, onlyRaises_bind_iff]
    exact and_iff_left fun type _ => readRest_raises data n type
  · rw [fromDict_of_not_int codec (not_exists.mp hint)]
    refine iff_of_true (onlyRaises_durableReplay _) ?_
    rintro ⟨_, ⟨⟩, hn, _⟩
    exact hint hn

end ReplayLogEntry

theorem readEntry_eq_ok_iff (expected : ℕ) (raw : Json) (entry : ReplayLogEntry) :
    readEntry codec expected raw = .ok entry ↔ Describes raw entry ∧ entry.seq = expected := by
  cases raw with
  | object data =>
    simp only [readEntry, pure_bind, bind_eq_ok, ReplayLogEntry.fromDict_eq_ok_iff]
    constructor
    · rintro ⟨found, hfound, h⟩
      by_cases hseq : found.seq = expected
      · rw [if_neg (not_not.mpr hseq)] at h
        cases h
        exact ⟨hfound, hseq⟩
      · rw [if_pos hseq] at h
        cases h
    · rintro ⟨hentry, hseq⟩
      exact ⟨entry, hentry, by rw [if_neg (not_not.mpr hseq)]; rfl⟩
  | _ =>
    refine iff_of_false nofun ?_
    rintro ⟨⟨_, hdata, _⟩, _⟩
    cases hdata

theorem readEntry_raises_iff (expected : ℕ) (raw : Json) :
    OnlyRaises IsReplayError (readEntry codec expected raw) ↔ ¬ UnhashableType raw := by
  cases raw with
  | object data =>
    rw [← ReplayLogEntry.fromDict_raises_iff codec]
    simp only [readEntry, pure_bind]
    rw [onlyRaises_bind_iff]
    refine and_iff_left fun entry _ => ?_
    by_cases hseq : entry.seq = expected
    · rw [if_neg (not_not.mpr hseq)]
      exact .ok entry
    · rw [if_pos hseq]
      exact onlyRaises_durableReplay _
  | _ =>
    refine iff_of_true (onlyRaises_durableReplay _) ?_
    rintro ⟨_, hdata, _⟩
    cases hdata

theorem entriesFrom_eq_ok_iff (k : ℕ) (items : List Json) (log : List ReplayLogEntry) :
    entriesFrom codec k items = .ok log ↔
      List.Forall₂ Describes items log ∧
        ∀ (i : ℕ) entry, log[i]? = some entry → entry.seq = (k + i : ℕ) := by
  induction items generalizing k log with
  | nil =>
    rw [List.forall₂_nil_left_iff]
    constructor
    · intro h
      cases h
      exact ⟨rfl, fun i entry hi => by simp at hi⟩
    · rintro ⟨rfl, _⟩
      rfl
  | cons raw rest ih =>
    rw [entriesFrom_cons, bind_eq_ok, List.forall₂_cons_left_iff]
    constructor
    · rintro ⟨entry, hentry, h⟩
      obtain ⟨tail, htail, hlog⟩ := bind_eq_ok.mp h
      cases hlog
      obtain ⟨hdescribes, hseq⟩ := (readEntry_eq_ok_iff codec k raw entry).mp hentry
      obtain ⟨hrest, hnumbers⟩ := (ih (k + 1) tail).mp htail
      refine ⟨⟨entry, tail, hdescribes, hrest, rfl⟩, fun i found hi => ?_⟩
      cases i with
      | zero =>
        cases hi
        exact hseq
      | succ i =>
        rw [hnumbers i found hi]
        omega
    · rintro ⟨⟨entry, tail, hdescribes, hrest, rfl⟩, hnumbers⟩
      have hentry : readEntry codec k raw = .ok entry :=
        (readEntry_eq_ok_iff codec k raw entry).mpr ⟨hdescribes, hnumbers 0 entry rfl⟩
      have htail : entriesFrom codec (k + 1) rest = .ok tail := by
        refine (ih (k + 1) tail).mpr ⟨hrest, fun i found hi => ?_⟩
        rw [hnumbers (i + 1) found hi]
        omega
      exact ⟨entry, hentry, bind_eq_ok.mpr ⟨tail, htail, rfl⟩⟩

/-- Another exception escapes only at an entry that is reached, past well-formed ones. -/
theorem entriesFrom_raises_iff (k : ℕ) (items : List Json) :
    OnlyRaises IsReplayError (entriesFrom codec k items) ↔
      ∀ (i : ℕ) item, items[i]? = some item →
        (∀ j < i, ∃ before, items[j]? = some before ∧ WellFormed (k + j) before) →
        ¬ UnhashableType item := by
  induction items generalizing k with
  | nil => exact iff_of_true (.ok _) fun i item hi => by simp at hi
  | cons raw rest ih =>
    have hrest : ∀ entry, OnlyRaises IsReplayError (do
        let tail ← entriesFrom codec (k + 1) rest
        return entry :: tail) ↔ OnlyRaises IsReplayError (entriesFrom codec (k + 1) rest) :=
      fun entry => onlyRaises_bind_iff.trans (and_iff_left fun tail _ => .ok _)
    simp only [entriesFrom_cons, onlyRaises_bind_iff, readEntry_raises_iff, hrest, ih]
    constructor
    · rintro ⟨hraw, htail⟩ i item hi hbefore
      cases i with
      | zero =>
        cases hi
        exact hraw
      | succ i =>
        obtain ⟨_, hfirst, entry, hentry⟩ := hbefore 0 i.succ_pos
        cases hfirst
        refine htail entry ((readEntry_eq_ok_iff codec k raw entry).mpr hentry) i item hi
          fun j hj => ?_
        obtain ⟨before, hj, hwell⟩ := hbefore (j + 1) (Nat.succ_lt_succ hj)
        exact ⟨before, hj, by rwa [Nat.add_right_comm]⟩
    · refine fun h => ⟨h 0 raw rfl fun j hj => absurd hj j.not_lt_zero,
        fun entry hread i item hi hbefore => ?_⟩
      have hentry : WellFormed k raw := ⟨entry, (readEntry_eq_ok_iff codec k raw entry).mp hread⟩
      refine h (i + 1) item hi fun j hj => ?_
      cases j with
      | zero => exact ⟨raw, rfl, hentry⟩
      | succ j =>
        obtain ⟨before, hj, hwell⟩ := hbefore j (Nat.lt_of_succ_lt_succ hj)
        exact ⟨before, hj, by rwa [Nat.add_right_comm] at hwell⟩

theorem decodeLog_eq_ok_iff (raw : String) (log : List ReplayLogEntry) :
    decodeLog codec raw = .ok log ↔
      ∃ items, codec.loads raw = .ok (.array items) ∧ entriesFrom codec 0 items = .ok log := by
  rcases hloads : codec.loads raw with (message | e) | value
  · simp [decodeLog, hloads]
  · simp [decodeLog, hloads]
  · cases value <;> simp [decodeLog, hloads]

theorem decodeLog_raises_iff (raw : String) :
    OnlyRaises IsReplayError (decodeLog codec raw) ↔
      (∀ e, codec.loads raw = .error (.other e) → IsReplayError e) ∧
        ∀ items, codec.loads raw = .ok (.array items) →
          OnlyRaises IsReplayError (entriesFrom codec 0 items) := by
  rcases hloads : codec.loads raw with (message | e) | value
  · refine iff_of_true ?_ ⟨fun e he => (by cases he), fun items hi => (by cases hi)⟩
    rw [decodeLog, hloads]
    exact onlyRaises_durableReplay _
  · simp [decodeLog, hloads, OnlyRaises]
  · cases value with
    | array items => simp [decodeLog, hloads]
    | _ =>
      refine iff_of_true ?_ ⟨fun e he => (by cases he), fun items hi => (by cases hi)⟩
      rw [decodeLog, hloads]
      exact onlyRaises_durableReplay _

/-! ## The response of the backend -/

/-- The text of the log, when every object on the way to it is there. -/
def storedLog (answer : Except Exn Json) : Option String :=
  match answer with
  | .ok (.object response) =>
    match Fields.get response "has_checkpoint" .null, Fields.get response "checkpoint" .null with
    | .bool true, .object checkpoint =>
      match Fields.get checkpoint "metadata" .null with
      | .object «metadata» =>
        match Fields.get «metadata» "_replay_log" .null with
        | .str raw => if raw = "" then none else some raw
        | _ => none
      | _ => none
    | _, _ => none
  | _ => none

/-- The backend says that there is no checkpoint. -/
def ReportsMissing (answer : Except Exn Json) : Prop :=
  (∃ e, answer = .error (.api e) ∧ e.cls = .jobNotFound) ∨
    ∃ response, answer = .ok (.object response) ∧
      Fields.get response "has_checkpoint" .null = .bool false

/-- The loader decodes the stored log, or it ends without one. -/
theorem loadReplayLog_cases (answer : Except Exn Json) :
    (∃ raw, storedLog answer = some raw ∧
      loadReplayLog codec answer = some <$> decodeLog codec raw) ∨
    storedLog answer = none ∧
      (loadReplayLog codec answer = .ok none ∧ ReportsMissing answer ∨
        ∃ e, loadReplayLog codec answer = .error e ∧ (IsReplayError e ∨ answer = .error e)) := by
  have hfails : ∀ (message : String), storedLog answer = none →
      loadReplayLog codec answer = .error (.durableReplay message) →
      storedLog answer = none ∧
        (loadReplayLog codec answer = .ok none ∧ ReportsMissing answer ∨
          ∃ e, loadReplayLog codec answer = .error e ∧ (IsReplayError e ∨ answer = .error e)) :=
    fun message hnone hx => ⟨hnone, .inr ⟨_, hx, .inl ⟨message, rfl⟩⟩⟩
  rcases answer with e | value
  · refine .inr ⟨rfl, ?_⟩
    cases e with
    | api e =>
      by_cases hcls : e.cls = .jobNotFound
      · exact .inl ⟨if_pos hcls, .inl ⟨e, rfl, hcls⟩⟩
      · exact .inr ⟨_, if_neg hcls, .inr rfl⟩
    | _ => exact .inr ⟨_, rfl, .inr rfl⟩
  cases value with
  | object response =>
    rcases hhas : Fields.get response "has_checkpoint" .null with _ | (_ | _) | _ | _ | _ | _ | _
    case bool.false =>
      refine .inr ⟨?_, .inl ⟨?_, .inr ⟨response, rfl, hhas⟩⟩⟩
      · simp only [storedLog, hhas]
      · simp only [loadReplayLog, hhas]
    case bool.true =>
      rcases hcp : Fields.get response "checkpoint" .null with _ | _ | _ | _ | _ | _ | checkpoint
      case object =>
        rcases hm : Fields.get checkpoint "metadata" .null with _ | _ | _ | _ | _ | _ | fields
        case object =>
          rcases hlog : Fields.get fields "_replay_log" .null with _ | _ | _ | _ | raw | _ | _
          case str =>
            by_cases hraw : raw = ""
            · refine .inr (hfails "checkpoint replay log is missing" ?_ ?_)
              · simp only [storedLog, hhas, hcp, hm, hlog, if_pos hraw]
              · simp only [loadReplayLog, hhas, hcp, hm, hlog, if_pos hraw]
            · refine .inl ⟨raw, ?_, ?_⟩
              · simp only [storedLog, hhas, hcp, hm, hlog, if_neg hraw]
              · simp only [loadReplayLog, hhas, hcp, hm, hlog, if_neg hraw]
          all_goals
            refine .inr (hfails "checkpoint replay log is missing" ?_ ?_)
            · simp only [storedLog, hhas, hcp, hm, hlog]
            · simp only [loadReplayLog, hhas, hcp, hm, hlog]
        all_goals
          refine .inr (hfails "checkpoint metadata must be an object" ?_ ?_)
          · simp only [storedLog, hhas, hcp, hm]
          · simp only [loadReplayLog, hhas, hcp, hm]
      all_goals
        refine .inr (hfails "checkpoint payload must be an object" ?_ ?_)
        · simp only [storedLog, hhas, hcp]
        · simp only [loadReplayLog, hhas, hcp]
    all_goals
      refine .inr (hfails "checkpoint response is missing has_checkpoint" ?_ ?_)
      · simp only [storedLog, hhas]
      · simp only [loadReplayLog, hhas]
  | _ => exact .inr (hfails "checkpoint response must be an object" rfl rfl)

end OpenJobSpec.Durable
