import OpenJobSpec.Errors.Hierarchy
import OpenJobSpec.Foundation.ExceptRules
import OpenJobSpec.Python.Text
import OpenJobSpec.Python.TextReader
import Mathlib.Data.List.Forall2

/-! # The replay log and its loader

An entry is one recorded value. The log travels as a JSON text inside the
metadata of a checkpoint, and loading it fails closed: only a missing checkpoint
counts as no log.
-/
namespace OpenJobSpec.Durable
open ExceptRules

/-- How `json.loads` fails; only a `JSONDecodeError` is caught by the loader. -/
inductive LoadsFailure
  | decode (message : String)
  | other (e : Exn)

/-- The interpreter's JSON and ISO 8601 functions, and `repr` of a decoded value. -/
structure Codec where
  dumps : Json → String
  loads : String → Except LoadsFailure Json
  isoformat : DateTime → String
  fromIsoformat : String → Option DateTime
  repr : Json → String

inductive EffectType
  | time
  | random
  | call
deriving DecidableEq

namespace EffectType

def name : EffectType → String
  | time => "time"
  | random => "random"
  | call => "call"

def ofName (name : String) : Option EffectType :=
  [("time", time), ("random", random), ("call", call)].lookup name

theorem ofName_name (t : EffectType) : ofName t.name = some t := by
  cases t <;> rfl

end EffectType

structure ReplayLogEntry where
  seq : ℤ
  type : EffectType
  result : Json
  key : String := ""
deriving DecidableEq

namespace ReplayLogEntry

def toDict (entry : ReplayLogEntry) : Json :=
  .object ([("seq", .int entry.seq), ("type", .str entry.type.name), ("result", entry.result)] ++
    if entry.key = "" then [] else [("key", .str entry.key)])

/-- Membership in a set of strings hashes the value first. -/
def effectType (codec : Codec) (seq : ℤ) (value : Json) : Except Exn EffectType :=
  match value with
  | .str name =>
    match EffectType.ofName name with
    | some t => .ok t
    | none => .error (.durableReplay
        ("replay entry " ++ toString seq ++ " has invalid type " ++ Text.repr name))
  | .array _ | .object _ =>
    .error (.builtin .typeError ("unhashable type: '" ++ value.typeName ++ "'"))
  | _ => .error (.durableReplay
      ("replay entry " ++ toString seq ++ " has invalid type " ++ codec.repr value))

def fromDict (codec : Codec) (data : Fields) : Except Exn ReplayLogEntry := do
  let seq ← match Fields.get data "seq" .null with
    | .int n => pure n
    | _ => throw (.durableReplay "replay entry seq must be an integer")
  let type ← effectType codec seq (Fields.get data "type" .null)
  let result ← match data.lookup "result" with
    | some found => pure found
    | none => throw (.durableReplay ("replay entry " ++ toString seq ++ " is missing result"))
  let key ← match Fields.get data "key" (.str "") with
    | .str key => pure key
    | _ => throw (.durableReplay ("replay entry " ++ toString seq ++ " key must be a string"))
  return { seq, type, result, key }

theorem fromDict_toDict (codec : Codec) (entry : ReplayLogEntry) :
    ∃ data, entry.toDict = .object data ∧ fromDict codec data = .ok entry := by
  refine ⟨_, rfl, ?_⟩
  obtain ⟨seq, type, result, key⟩ := entry
  have htype : effectType codec seq (.str type.name) = .ok type := by
    simp only [effectType, EffectType.ofName_name]
  by_cases hkey : key = ""
  · subst hkey
    simp [fromDict, Fields.get, List.lookup_cons, htype]
  · simp [fromDict, Fields.get, List.lookup_cons, htype, hkey]

end ReplayLogEntry

def entriesFrom (codec : Codec) : ℕ → List Json → Except Exn (List ReplayLogEntry)
  | _, [] => .ok []
  | expected, raw :: rest => do
    let data ← match raw with
      | .object data => pure data
      | _ => throw (.durableReplay ("replay entry " ++ toString expected ++ " must be an object"))
    let entry ← ReplayLogEntry.fromDict codec data
    if entry.seq ≠ expected then
      throw (.durableReplay ("replay sequence mismatch: expected " ++ toString expected ++
        ", got " ++ toString entry.seq))
    let tail ← entriesFrom codec (expected + 1) rest
    return entry :: tail

def decodeLog (codec : Codec) (raw : String) : Except Exn (List ReplayLogEntry) :=
  match codec.loads raw with
  | .error (.decode message) =>
    .error (.durableReplay ("checkpoint replay log is invalid JSON: " ++ message))
  | .error (.other e) => .error e
  | .ok (.array items) => entriesFrom codec 0 items
  | .ok _ => .error (.durableReplay "checkpoint replay log must be an array")

def loadReplayLog (codec : Codec) (answer : Except Exn Json) :
    Except Exn (Option (List ReplayLogEntry)) :=
  match answer with
  | .error (.api e) => if e.cls = .jobNotFound then .ok none else .error (.api e)
  | .error e => .error e
  | .ok (.object response) =>
    match Fields.get response "has_checkpoint" .null with
    | .bool false => .ok none
    | .bool true =>
      match Fields.get response "checkpoint" .null with
      | .object checkpoint =>
        match Fields.get checkpoint "metadata" .null with
        | .object «metadata» =>
          match Fields.get «metadata» "_replay_log" .null with
          | .str raw =>
            if raw = "" then .error (.durableReplay "checkpoint replay log is missing")
            else some <$> decodeLog codec raw
          | _ => .error (.durableReplay "checkpoint replay log is missing")
        | _ => .error (.durableReplay "checkpoint metadata must be an object")
      | _ => .error (.durableReplay "checkpoint payload must be an object")
    | _ => .error (.durableReplay "checkpoint response is missing has_checkpoint")
  | .ok _ => .error (.durableReplay "checkpoint response must be an object")

/-! ## A log that was stored is loaded again -/

def logJson (log : List ReplayLogEntry) : Json := .array (log.map ReplayLogEntry.toDict)

def WellNumbered (log : List ReplayLogEntry) : Prop :=
  ∀ (i : ℕ) entry, log[i]? = some entry → entry.seq = i

theorem wellNumbered_nil : WellNumbered [] := by
  intro i entry h
  simp at h

theorem wellNumbered_append_singleton {log : List ReplayLogEntry} {entry : ReplayLogEntry}
    (h : WellNumbered log) (hseq : entry.seq = log.length) : WellNumbered (log ++ [entry]) := by
  intro i found hi
  rw [List.getElem?_append] at hi
  split at hi
  · exact h i found hi
  · rename_i hlt
    obtain ⟨hz, hf⟩ := List.getElem?_eq_some_iff.mp hi
    simp only [List.length_singleton] at hz
    have hlen : i = log.length := by omega
    subst hlen
    rw [← hf]
    simpa using hseq

/-! ## Entries whose objects were changed in place -/

/-- What became of an entry: a side effect's result may have been changed in place. -/
structure ReplayLogEntry.Became (entry later : ReplayLogEntry) : Prop where
  seq : later.seq = entry.seq
  type : later.type = entry.type
  key : later.key = entry.key
  result : entry.type ≠ .call → later.result = entry.result

theorem ReplayLogEntry.Became.rfl {entry : ReplayLogEntry} : entry.Became entry :=
  ⟨.refl _, .refl _, .refl _, fun _ => .refl _⟩

theorem ReplayLogEntry.Became.trans {entry later last : ReplayLogEntry} (h : entry.Became later)
    (h' : later.Became last) : entry.Became last :=
  ⟨h'.seq.trans h.seq, h'.type.trans h.type, h'.key.trans h.key,
    fun htype => (h'.result (h.type ▸ htype)).trans (h.result htype)⟩

/-- What became of a log. -/
abbrev Became (log later : List ReplayLogEntry) : Prop :=
  List.Forall₂ ReplayLogEntry.Became log later

theorem Became.rfl {log : List ReplayLogEntry} : Became log log :=
  List.forall₂_same.mpr fun _ _ => ReplayLogEntry.Became.rfl

theorem Became.trans {log later last : List ReplayLogEntry} (h : Became log later)
    (h' : Became later last) : Became log last := by
  induction h generalizing last with
  | nil => exact h'
  | cons hentry _ ih =>
    cases h' with
    | cons hentry' hrest => exact .cons (hentry.trans hentry') (ih hrest)

theorem Became.get {log later : List ReplayLogEntry} (h : Became log later) {i : ℕ}
    {found : ReplayLogEntry} (hi : later[i]? = some found) :
    ∃ entry, log[i]? = some entry ∧ entry.Became found := by
  obtain ⟨hlt, rfl⟩ := List.getElem?_eq_some_iff.mp hi
  have hlt' : i < log.length := h.length_eq.symm ▸ hlt
  have hfound := (List.forall₂_iff_get.mp h).2 i hlt' hlt
  exact ⟨log[i], List.getElem?_eq_getElem hlt', by simpa using hfound⟩

theorem wellNumbered_of_became {log later : List ReplayLogEntry} (h : Became log later)
    (hn : WellNumbered log) : WellNumbered later := by
  intro i found hi
  obtain ⟨entry, hentry, hfound⟩ := Became.get h hi
  exact hfound.seq.trans (hn i entry hentry)

theorem entriesFrom_toDict (codec : Codec) (log : List ReplayLogEntry) (k : ℕ)
    (h : ∀ (i : ℕ) entry, log[i]? = some entry → entry.seq = k + i) :
    entriesFrom codec k (log.map ReplayLogEntry.toDict) = .ok log := by
  induction log generalizing k with
  | nil => rfl
  | cons entry rest ih =>
    obtain ⟨data, hdata, hentry⟩ := entry.fromDict_toDict codec
    have hseq : entry.seq = k := by simpa using h 0 entry rfl
    have hrest : entriesFrom codec (k + 1) (rest.map ReplayLogEntry.toDict) = .ok rest := by
      apply ih
      intro i found hi
      have := h (i + 1) found hi
      push_cast at this ⊢
      omega
    simp [entriesFrom, hdata, hentry, hseq, hrest]

/-- What it is for a log's text to be read back as it was written. -/
structure Codec.RoundTrips (codec : Codec) (log : List ReplayLogEntry) : Prop where
  loads_dumps : codec.loads (codec.dumps (logJson log)) = .ok (logJson log)
  dumps_ne_empty : codec.dumps (logJson log) ≠ ""

/-- A codec that knows the texts of finitely many values and times. -/
def Codec.ofTexts (texts : List (Json × String)) (times : List (DateTime × String)) : Codec where
  dumps value := (texts.lookup value).getD "null"
  loads text :=
    match texts.find? (fun entry => entry.2 = text) with
    | some entry => .ok entry.1
    | none => .error (.decode "Expecting value: line 1 column 1 (char 0)")
  isoformat t := (times.lookup t).getD ""
  fromIsoformat text := (times.find? (fun entry => entry.2 = text)).map Prod.fst
  repr value := value.typeName

theorem decodeLog_dumps {codec : Codec} {log : List ReplayLogEntry} (hc : codec.RoundTrips log)
    (hn : WellNumbered log) : decodeLog codec (codec.dumps (logJson log)) = .ok log := by
  simp only [decodeLog, hc.loads_dumps]
  apply entriesFrom_toDict
  intro i entry hi
  simpa using hn i entry hi

end OpenJobSpec.Durable
