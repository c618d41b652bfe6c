import OpenJobSpec.Durable.Program
import Mathlib.Data.List.DropRight
import Mathlib.Data.List.Forall2

/-! # Paths of a program and the logs that record them

A path is what a program performed, with the replies it got. Its recorded events
are the effects that returned, in order, one for each entry of the log. A side
effect whose function raised is on the path but not in the log.
-/
namespace OpenJobSpec.Durable

def Event.isRaised (event : Event) : Prop := ∃ e, event.reply = .raised e

def Event.effectful (event : Event) : Bool := event.effect.kind.isSome

def Event.recorded (event : Event) : Bool :=
  event.effectful && match event.reply with
    | .value _ => true
    | .raised _ => false

theorem Event.recorded_iff {event : Event} :
    event.recorded = true ↔ event.effectful = true ∧ ¬ event.isRaised := by
  obtain ⟨effect, reply⟩ := event
  cases reply <;> simp [Event.recorded, Event.isRaised]

/-- Each event is what the program does next after the replies before it. -/
structure PathOf (program : Program) (path : List Event) : Prop where
  step : ∀ before event after, path = before ++ event :: after →
    program (before.map Event.reply) = some event.effect
  checkpoint : ∀ event ∈ path, event.effect.kind = none → event.reply = .value .done

structure Records (codec : Codec) (path : List Event) (log : List ReplayLogEntry) : Prop where
  entries : List.Forall₂ (RecordedAs codec) (path.filter Event.recorded) log
  numbered : WellNumbered log

def recordedPath (path : List Event) : List Event := path.rdropWhile (fun event => !event.recorded)

variable {codec : Codec} {program : Program} {path : List Event} {log : List ReplayLogEntry}
  {event : Event}

theorem RecordedAs.recorded {entry : ReplayLogEntry} (h : RecordedAs codec event entry) :
    event.recorded = true := by
  obtain ⟨type, key, v, hk, _, hr, _⟩ := h
  simp [Event.recorded, Event.effectful, hk, hr]

theorem PathOf.nil : PathOf program [] := by
  constructor
  · intro before event after h
    simp at h
  · intro event h
    simp at h

theorem PathOf.prefix_of {shorter : List Event} (h : PathOf program path)
    (hp : shorter <+: path) : PathOf program shorter := by
  obtain ⟨rest, rfl⟩ := hp
  constructor
  · intro before event after hb
    apply h.step before event (after ++ rest)
    rw [hb, List.append_assoc, List.cons_append]
  · intro event he
    exact h.checkpoint event (List.mem_append_left rest he)

theorem PathOf.concat (h : PathOf program path)
    (hstep : program (path.map Event.reply) = some event.effect)
    (hcheckpoint : event.effect.kind = none → event.reply = .value .done) :
    PathOf program (path ++ [event]) := by
  constructor
  · intro before found after hb
    rcases List.eq_nil_or_concat after with rfl | ⟨init, last, rfl⟩
    · obtain ⟨rfl, hlast⟩ := List.append_inj' hb rfl
      cases hlast
      exact hstep
    · rw [List.concat_eq_append, ← List.cons_append, ← List.append_assoc] at hb
      obtain ⟨hinit, _⟩ := List.append_inj' hb rfl
      exact h.step before found init hinit
  · intro found hmem hk
    rcases List.mem_append.mp hmem with hpath | hlast
    · exact h.checkpoint found hpath hk
    · rw [List.mem_singleton.mp hlast] at hk ⊢
      exact hcheckpoint hk

theorem Records.nil : Records codec [] [] := ⟨List.Forall₂.nil, wellNumbered_nil⟩

theorem Records.length_eq (h : Records codec path log) :
    (path.filter Event.recorded).length = log.length :=
  h.entries.length_eq

theorem Records.concat_unrecorded (h : Records codec path log) (he : event.recorded = false) :
    Records codec (path ++ [event]) log := by
  refine ⟨?_, h.numbered⟩
  simpa [List.filter_append, he] using h.entries

theorem Records.concat_recorded {entry : ReplayLogEntry} (h : Records codec path log)
    (he : RecordedAs codec event entry) (hseq : entry.seq = log.length) :
    Records codec (path ++ [event]) (log ++ [entry]) := by
  refine ⟨?_, wellNumbered_append_singleton h.numbered hseq⟩
  rw [List.filter_append, List.filter_singleton, he.recorded]
  exact List.rel_append h.entries (List.Forall₂.cons he List.Forall₂.nil)

theorem Records.entryValue (h : Records codec path log) {entry : ReplayLogEntry}
    (he : entry ∈ log) : ∃ v, codec.entryValue entry = some v := by
  obtain ⟨i, hi, rfl⟩ := List.getElem_of_mem he
  have hlen := h.length_eq
  have hget := (List.forall₂_iff_get.mp h.entries).2 i (by omega) hi
  obtain ⟨_, _, v, _, _, _, hv⟩ := hget
  exact ⟨v, by simpa using hv⟩

theorem Records.entry_at {before after : List Event}
    (h : Records codec (before ++ event :: after) log) (he : event.recorded = true) :
    ∃ entry, log[(before.filter Event.recorded).length]? = some entry ∧
      RecordedAs codec event entry := by
  have hentries := h.entries
  rw [List.filter_append, List.filter_cons_of_pos he] at hentries
  have hlen := hentries.length_eq
  rw [List.length_append, List.length_cons] at hlen
  have hlt : (before.filter Event.recorded).length < log.length := by omega
  refine ⟨log[(before.filter Event.recorded).length], List.getElem?_eq_getElem hlt, ?_⟩
  have hget := (List.forall₂_iff_get.mp hentries).2 (before.filter Event.recorded).length
    (by simp) hlt
  simpa using hget

theorem recordedPath_initial (path : List Event) : recordedPath path <+: path :=
  List.rdropWhile_prefix _ path

theorem recordedPath_filter (path : List Event) :
    (recordedPath path).filter Event.recorded = path.filter Event.recorded := by
  induction path using List.reverseRecOn with
  | nil => rfl
  | append_singleton init event ih =>
    by_cases he : event.recorded = true
    · rw [recordedPath, List.rdropWhile_concat_neg _ _ _ (by simp [he])]
    · have hnone : [event].filter Event.recorded = [] := by simp [he]
      rw [recordedPath, List.rdropWhile_concat_pos _ _ _ (by simp [he]), List.filter_append,
        hnone, List.append_nil]
      exact ih

theorem Records.recordedPath (h : Records codec path log) :
    Records codec (recordedPath path) log :=
  ⟨by rw [recordedPath_filter]; exact h.entries, h.numbered⟩

/-- Nothing follows the last recorded event of a recorded path. -/
theorem recordedPath_tail {before after : List Event}
    (h : Durable.recordedPath path = before ++ after)
    (ha : after.filter Event.recorded = []) : after = [] := by
  by_contra hne
  have hpath : Durable.recordedPath path ≠ [] := by
    rw [h]
    simp [hne]
  have hlast := List.rdropWhile_last_not _ path hpath
  have hmem : (Durable.recordedPath path).getLast hpath ∈ after := by
    simp only [h, List.getLast_append_of_ne_nil _ hne]
    exact List.getLast_mem hne
  have hnot := List.filter_eq_nil_iff.mp ha _ hmem
  rw [Bool.not_eq_true] at hnot
  exact hlast (by rw [Bool.not_eq_true']; exact hnot)

end OpenJobSpec.Durable
