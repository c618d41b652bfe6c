import OpenJobSpec.Foundation.Runs
import OpenJobSpec.Worker.SignalCustodian

/-! # Signal handlers over any sequence of calls

Custodians are installed and restored in any order. Beside the process stands
what it did on the signals before a custodian took them over.
-/
namespace OpenJobSpec
open Runs

namespace ProcessSignals
variable {s : ProcessSignals} {c loop : ℕ} {add : Signum → Except Exn Unit}

/-- No custodian was ever installed. -/
structure Fresh (s : ProcessSignals) : Prop where
  owner : s.owner = none
  custodians : ∀ c, ∃ enabled, s.custodians c = { enabled := enabled }

/-- What a custodian saves for two dispositions. -/
def saves (prior : Signum → Disposition) : List (Signum × Option Disposition) :=
  [(.sigterm, (prior .sigterm).getsignal), (.sigint, (prior .sigint).getsignal)]

/-- An installed custodian owns the handlers and has saved the prior ones. -/
structure Holds (s : ProcessSignals) (prior : Signum → Disposition) (c : ℕ) : Prop where
  owner : s.owner = some c
  loop : (s.custodians c).loop.isSome
  previous : (s.custodians c).previous = saves prior

/-- The signals that a custodian which is not installed may still have saved. -/
def Leftover (custodian : SignalCustodian) : Prop :=
  custodian.previous.map Prod.fst <+: [.sigterm, .sigint]

structure Sound (s : ProcessSignals) (prior : Signum → Disposition) : Prop where
  holds : ∀ c, (s.custodians c).installed = true → Holds s prior c
  leftover : ∀ c, Leftover (s.custodians c)

/-- At most one custodian has its handlers in place, and it is the owner. -/
def OneOwner (s : ProcessSignals) : Prop :=
  ∀ c, (s.custodians c).installed = true → s.owner = some c ∧
    ∀ c', (s.custodians c').installed = true → c' = c

theorem Sound.oneOwner {prior : Signum → Disposition} (h : Sound s prior) : OneOwner s := by
  intro c hc
  refine ⟨(h.holds c hc).owner, fun c' hc' => ?_⟩
  exact Option.some.inj ((h.holds c' hc').owner.symm.trans (h.holds c hc).owner)

theorem Fresh.sound (h : Fresh s) (prior : Signum → Disposition) : Sound s prior where
  holds c hc := by
    obtain ⟨enabled, hcustodian⟩ := h.custodians c
    rw [hcustodian] at hc
    cases hc
  leftover c := by
    obtain ⟨enabled, hcustodian⟩ := h.custodians c
    rw [hcustodian]
    exact List.nil_prefix

/-! ## What one call does -/

theorem leftover_cases {previous : List (Signum × Option Disposition)}
    (h : previous.map Prod.fst <+: [.sigterm, .sigint]) :
    previous = [] ∨ (∃ x, previous = [(.sigterm, x)]) ∨
      ∃ x y, previous = [(.sigterm, x), (.sigint, y)] := by
  rcases previous with _ | ⟨⟨signum, x⟩, _ | ⟨⟨signum', y⟩, rest⟩⟩
  · exact .inl rfl
  · obtain ⟨rfl, _⟩ := List.cons_prefix_cons.mp h
    exact .inr (.inl ⟨x, rfl⟩)
  · obtain ⟨hterm, htail⟩ := List.cons_prefix_cons.mp h
    obtain ⟨hint, hrest⟩ := List.cons_prefix_cons.mp htail
    cases hterm
    cases hint
    rw [List.map_eq_nil_iff.mp (List.prefix_nil.mp hrest)]
    exact .inr (.inr ⟨x, y, rfl⟩)

/-- Saving both handlers leaves them and no others, in order. -/
theorem setPrevious_both {previous : List (Signum × Option Disposition)}
    (h : previous.map Prod.fst <+: [.sigterm, .sigint]) (x y : Option Disposition) :
    setPrevious (setPrevious previous .sigterm x) .sigint y = [(.sigterm, x), (.sigint, y)] := by
  rcases leftover_cases h with rfl | ⟨x', rfl⟩ | ⟨x', y', rfl⟩
  · rfl
  · rfl
  · rfl

theorem setPrevious_sigterm {previous : List (Signum × Option Disposition)}
    (h : previous.map Prod.fst <+: [.sigterm, .sigint]) (x : Option Disposition) :
    (setPrevious previous .sigterm x).map Prod.fst <+: [.sigterm, .sigint] := by
  rcases leftover_cases h with rfl | ⟨x', rfl⟩ | ⟨x', y', rfl⟩
  · exact ⟨[.sigint], rfl⟩
  · exact ⟨[.sigint], rfl⟩
  · exact ⟨[], rfl⟩

theorem custodians_setCustodian (s : ProcessSignals) (c c' : ℕ) (custodian : SignalCustodian) :
    (s.setCustodian c custodian).custodians c' = if c' = c then custodian else s.custodians c' := by
  simp [setCustodian, Function.update_apply]

/-- A first registration that raises leaves the handlers as they were, and one of them saved. -/
theorem switch_of_error (s : ProcessSignals) (c loop : ℕ) {e : Exn} (h : add .sigterm = .error e)
    (hleft : ∀ c', Leftover (s.custodians c')) :
    ∃ t, switch c loop add s [.sigterm, .sigint] = (t, .error e) ∧
      t.disposition = s.disposition ∧
      (∀ c', (t.custodians c').installed = (s.custodians c').installed) ∧
      ∀ c', Leftover (t.custodians c') := by
  refine ⟨s.setCustodian c { s.custodians c with
    previous := setPrevious (s.custodians c).previous .sigterm (s.disposition .sigterm).getsignal },
    ?_, rfl, fun c' => ?_, fun c' => ?_⟩
  · rw [switch, h]
    rfl
  · rw [custodians_setCustodian]
    split
    next hcc => rw [hcc]
    next => rfl
  · rw [custodians_setCustodian]
    split
    · exact setPrevious_sigterm (hleft c) _
    · exact hleft c'

/-- Two registrations switch both handlers, after each was saved. -/
theorem switch_of_ok (s : ProcessSignals) (c loop : ℕ) (hterm : add .sigterm = .ok ())
    (hint : add .sigint = .ok ()) (hleft : Leftover (s.custodians c)) :
    ∃ t, switch c loop add s [.sigterm, .sigint] = (t, .ok ()) ∧ t.owner = s.owner ∧
      (∀ c' ≠ c, t.custodians c' = s.custodians c') ∧
      t.custodians c = { s.custodians c with previous := saves s.disposition } := by
  refine ⟨_, by rw [switch, hterm]; simp only [addSignalHandler]; rw [switch, hint]; rfl,
    ?_, ?_, ?_⟩
  · rfl
  · intro c' hc'
    simp [setCustodian, setDisposition, setRegistered, Function.update_of_ne hc']
  · simp [setCustodian, setDisposition, setRegistered, setPrevious_both hleft, saves]

theorem getsignal_ne_none {d : Disposition} (h : d.getsignal ≠ none) : d.getsignal = some d := by
  cases d with
  | foreign address => exact absurd rfl h
  | _ => rfl

theorem disposition_setDisposition (s : ProcessSignals) (signum other : Signum) (d : Disposition) :
    (s.setDisposition signum d).disposition other =
      if other = signum then d else s.disposition other := by
  simp [setDisposition, Function.update_apply]

theorem removeSignalHandler_frame (s : ProcessSignals) (loop : ℕ) (signum : Signum) :
    (s.removeSignalHandler loop signum).owner = s.owner ∧
      (s.removeSignalHandler loop signum).custodians = s.custodians ∧
      ∀ other ≠ signum,
        (s.removeSignalHandler loop signum).disposition other = s.disposition other := by
  unfold removeSignalHandler
  split
  · exact ⟨rfl, rfl, fun other h => Function.update_of_ne h _ _⟩
  · exact ⟨rfl, rfl, fun _ _ => rfl⟩

/-- Handlers that are known to Python can all be put back. -/
theorem putBack_saves {prior : Signum → Disposition}
    (h : ∀ entry ∈ saves prior, entry.2 ≠ none) (s : ProcessSignals) (loop : ℕ) :
    ∃ t, putBack loop s (saves prior) = (t, .ok ()) ∧ t.disposition = prior ∧
      t.owner = s.owner ∧ t.custodians = s.custodians := by
  have hterm := getsignal_ne_none (h _ (List.mem_cons_self ..))
  have hint := getsignal_ne_none (h _ (List.mem_cons_of_mem _ (List.mem_cons_self ..)))
  rw [saves, putBack, hterm]
  simp only [signal]
  rw [putBack, hint]
  simp only [signal]
  have hfirst := removeSignalHandler_frame s loop .sigterm
  have hsecond := removeSignalHandler_frame
    ((s.removeSignalHandler loop .sigterm).setDisposition .sigterm (prior .sigterm)) loop .sigint
  refine ⟨_, rfl, ?_, ?_, ?_⟩
  · funext signum
    cases signum with
    | sigterm =>
      rw [disposition_setDisposition, if_neg (by decide), hsecond.2.2 _ (by decide),
        disposition_setDisposition, if_pos rfl]
    | sigint => rw [disposition_setDisposition, if_pos rfl]
  · exact hsecond.1.trans hfirst.1
  · exact hsecond.2.1.trans hfirst.2.1

theorem sound_of_none {t : ProcessSignals} (prior : Signum → Disposition)
    (h : ∀ c, (t.custodians c).installed = false) (hleft : ∀ c, Leftover (t.custodians c)) :
    Sound t prior :=
  ⟨fun c hc => absurd ((h c).symm.trans hc) (by decide), hleft⟩

theorem restoreOwner_frame (s : ProcessSignals) (c : ℕ) :
    (s.restoreOwner c).disposition = s.disposition ∧
      (s.restoreOwner c).custodians = s.custodians ∧ (s.restoreOwner c).owner ≠ some c ∧
      ∀ c' ≠ c, s.owner = some c' → (s.restoreOwner c).owner = some c' := by
  unfold restoreOwner
  by_cases h : s.owner = some c
  · rw [if_pos h]
    refine ⟨rfl, rfl, nofun, fun c' hc' howner => ?_⟩
    exact absurd (Option.some.inj (howner.symm.trans h)) hc'
  · rw [if_neg h]
    exact ⟨rfl, rfl, h, fun _ _ howner => howner⟩

/-- What is left of an install that is given up: no owner, and nothing saved. -/
theorem sound_released {t : ProcessSignals} (prior : Signum → Disposition)
    (h : ∀ c', (t.custodians c').installed = false) (hleft : ∀ c', Leftover (t.custodians c'))
    (c : ℕ) :
    Sound ((t.restoreOwner c).setCustodian c
      { (t.restoreOwner c).custodians c with previous := [] }) prior := by
  obtain ⟨-, hcustodians, -⟩ := restoreOwner_frame t c
  apply sound_of_none prior
  · intro c'
    rw [custodians_setCustodian, hcustodians]
    split
    · exact h c
    · exact h c'
  · intro c'
    rw [custodians_setCustodian, hcustodians]
    split
    · exact List.nil_prefix
    · exact hleft c'

/-- An install takes effect, or leaves the handlers as they were. -/
theorem install_spec {prior : Signum → Disposition} (hs : Sound s prior) (mainThread : Bool)
    (runningLoop : Option ℕ)
    (hproper : (s.custodians c).enabled = true → mainThread = true → runningLoop.isSome →
      (s.owner = none ∨ s.owner = some c) →
      (s.custodians c).installed = false ∧ (add .sigterm = .ok () → add .sigint = .ok ())) :
    (∃ t, s.install c mainThread runningLoop add = (t, .ok true) ∧
      (s.custodians c).installed = false ∧ Sound t s.disposition) ∨
      ∃ t r, s.install c mainThread runningLoop add = (t, r) ∧ r ≠ .ok true ∧
        t.disposition = s.disposition ∧ Sound t prior := by
  unfold install
  by_cases henabled : (s.custodians c).enabled = true
  swap
  · exact .inr ⟨s, .ok false, if_pos henabled, by simp, rfl, hs⟩
  rw [if_neg (not_not.mpr henabled)]
  by_cases hmain : mainThread = true
  swap
  · exact .inr ⟨s, .ok false, if_pos hmain, by simp, rfl, hs⟩
  rw [if_neg (not_not.mpr hmain)]
  rcases runningLoop with _ | loop
  · exact .inr ⟨s, _, rfl, by simp, rfl, hs⟩
  by_cases hother : s.owner ≠ none ∧ s.owner ≠ some c
  · exact .inr ⟨s, _, if_pos hother, by simp, rfl, hs⟩
  have howner : s.owner = none ∨ s.owner = some c := by
    by_contra hno
    exact hother (not_or.mp hno)
  obtain ⟨hfree, hadd⟩ := hproper henabled hmain rfl howner
  -- nobody else has its handlers in place
  have hnone : ∀ c', (s.custodians c').installed = false := by
    intro c'
    by_contra hc'
    have hheld := (hs.holds c' (by simpa using hc')).owner
    rcases howner with howner | howner
    · rw [howner] at hheld
      cases hheld
    · cases Option.some.inj (howner.symm.trans hheld)
      rw [hfree] at hc'
      exact hc' rfl
  simp only [if_neg hother]
  rcases hterm : add .sigterm with e | ⟨⟩
  · refine .inr ?_
    obtain ⟨t, hswitch, hsame, hinstalled, hleft⟩ := switch_of_error
      { s with owner := some c } c loop hterm hs.leftover
    have hnone' : ∀ c', (t.custodians c').installed = false := fun c' =>
      (hinstalled c').trans (hnone c')
    rw [hswitch]
    by_cases hunsupported : isUnsupported e = true
    · simp only [if_pos hunsupported]
      exact ⟨_, _, rfl, by simp, (restoreOwner_frame t c).1.trans hsame,
        sound_released prior hnone' hleft c⟩
    · simp only [if_neg hunsupported]
      exact ⟨_, _, rfl, by simp, hsame, sound_of_none prior hnone' hleft⟩
  · obtain ⟨t, hswitch, htowner, hframe, hself⟩ :=
      switch_of_ok { s with owner := some c } c loop hterm (hadd hterm) (hs.leftover c)
    refine .inl ⟨_, by rw [hswitch], hfree, ⟨fun c' hc' => ?_, fun c' => ?_⟩⟩
    · rw [custodians_setCustodian] at hc'
      by_cases hcc : c' = c
      · subst hcc
        refine ⟨htowner, ?_, ?_⟩
        · rw [custodians_setCustodian, if_pos rfl]
          rfl
        · rw [custodians_setCustodian, if_pos rfl, hself]
      · rw [if_neg hcc, hframe c' hcc] at hc'
        exact absurd ((hnone c').symm.trans hc') (by decide)
    · rw [custodians_setCustodian]
      split
      · rw [hself]
        exact List.prefix_rfl
      · rename_i hcc
        rw [hframe c' hcc]
        exact hs.leftover c'

/-- A restore puts the prior handlers back, if its custodian was installed. -/
theorem restore_spec {prior : Signum → Disposition} (hs : Sound s prior)
    (hproper : (s.custodians c).installed = true →
      ∀ entry ∈ (s.custodians c).previous, entry.2 ≠ none) :
    ∃ t, s.restore c = (t, .ok ()) ∧ (t.custodians c).installed = false ∧ t.owner ≠ some c ∧
      ((s.custodians c).installed = true → t.disposition = prior) ∧
      ((s.custodians c).installed = false → t.disposition = s.disposition) ∧ Sound t prior := by
  unfold restore
  by_cases hinstalled : (s.custodians c).installed = true
  · obtain ⟨howner, hloop, hprevious⟩ := hs.holds c hinstalled
    obtain ⟨loop, hloop⟩ := Option.isSome_iff_exists.mp hloop
    have hknown := hproper hinstalled
    rw [hprevious] at hknown
    obtain ⟨t, hput, hdisposition, htowner, htcustodians⟩ := putBack_saves hknown s loop
    obtain ⟨hsame, hcustodians, hreleased, -⟩ := restoreOwner_frame
      (t.setCustodian c { enabled := (s.custodians c).enabled }) c
    -- the only installed custodian was this one
    have hnone : ∀ c', (((t.setCustodian c { enabled := (s.custodians c).enabled }).restoreOwner
        c).custodians c').installed = false := by
      intro c'
      rw [hcustodians, custodians_setCustodian, htcustodians]
      split
      next => rfl
      next hne =>
        by_contra hc'
        exact hne (hs.oneOwner c hinstalled |>.2 c' (by simpa using hc'))
    refine ⟨_, ?_, hnone c, hreleased, fun _ => hsame.trans hdisposition,
      fun hfalse => absurd (hfalse.symm.trans hinstalled) (by decide),
      sound_of_none prior hnone fun c' => ?_⟩
    · simp only [hinstalled, not_true, if_false, hloop, hprevious, hput]
    · rw [hcustodians, custodians_setCustodian, htcustodians]
      split
      · exact List.nil_prefix
      · exact hs.leftover c'
  · obtain ⟨hsame, hcustodians, hreleased, hothers⟩ := restoreOwner_frame s c
    refine ⟨s.restoreOwner c, if_pos hinstalled, by rw [hcustodians]; simpa using hinstalled,
      hreleased, fun h => absurd h hinstalled, fun _ => hsame, fun c' hc' => ?_, fun c' => ?_⟩
    · rw [hcustodians] at hc'
      obtain ⟨howner, hloop, hprevious⟩ := hs.holds c' hc'
      have hne : c' ≠ c := fun heq => hinstalled (heq ▸ hc')
      exact ⟨hothers c' hne howner, by rwa [hcustodians], by rwa [hcustodians]⟩
    · rw [hcustodians]
      exact hs.leftover c'

end ProcessSignals

/-! ## Sequences of calls -/

inductive SignalCall
  | install (c : ℕ) (mainThread : Bool) (runningLoop : Option ℕ) (add : Signum → Except Exn Unit)
  | restore (c : ℕ)

/-- The process, and what it did on the signals before the handlers of a custodian were last put in
their place. -/
structure Watched where
  signals : ProcessSignals
  prior : Signum → Disposition

namespace Watched
open ProcessSignals

def step (w : Watched) : SignalCall → Watched
  | .install c mainThread runningLoop add =>
    match w.signals.install c mainThread runningLoop add with
    | (t, .ok true) =>
      ⟨t, if (w.signals.custodians c).installed then w.prior else w.signals.disposition⟩
    | (t, _) => ⟨t, w.prior⟩
  | .restore c => ⟨(w.signals.restore c).1, w.prior⟩

def next (w : Watched) (call : SignalCall) : Option Watched := some (w.step call)

/-- An install that reaches the handlers is not one of an installed custodian, and does not fail at
the second handler when it has switched the first; a restore finds two handlers of Python. -/
def Proper (w : Watched) : SignalCall → Prop
  | .install c mainThread runningLoop add =>
    (w.signals.custodians c).enabled = true → mainThread = true → runningLoop.isSome →
      (w.signals.owner = none ∨ w.signals.owner = some c) →
      (w.signals.custodians c).installed = false ∧
        (add .sigterm = .ok () → add .sigint = .ok ())
  | .restore c => (w.signals.custodians c).installed = true →
    ∀ entry ∈ (w.signals.custodians c).previous, entry.2 ≠ none

/-- What a call must do. -/
def Respects (w : Watched) : SignalCall → Prop
  | .install c mainThread runningLoop add =>
    (w.signals.install c mainThread runningLoop add).2 ≠ .ok true →
      (w.signals.install c mainThread runningLoop add).1.disposition = w.signals.disposition
  | .restore c =>
    (w.signals.restore c).2 = .ok () ∧
      ((w.signals.restore c).1.custodians c).installed = false ∧
      (w.signals.restore c).1.owner ≠ some c ∧
      ((w.signals.custodians c).installed = true →
        (w.signals.restore c).1.disposition = w.prior) ∧
      ((w.signals.custodians c).installed = false →
        (w.signals.restore c).1.disposition = w.signals.disposition) ∧
      ∀ worker : CustodialWorker, worker.custodian = c →
        ∃ again, (worker.leave w.signals).2.1.enter = .ok again

variable {w : Watched} {calls : List SignalCall}

/-- A call keeps what is known of the custodians, and does what it must. -/
theorem step_spec (hs : Sound w.signals w.prior) {call : SignalCall} (hproper : Proper w call) :
    Sound (w.step call).signals (w.step call).prior ∧ Respects w call := by
  cases call with
  | install c mainThread runningLoop add =>
    rcases install_spec hs mainThread runningLoop hproper with
      ⟨t, ht, hfree, hsound⟩ | ⟨t, r, ht, hr, hsame, hsound⟩
    · refine ⟨?_, fun hne => absurd (congrArg Prod.snd ht) hne⟩
      simp only [step, ht, hfree]
      exact hsound
    · refine ⟨?_, fun _ => (congrArg (·.1.disposition) ht).trans hsame⟩
      simp only [step, ht]
      exact hsound
  | restore c =>
    obtain ⟨t, ht, hfree, hreleased, hback, hsame, hsound⟩ := restore_spec hs hproper
    refine ⟨?_, ?_⟩
    · simp only [step, ht]
      exact hsound
    · simp only [Respects, ht]
      refine ⟨trivial, hfree, hreleased, hback, hsame, fun worker hc => ?_⟩
      subst hc
      exact ⟨{ worker with running := true }, by simp [CustodialWorker.leave, ht,
        CustodialWorker.enter]⟩

theorem sound_of_next {w' : Watched} {call : SignalCall} (hproper : Proper w call)
    (hs : Sound w.signals w.prior) (hn : w.next call = some w') : Sound w'.signals w'.prior := by
  cases hn
  exact (step_spec hs hproper).1

/-- From a process without custodians, calls that are proper keep one owner at most, and each does
what it must. -/
theorem signal_ownership_kept {s : ProcessSignals} (hs : Fresh s) (prior : Signum → Disposition)
    (hproper : Along Proper next ⟨s, prior⟩ calls) :
    (∀ reached, reached <+: calls → OneOwner (run next ⟨s, prior⟩ reached).signals) ∧
      Along Respects next ⟨s, prior⟩ calls := by
  have hstep : ∀ (w : Watched) call w', Proper w call → Sound w.signals w.prior →
      next w call = some w' → Sound w'.signals w'.prior := fun _ _ _ => sound_of_next
  refine ⟨fun reached hreached => ?_, ?_⟩
  · have hreach := hproper.of_prefix hreached
    exact (run_invariant_along (fun w => Sound w.signals w.prior) hstep hreach
      (hs.sound prior)).oneOwner
  · exact hproper.imp (fun w => Sound w.signals w.prior) hstep
      (fun _ _ hc hsound => (step_spec hsound hc).2) (hs.sound prior)

/-- A process with enabled custodians, none of them ever installed. -/
def unowned (disposition : Signum → Disposition) : Watched where
  signals :=
    { disposition := disposition, registered := fun _ _ => false, owner := none,
      custodians := fun _ => { enabled := true } }
  prior := disposition

/-- An install of the first custodian in the main thread. -/
def installFirst (add : Signum → Except Exn Unit) : SignalCall := .install 0 true (some 0) add

theorem signal_ownership_kept_once :
    (∀ reached, reached <+: [installFirst fun _ => .ok (), .restore 0] →
      OneOwner (run next (unowned fun _ => .sigDfl) reached).signals) ∧
      Along Respects next (unowned fun _ => .sigDfl) [installFirst fun _ => .ok (), .restore 0] :=
  signal_ownership_kept ⟨rfl, fun _ => ⟨true, rfl⟩⟩ _
    ⟨fun _ _ _ _ => ⟨rfl, fun _ => rfl⟩, fun _ => by decide, trivial⟩

/-- The second registration fails. -/
def failsAtSigint : Signum → Except Exn Unit
  | .sigterm => .ok ()
  | .sigint => .error (.builtin .runtimeError "sigint")

/-- Three runs lose the prior handlers: one that finds a handler from outside of Python, one whose
second registration fails, and one that installs a custodian twice. -/
theorem prior_handlers_lost :
    ¬ Along Respects next (unowned fun _ => .foreign 0)
        [installFirst fun _ => .ok (), .restore 0] ∧
      ¬ Along Respects next (unowned fun _ => .sigDfl) [installFirst failsAtSigint] ∧
      ¬ Along Respects next (unowned fun _ => .sigDfl)
        [installFirst fun _ => .ok (), installFirst fun _ => .ok (), .restore 0] := by
  refine ⟨?_, ?_, ?_⟩
  · rintro ⟨-, ⟨hok, -⟩, -⟩
    -- None is no handler
    have hraises : ((run next (unowned fun _ => .foreign 0)
        [installFirst fun _ => .ok ()]).signals.restore 0).2 = .error (.builtin .typeError
          "signal handler must be signal.SIG_IGN, signal.SIG_DFL, or a callable object") := rfl
    cases hraises.symm.trans hok
  · rintro ⟨hinstall, -⟩
    -- the handler of the first signal stays switched
    have hswitched : ((unowned fun _ => .sigDfl).signals.install 0 true (some 0)
        failsAtSigint).1.disposition .sigterm = .python .sighandlerNoop := rfl
    cases hswitched.symm.trans (congrFun (hinstall fun h => by cases h) _)
  · rintro ⟨-, -, ⟨-, -, -, hback, -⟩, -⟩
    -- the second install has saved the handler that the first one has set
    have hlost : ((run next (unowned fun _ => .sigDfl) [installFirst fun _ => .ok (),
        installFirst fun _ => .ok ()]).signals.restore 0).1.disposition .sigterm =
          .python .sighandlerNoop := rfl
    cases hlost.symm.trans (congrFun (hback rfl) .sigterm)

end Watched

end OpenJobSpec
