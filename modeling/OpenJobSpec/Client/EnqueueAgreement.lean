import OpenJobSpec.Client.SingleBatch

/-! # A single enqueue and a batch of one end alike

The step by step relation carries over to whole runs. What keeps the two ends
apart is a chain that ends in `None` after its request was pushed: the batch
leaves such an item out, and the single enqueue raises.
-/
namespace OpenJobSpec.Client
open Simulation Execution

variable {W : Type}

/-! ## Whole runs -/

section Runs
variable {middlewares : List (EnqueueMiddleware W)} {push : JobRequest → Job} {r : JobRequest}

/-- The single enqueue has come to this state in some run. -/
def Reached (middlewares : List (EnqueueMiddleware W)) (push : JobRequest → Job) (r : JobRequest)
    (t : EnqueueRun W) : Prop :=
  ∃ worlds, (enqueueSystem middlewares push).Reaches { request := r } worlds t

theorem Reached.endsPushed {t : EnqueueRun W} (h : Reached middlewares push r t) (reply : Reply)
    (hphase : t.phase = .executing (.replying reply [])) (hpushes : t.pushes ≠ []) :
    EndsPushed middlewares push r reply := by
  obtain ⟨worlds, hreach⟩ := h
  exact ⟨worlds, t, hreach, hphase, hpushes⟩

theorem Reached.step {t t' : EnqueueRun W} {world : W} (h : Reached middlewares push r t)
    (ht : t.next middlewares (fun request => .ok (push request)) world = some t') :
    Reached middlewares push r t' := by
  obtain ⟨worlds, hreach⟩ := h
  exact ⟨worlds ++ [world], hreach.visible ht⟩

theorem batch_simulated (hm : ∀ m ∈ middlewares, Disciplined m) :
    Simulates (batchSystem middlewares push) (enqueueSystem middlewares push) fun s t =>
      Related push r (EndsPushed middlewares push r) s t ∧ Reached middlewares push r t where
  visible := by
    rintro s t world s' ⟨hrel, hreach⟩ ⟨i, hstep⟩
    have hready := hrel.ready_of_step hstep
    obtain ⟨s'', t', hs, ht, hrel'⟩ | ⟨hnone, _⟩ := hready.together hm hreach.endsPushed
    · obtain ⟨_, rfl⟩ := (hs i s').mp hstep
      exact ⟨t', System.reaches_visible ht, hrel', hreach.step ht⟩
    · cases (hnone i).symm.trans hstep
  silent := by
    rintro s t s' ⟨hrel, hreach⟩ hstep
    exact ⟨t, .refl, hrel.silent hstep, hreach⟩

theorem enqueue_simulated (hm : ∀ m ∈ middlewares, Disciplined m) :
    Simulates (enqueueSystem middlewares push) (batchSystem middlewares push) fun t s =>
      Ready push r (EndsPushed middlewares push r) s t ∧ Reached middlewares push r t where
  visible := by
    rintro t s world t' ⟨hready, hreach⟩ hstep
    obtain ⟨s', t'', hs, ht, hrel⟩ | ⟨_, hnone⟩ := hready.together hm hreach.endsPushed
    · cases ht.symm.trans hstep
      have hfirst : (batchSystem middlewares push).Reaches s [world] s' :=
        System.reaches_visible ⟨0, (hs 0 s').mpr ⟨rfl, rfl⟩⟩
      obtain ⟨s'', hs'', hready'⟩ : ∃ s'', (batchSystem middlewares push).Reaches s' [] s'' ∧
          Ready push r (EndsPushed middlewares push r) s'' t' := hrel.advance
      exact ⟨s'', hfirst.append_silent hs'', hready', hreach.step ht⟩
    · cases hnone.symm.trans hstep
  silent := by
    rintro t s t' _ hstep
    cases hstep

/-! ## How the runs end -/

theorem Ready.pushes_eq {ends : Reply → Prop} {s : BatchRun W} {t : EnqueueRun W}
    (h : Ready push r ends s t) : s.pushes.flatten = t.pushes := by
  cases h with
  | created | unsent | answered | sent => rfl
  | unsentEnded _ _ hpushes => rw [hpushes]; rfl
  | sentEnded _ _ _ hpushes => rw [hpushes]; rfl

theorem Related.mem_pushes {ends : Reply → Prop} {s : BatchRun W} {t : EnqueueRun W}
    (h : Related push r ends s t) {b : JobRequest} (hb : b ∈ s.pushes.flatten) : b ∈ t.pushes := by
  cases h with
  | ready h => exact h.pushes_eq ▸ hb
  | waiting => cases hb
  | pushing | sentSettled | unsentSettled | replaced | failing => exact hb

/-- Both runs end, after the same reply of the chain. -/
structure Ended (s : BatchRun W) (t : EnqueueRun W) (reply : Reply) : Prop where
  uncancelled : reply ≠ .error .cancelled
  single : t.phase = EnqueueRun.ended reply
  batch : s.phase = unsentEnd reply

theorem sentEnd_eq {reply : Reply} (h : reply ≠ .ok none) (hc : reply ≠ .error .cancelled) :
    sentEnd reply = unsentEnd reply := by
  rcases reply with (_ | _) | (_ | _)
  · rfl
  · exact absurd rfl hc
  · exact absurd rfl h
  · rfl

theorem Ready.ended_of_single {ends : Reply → Prop} {s : BatchRun W} {t : EnqueueRun W}
    (h : Ready push r ends s t) (hd : ¬ ends (.ok none))
    (hend : (∃ job, t.phase = .returned job) ∨ ∃ raised, t.phase = .raised raised) :
    ∃ reply, Ended s t reply := by
  cases h with
  | created | unsent | answered | sent => simp at hend
  | @unsentEnded _ reply hreply hphase => exact ⟨reply, hreply, rfl, hphase⟩
  | @sentEnded _ _ reply hreply hnone hphase =>
    refine ⟨reply, hreply, rfl, hphase.trans (sentEnd_eq (fun h => hd (h ▸ hnone)) hreply)⟩

theorem Related.ended_of_batch {ends : Reply → Prop} {s : BatchRun W} {t : EnqueueRun W}
    (h : Related push r ends s t) (hd : ¬ ends (.ok none))
    (hend : (∃ jobs, s.phase = .returned jobs) ∨ ∃ raised, s.phase = .raised raised) :
    s.pushes.flatten = t.pushes ∧ ∃ reply, Ended s t reply := by
  cases h with
  | waiting | pushing | sentSettled | unsentSettled | replaced | failing => simp at hend
  | ready h =>
    refine ⟨h.pushes_eq, ?_⟩
    cases h with
    | created | unsent | answered | sent => simp at hend
    | @unsentEnded _ reply hreply hphase => exact ⟨reply, hreply, rfl, hphase⟩
    | @sentEnded _ _ reply hreply hnone hphase =>
      refine ⟨reply, hreply, rfl, hphase.trans (sentEnd_eq (fun h => hd (h ▸ hnone)) hreply)⟩

theorem Ended.returned_iff {s : BatchRun W} {t : EnqueueRun W} {reply : Reply}
    (h : Ended s t reply) (job : Job) : t.phase = .returned job ↔ s.phase = .returned [job] := by
  rw [h.single, h.batch]
  rcases reply with (_ | _) | (_ | _) <;> simp [EnqueueRun.ended, unsentEnd]

theorem Ended.raised_iff {s : BatchRun W} {t : EnqueueRun W} {reply : Reply}
    (h : Ended s t reply) (cls : String) :
    (∃ e, t.phase = .raised (.exception e) ∧ e.className = cls) ↔
      ∃ e, s.phase = .raised (.exception e) ∧ e.className = cls := by
  rw [h.single, h.batch]
  have hreply := h.uncancelled
  rcases reply with (_ | _) | (_ | _)
  · simp [EnqueueRun.ended, unsentEnd]
  · exact absurd rfl hreply
  · simp [EnqueueRun.ended, unsentEnd, EnqueueRun.rejectedRequest, BatchRun.rejectedItem,
      Exn.className]
  · simp [EnqueueRun.ended, unsentEnd]

theorem Ended.clean {s : BatchRun W} {t : EnqueueRun W} {reply : Reply} (h : Ended s t reply) :
    (∀ jobs, s.phase = .returned jobs → ∃ job, jobs = [job]) ∧ s.phase ≠ .raised .cancelled := by
  rw [h.batch]
  have hreply := h.uncancelled
  rcases reply with (_ | _) | (_ | job)
  · simp [unsentEnd]
  · exact absurd rfl hreply
  · simp [unsentEnd]
  · refine ⟨fun jobs hjobs => ⟨job, ?_⟩, by simp [unsentEnd]⟩
    cases hjobs
    rfl

end Runs

section Agreement
variable (middlewares : List (EnqueueMiddleware W)) (push : JobRequest → Job) (r : JobRequest)
  (worlds : List W)

/-- After these observations `enqueue(r)` has pushed `sent` and returned the job. -/
def EnqueueReturns (sent : List JobRequest) (job : Job) : Prop :=
  ∃ t, (enqueueSystem middlewares push).Reaches { request := r } worlds t ∧
    t.pushes = sent ∧ t.phase = .returned job

def EnqueueRaises (sent : List JobRequest) (cls : String) : Prop :=
  ∃ t, (enqueueSystem middlewares push).Reaches { request := r } worlds t ∧
    t.pushes = sent ∧ ∃ e, t.phase = .raised (.exception e) ∧ e.className = cls

/-- After these observations `enqueue_batch([r])` has pushed `sent` and returned the jobs. -/
def BatchReturns (sent : List JobRequest) (jobs : List Job) : Prop :=
  ∃ s, (batchSystem middlewares push).Reaches (BatchRun.start [r]) worlds s ∧
    s.pushes.flatten = sent ∧ s.phase = .returned jobs

def BatchRaises (sent : List JobRequest) (cls : String) : Prop :=
  ∃ s, (batchSystem middlewares push).Reaches (BatchRun.start [r]) worlds s ∧
    s.pushes.flatten = sent ∧ ∃ e, s.phase = .raised (.exception e) ∧ e.className = cls

end Agreement

/-- What a single enqueue and a batch of the one request have in common. -/
structure Agreement (middlewares : List (EnqueueMiddleware W)) (push : JobRequest → Job)
    (r : JobRequest) : Prop where
  sends : ∀ worlds b,
    (∃ t, (enqueueSystem middlewares push).Reaches { request := r } worlds t ∧ b ∈ t.pushes) ↔
      ∃ s, (batchSystem middlewares push).Reaches (BatchRun.start [r]) worlds s ∧
        b ∈ s.pushes.flatten
  returns : ∀ worlds sent job, EnqueueReturns middlewares push r worlds sent job ↔
    BatchReturns middlewares push r worlds sent [job]
  raises : ∀ worlds sent cls, EnqueueRaises middlewares push r worlds sent cls ↔
    BatchRaises middlewares push r worlds sent cls
  clean : ∀ worlds s, (batchSystem middlewares push).Reaches (BatchRun.start [r]) worlds s →
    (∀ jobs, s.phase = .returned jobs → ∃ job, jobs = [job]) ∧ s.phase ≠ .raised .cancelled

/-- No call of `next` has ended in `None`. -/
def Fruitful (history : List (Observation W)) : Prop :=
  ∀ world, .replied (.ok none) world ∉ history

/-- The middleware makes a `None` of nothing that `next` returned or raised. -/
def Keeps (middleware : EnqueueMiddleware W) : Prop :=
  ∀ {request history}, middleware.Lives request history → HasReply history → Fruitful history →
    middleware request history ≠ .finish (.ok none)

/-- A chain on its way back from a push, with nothing lost on the way. -/
inductive Execution.Bearing : Execution W → Prop
  | acting {frame : Frame W} {callers : List (Frame W)} :
      HasReply frame.history → Fruitful frame.history → Bearing (.acting frame callers)
  | waiting {frame : Frame W} {callers : List (Frame W)} :
      HasReply frame.history → Fruitful frame.history → Bearing (.waiting frame callers)
  | replying {reply : Reply} {callers : List (Frame W)} :
      reply ≠ .ok none → Bearing (.replying reply callers)

def Faithful (middleware : EnqueueMiddleware W) : Prop :=
  Disciplined middleware ∧ Keeps middleware

theorem Fruitful.append {history : List (Observation W)} (h : Fruitful history)
    {observation : Observation W} (ho : ∀ world, observation ≠ .replied (.ok none) world) :
    Fruitful (history ++ [observation]) := by
  intro world hmem
  rcases List.mem_append.mp hmem with hold | hnew
  · exact h world hold
  · exact ho world (List.mem_singleton.mp hnew).symm

/-- A disciplined middleware that has just called `next` had no reply before. -/
theorem Frame.Suspended.fruitful {frame : Frame W} (h : frame.Suspended Faithful) :
    Fruitful frame.history := by
  intro world hmem
  obtain ⟨candidate, hcall⟩ := h.called
  exact h.keeps.1.once h.lives ⟨_, world, hmem⟩ candidate hcall

theorem Execution.Bearing.proceed {world : W} {e e' : Execution W} (hb : e.Bearing)
    (h : e.Valid Faithful) (hs : e.proceed world = some e') : e'.Bearing := by
  cases hb with
  | @acting frame callers hreply hfruit =>
    cases h with
    | acting hf hc =>
      unfold Execution.proceed at hs
      dsimp only at hs
      split at hs
      next candidate hcall => exact absurd hcall (hf.keeps.1.once hf.lives hreply candidate)
      next =>
        cases hs
        exact .waiting hreply hfruit
      next reply hfinish =>
        cases hs
        refine .replying fun hnone => ?_
        exact hf.keeps.2 hf.lives hreply hfruit (hfinish.trans (congrArg Action.finish hnone))
  | waiting hreply hfruit =>
    cases hs
    exact .acting (hreply.append _) (hfruit.append (by simp))
  | @replying reply callers hnone =>
    cases h with
    | replying _ hc =>
      cases callers with
      | nil => cases hs
      | cons frame callers =>
        cases hs
        have hf := (hc frame List.mem_cons_self).fruitful
        refine .acting (hasReply_replied frame.history reply world) (hf.append ?_)
        rintro world' heq
        cases heq
        exact hnone rfl

/-- Where a run of faithful middlewares stands. -/
inductive EnqueueRun.Kept : EnqueueRun W → Prop
  | created (request : JobRequest) : Kept { request }
  | unsent {request : JobRequest} {e : Execution W} : e.Valid Faithful →
      Kept ⟨request, .executing e, []⟩
  | pushing {request b : JobRequest} {callers : List (Frame W)} {pushes : List JobRequest} :
      (∀ frame ∈ callers, frame.Suspended Faithful) → Kept ⟨request, .pushing b callers, pushes⟩
  | sent {request : JobRequest} {e : Execution W} {pushes : List JobRequest} :
      e.Valid Faithful → e.Bearing → Kept ⟨request, .executing e, pushes⟩
  | ended {request : JobRequest} {reply : Reply} {pushes : List JobRequest} :
      Kept ⟨request, ended reply, pushes⟩

section Kept
variable {middlewares : List (EnqueueMiddleware W)} {push : JobRequest → Job}

theorem EnqueueRun.Kept.next {world : W} (hm : ∀ m ∈ middlewares, Faithful m)
    {t t' : EnqueueRun W} (h : t.Kept)
    (hs : t.next middlewares (fun request => .ok (push request)) world = some t') : t'.Kept := by
  cases h with
  | created request =>
    simp only [EnqueueRun.next] at hs
    split at hs
    next e _ =>
      cases hs
      exact @EnqueueRun.Kept.ended W request (.error (.exception e)) []
    next =>
      cases hs
      exact .unsent (.building hm (by simp))
  | @unsent request e hvalid =>
    obtain ⟨candidate, callers, rfl⟩ | ⟨reply, rfl, _⟩ | ⟨e', hstep, _, hrun⟩ :=
      @Execution.Valid.step_cases W middlewares push Faithful e hvalid world
    · have hcallers : ∀ frame ∈ callers, frame.Suspended Faithful := by
        cases hvalid
        assumption
      simp only [EnqueueRun.next, EnqueueRun.dispatch] at hs
      split at hs
      next e _ =>
        cases hs
        exact .unsent (.replying (by simp) hcallers)
      next =>
        cases hs
        exact .pushing hcallers
    · cases hs
      exact .ended
    · cases (hrun _ rfl).symm.trans hs
      exact .unsent (hvalid.proceed (fun _ => And.left) hstep)
  | pushing hcallers =>
    cases hs
    exact .sent (.replying (by simp [Except.map]) hcallers) (.replying (by simp [Except.map]))
  | @sent request e pushes hvalid hbearing =>
    obtain ⟨candidate, callers, rfl⟩ | ⟨reply, rfl, _⟩ | ⟨e', hstep, _, hrun⟩ :=
      @Execution.Valid.step_cases W middlewares push Faithful e hvalid world
    · cases hbearing
    · cases hs
      exact .ended
    · cases (hrun _ rfl).symm.trans hs
      exact .sent (hvalid.proceed (fun _ => And.left) hstep) (hbearing.proceed hvalid hstep)
  | ended => cases next_of_ended.symm.trans hs

/-- Middlewares that return `None` only where `next` did, or without calling it, drop nothing. -/
theorem not_drops {r : JobRequest} (hm : ∀ m ∈ middlewares, Faithful m) :
    ¬ Drops middlewares push r := by
  rintro ⟨worlds, t, hreach, hphase, hpushes⟩
  have hkept : t.Kept := hreach.invariant EnqueueRun.Kept (.created r)
    (fun hkept hstep => hkept.next hm hstep) (fun _ hstep => False.elim hstep)
  cases hkept with
  | created | pushing => cases hphase
  | unsent => exact hpushes rfl
  | sent _ hbearing =>
    cases hphase
    cases hbearing with
    | replying hnone => exact hnone rfl
  | @ended _ reply => rcases reply with (_ | _) | (_ | _) <;> cases hphase

end Kept

/-! ## Middlewares around one call -/

/-- The middleware that calls `next` once and maps what comes of it. -/
def around (before : JobRequest → JobRequest) (after : Reply → Reply) : EnqueueMiddleware W :=
  fun request history =>
    match history with
    | [_] => .callNext (before request)
    | _ :: .replied reply _ :: _ => .finish (after reply)
    | _ => .wait

section Around
variable {before : JobRequest → JobRequest} {after : Reply → Reply} {request : JobRequest}
  {history : List (Observation W)}

theorem lives_around (h : (around before after).Lives request history) :
    (∃ world, history = [.entered world]) ∨
      ∃ world reply world', history = [.entered world, .replied reply world'] ∧
        reply ≠ .error .cancelled := by
  induction h with
  | entered world => exact .inl ⟨world, rfl⟩
  | woken _ _ hwait ih =>
    obtain ⟨w, rfl⟩ | ⟨w, reply, w', rfl, _⟩ := ih <;> cases hwait
  | replied reply world hreply _ hcall ih =>
    obtain ⟨w, rfl⟩ | ⟨w, _, w', rfl, _⟩ := ih
    · exact .inr ⟨w, reply, world, rfl, hreply⟩
    · cases hcall

theorem disciplined_around
    (hafter : ∀ reply, reply ≠ .error .cancelled → after reply ≠ .error .cancelled) :
    Disciplined (around before after : EnqueueMiddleware W) where
  once := by
    intro request history h hreply candidate
    obtain ⟨w, rfl⟩ | ⟨w, reply, w', rfl, _⟩ := lives_around h
    · obtain ⟨reply, world, hmem⟩ := hreply
      simp at hmem
    · simp [around]
  exceptions := by
    intro request history h
    obtain ⟨w, rfl⟩ | ⟨w, reply, w', rfl, hreply⟩ := lives_around h
    · simp [around]
    · simpa [around] using hafter reply hreply

theorem keeps_around (hafter : ∀ reply, reply ≠ .ok none → after reply ≠ .ok none) :
    Keeps (around before after : EnqueueMiddleware W) := by
  intro request history h hreply hfruit
  obtain ⟨w, rfl⟩ | ⟨w, reply, w', rfl, _⟩ := lives_around h
  · simp [around]
  · have hnone : reply ≠ .ok none := by
      rintro rfl
      exact hfruit w' (by simp)
    simpa [around] using hafter reply hnone

end Around

def retagged (request : JobRequest) : JobRequest := { request with queue := "high" }

def emailRequest : JobRequest := { type := "mail", queue := "out" }

def pushedJob (request : JobRequest) : Job :=
  { id := "job-1", type := request.type, state := .available, queue := request.queue }

/-- `except Exception: return None` around `next`. -/
def swallowed : Reply → Reply
  | .error (.exception _) => .ok none
  | reply => reply

/-- What fails after `next` returned. -/
def failed (_ : Reply) : Reply := .error (.exception (.builtin .runtimeError "audit failed"))

def dropping : List (EnqueueMiddleware Unit) := [around id swallowed, around id failed]

def dropState (n : ℕ) : EnqueueRun Unit :=
  (fun s => (s.next dropping (fun request => .ok (pushedJob request)) ()).getD s)^[n]
    { request := emailRequest }

/-- The chain has ended with something else than `None`. -/
def endsOtherwise : EnqueuePhase Unit → Bool
  | .executing (.replying (.ok none) []) => false
  | .executing (.replying _ []) => true
  | _ => false

theorem dropState_ends : ∀ n < 13, endsOtherwise (dropState n).phase = false := by
  decide +kernel

theorem dropState_steps : ∀ n < 13, ((dropState n).next dropping
    (fun request => .ok (pushedJob request)) ()).isSome = decide (n < 12) := by
  decide +kernel

theorem dropState_next {n : ℕ} (h : n < 12) :
    (dropState n).next dropping (fun request => .ok (pushedJob request)) () =
      some (dropState (n + 1)) := by
  have hsome := dropState_steps n (by omega)
  rw [decide_eq_true h] at hsome
  obtain ⟨t, ht⟩ := Option.isSome_iff_exists.mp hsome
  have hsucc : dropState (n + 1) = ((dropState n).next dropping
      (fun request => .ok (pushedJob request)) ()).getD (dropState n) :=
    Function.iterate_succ_apply' _ _ _
  rw [hsucc, ht, Option.getD_some]

theorem reached_dropState {worlds : List Unit} {t : EnqueueRun Unit}
    (h : (enqueueSystem dropping pushedJob).Reaches { request := emailRequest } worlds t) :
    worlds.length < 13 ∧ t = dropState worlds.length := by
  induction h with
  | refl => exact ⟨by simp, rfl⟩
  | @visible labels label _ u _ hstep ih =>
    obtain ⟨hlen, rfl⟩ := ih
    rw [List.length_append, List.length_singleton]
    have hstep' : (dropState labels.length).next dropping
        (fun request => .ok (pushedJob request)) () = some u := hstep
    have hlt : labels.length < 12 := by
      have hsome := dropState_steps _ hlen
      rw [hstep', Option.isSome_some] at hsome
      exact of_decide_eq_true hsome.symm
    rw [dropState_next hlt] at hstep'
    exact ⟨by omega, (Option.some_inj.mp hstep').symm⟩
  | silent _ hstep => exact False.elim hstep

theorem reaches_dropState {n : ℕ} (h : n < 13) :
    (enqueueSystem dropping pushedJob).Reaches { request := emailRequest }
      (List.replicate n ()) (dropState n) := by
  induction n with
  | zero => exact .refl
  | succ n ih =>
    rw [List.replicate_succ']
    exact (ih (by omega)).visible (dropState_next (by omega))

/-- The outer middleware swallows what the inner one raises, so the chain ends in `None`. -/
theorem dropping_ends {reply : Reply} (h : EndsPushed dropping pushedJob emailRequest reply) :
    reply = .ok none := by
  obtain ⟨worlds, t, hreach, hphase, _⟩ := h
  obtain ⟨hlen, rfl⟩ := reached_dropState hreach
  have hends := dropState_ends _ hlen
  rw [hphase] at hends
  rcases reply with _ | (_ | _)
  · cases hends
  · rfl
  · cases hends

theorem Ready.returns_nothing {push : JobRequest → Job} {r : JobRequest} {ends : Reply → Prop}
    {s : BatchRun W} {t : EnqueueRun W} (h : Ready push r ends s t)
    (hends : ∀ reply, ends reply → reply = .ok none) (hpushes : t.pushes ≠ [])
    (hraised : ∃ raised, t.phase = .raised raised) : s.phase = .returned [] := by
  cases h with
  | created | unsent | answered | sent => simp at hraised
  | unsentEnded => exact absurd rfl hpushes
  | @sentEnded _ _ reply _ hreply hphase => rw [hphase, hends reply hreply]; rfl

theorem Related.not_raised {push : JobRequest → Job} {r : JobRequest} {ends : Reply → Prop}
    {s : BatchRun W} {t : EnqueueRun W} (h : Related push r ends s t)
    (hends : ∀ reply, ends reply → reply = .ok none) (hpushes : s.pushes.flatten ≠ [])
    (raised : Raised) : s.phase ≠ .raised raised := by
  cases h with
  | waiting | pushing | sentSettled | unsentSettled | replaced | failing => simp
  | ready h =>
    cases h with
    | created | unsent | answered | sent => simp
    | unsentEnded _ _ hnone => exact absurd (by rw [hnone]; rfl) hpushes
    | @sentEnded _ _ reply _ hreply hphase =>
      rw [hphase, hends reply hreply]
      exact BatchPhase.noConfusion

/-- The middleware returns no `None` after `next` returned a job. -/
def KeepsSuccess (middleware : EnqueueMiddleware W) : Prop :=
  ∀ {request history}, middleware.Lives request history →
    (∃ job world, .replied (.ok (some job)) world ∈ history) →
    middleware request history ≠ .finish (.ok none)

end OpenJobSpec.Client
