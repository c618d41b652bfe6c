import OpenJobSpec.Client.SingleEnqueue
import OpenJobSpec.Client.BatchBarrier
import OpenJobSpec.Foundation.Simulation

/-! # A batch of one request against a single enqueue

Both run the same chain over the same terminal, one step of the chain at a time,
and each step shows the middleware the same world. Between two such steps the
batch opens its barrier, pushes and gathers on its own. The two are related
state by state until they end.
-/
namespace OpenJobSpec.Client
open Simulation Execution

variable {W : Type}

def enqueueSystem (middlewares : List (EnqueueMiddleware W)) (push : JobRequest → Job) :
    System W (EnqueueRun W) where
  visible s world t := s.next middlewares (fun request => .ok (push request)) world = some t
  silent _ _ := False

/-- The transport answers `push_batch` with what it answers to `push`, request by request. -/
def batchSystem (middlewares : List (EnqueueMiddleware W)) (push : JobRequest → Job) :
    System W (BatchRun W) where
  visible s world t := ∃ i, s.next middlewares (.chain i world) = some t
  silent s t :=
    s.next middlewares .barrierOpens = some t ∨ s.next middlewares .chainsGathered = some t ∨
      ∃ entries, s.phase = .pushing entries ∧
        s.next middlewares (.pushReturns (entries.map fun entry => push entry.2)) = some t

/-- The chain of some run ends with the reply, after its request was pushed. -/
def EndsPushed (middlewares : List (EnqueueMiddleware W)) (push : JobRequest → Job)
    (r : JobRequest) (reply : Reply) : Prop :=
  ∃ worlds t, (enqueueSystem middlewares push).Reaches { request := r } worlds t ∧
    t.phase = .executing (.replying reply []) ∧ t.pushes ≠ []

/-- The chain of some run ends in `None` although its request was pushed. -/
def Drops (middlewares : List (EnqueueMiddleware W)) (push : JobRequest → Job) (r : JobRequest) :
    Prop :=
  EndsPushed middlewares push r (.ok none)

/-! ## The states of the two runs -/

section Relation
variable (push : JobRequest → Job) (r : JobRequest) (ends : Reply → Prop)

def unsentItem (reached : Bool) (error : Option Exn) (e : Execution W) : BatchItem W :=
  { request := r, chain := .executing e, reached, terminalError := error }

def sentItem (b : JobRequest) (error : Option Exn) (future : FutureState) (e : Execution W) :
    BatchItem W :=
  { request := r, chain := .executing e, reached := true, terminalError := error
    terminal := some ⟨b, future⟩, decided := true }

/-- What the batch makes of the end of the only chain, before and after its push. -/
def unsentEnd : Reply → BatchPhase
  | .ok (some job) => .returned [job]
  | .ok none | .error .cancelled => .raised (.exception (BatchRun.rejectedItem 0))
  | .error (.exception e) => .raised (.exception e)

def sentEnd : Reply → BatchPhase
  | .ok (some job) => .returned [job]
  | .ok none | .error .cancelled => .returned []
  | .error (.exception e) => .raised (.exception e)

/-- The chain has settled with the reply. -/
structure SettledItem (item : BatchItem W) (reply : Reply) : Prop where
  chain : item.chain = .settled reply
  decided : item.decided = true
  finalResult : item.finalResult = item.chainResult
  chainError : item.chainError =
    match reply with
    | .error (.exception e) => some e
    | _ => none

/-- States in which either the chain can take its next step or both runs have ended. -/
inductive Ready : BatchRun W → EnqueueRun W → Prop
  | created : Ready ⟨[{ request := r }], .barrier, [], none⟩ ⟨r, .created, []⟩
  | unsent {reached : Bool} {error : Option Exn} {e : Execution W} : e.Valid Disciplined →
    (reached = true → e.Returning) →
    Ready ⟨[unsentItem r reached error e], .barrier, [], none⟩ ⟨r, .executing e, []⟩
  | answered {b : JobRequest} {error : Option Exn} {callers : List (Frame W)} :
    (∀ frame ∈ callers, frame.Suspended Disciplined) →
    Ready ⟨[sentItem r b error (.result (push b)) (.calling callers)], .settling, [[b]],
      some [push b]⟩ ⟨r, .pushing b callers, [b]⟩
  | sent {b : JobRequest} {error : Option Exn} {e : Execution W} : e.Valid Disciplined →
    e.Returning →
    Ready ⟨[sentItem r b error (.result (push b)) e], .settling, [[b]], some [push b]⟩
      ⟨r, .executing e, [b]⟩
  | unsentEnded {s : BatchRun W} {reply : Reply} : reply ≠ .error .cancelled →
    s.phase = unsentEnd reply → s.pushes = [] → BatchRun.AllSettled s.items →
    Ready s ⟨r, EnqueueRun.ended reply, []⟩
  | sentEnded {s : BatchRun W} {b : JobRequest} {reply : Reply} : reply ≠ .error .cancelled →
    ends reply → s.phase = sentEnd reply → s.pushes = [[b]] → BatchRun.AllSettled s.items →
    Ready s ⟨r, EnqueueRun.ended reply, [b]⟩

/-- The states in between, where the batch has something to do on its own. -/
inductive Related : BatchRun W → EnqueueRun W → Prop
  | ready {s : BatchRun W} {t : EnqueueRun W} : Ready push r ends s t → Related s t
  | waiting {b : JobRequest} {error : Option Exn} {callers : List (Frame W)} :
    (∀ frame ∈ callers, frame.Suspended Disciplined) →
    Related ⟨[sentItem r b error .pending (.calling callers)], .barrier, [], none⟩
      ⟨r, .pushing b callers, [b]⟩
  | pushing {b : JobRequest} {error : Option Exn} {callers : List (Frame W)} :
    (∀ frame ∈ callers, frame.Suspended Disciplined) →
    Related ⟨[sentItem r b error .pending (.calling callers)], .pushing [(0, b)], [[b]], none⟩
      ⟨r, .pushing b callers, [b]⟩
  | sentSettled {item : BatchItem W} {b : JobRequest} {reply : Reply}
      {response : Option (List Job)} : reply ≠ .error .cancelled →
    ends reply → SettledItem item reply →
    Related ⟨[item], .settling, [[b]], response⟩ ⟨r, EnqueueRun.ended reply, [b]⟩
  | unsentSettled {item : BatchItem W} {reply : Reply} : reply ≠ .error .cancelled →
    SettledItem item reply → item.terminal = none →
    Related ⟨[item], .barrier, [], none⟩ ⟨r, EnqueueRun.ended reply, []⟩
  | replaced {item : BatchItem W} {job : Job} : SettledItem item (.ok (some job)) →
    Related ⟨[item], .settling, [], none⟩ ⟨r, .returned job, []⟩
  | failing {item : BatchItem W} {reply : Reply} {e : Exn} : reply ≠ .error .cancelled →
    item.isSettled = true → unsentEnd reply = .raised (.exception e) →
    Related ⟨[item], .failing e, [], none⟩ ⟨r, EnqueueRun.ended reply, []⟩

end Relation

/-! ## One step of the chain -/

section Step
variable {middlewares : List (EnqueueMiddleware W)} {push : JobRequest → Job} {r : JobRequest}
  {ends : Reply → Prop} {world : W}

theorem next_chain_iff {item : BatchItem W} {phase : BatchPhase} {pushes : List (List JobRequest)}
    {response : Option (List Job)} {i : ℕ} {t : BatchRun W} :
    (⟨[item], phase, pushes, response⟩ : BatchRun W).next middlewares (.chain i world) = some t ↔
      i = 0 ∧ ∃ item', item.proceed middlewares world = some item' ∧
        t = ⟨[item'], phase, pushes, response⟩ := by
  cases i with
  | zero =>
    cases h : item.proceed middlewares world <;> simp [BatchRun.next, h, eq_comm]
  | succ i => simp [BatchRun.next]

/-- A chain of disciplined middlewares is at its terminal, at its end, or takes a step of its
own. -/
theorem Execution.Valid.step_cases {P : EnqueueMiddleware W → Prop} {e : Execution W}
    (h : e.Valid P) (world : W) :
    (∃ candidate callers, e = .building [] candidate callers) ∨
      (∃ reply, e = .replying reply [] ∧ reply ≠ .error .cancelled) ∨
      ∃ e', e.proceed world = some e' ∧
        (∀ item : BatchItem W, item.chain = .executing e →
          item.proceed middlewares world = some { item with chain := .executing e' }) ∧
        ∀ s : EnqueueRun W, s.phase = .executing e →
          s.next middlewares (fun request => .ok (push request)) world =
            some { s with phase := .executing e' } := by
  cases h with
  | @building remaining candidate callers hm hc =>
    cases remaining with
    | nil => exact .inl ⟨candidate, callers, rfl⟩
    | cons current remaining =>
      refine .inr (.inr ⟨_, rfl, fun item hitem => ?_, fun s hs => ?_⟩)
      · simp only [BatchItem.proceed, hitem]
        rfl
      · simp only [EnqueueRun.next, hs]
        rfl
  | @acting frame callers hf hc =>
    have hstep : ∃ e', (Execution.acting frame callers).proceed world = some e' := by
      unfold Execution.proceed
      dsimp only
      split <;> exact ⟨_, rfl⟩
    obtain ⟨e', he'⟩ := hstep
    refine .inr (.inr ⟨e', he', fun item hitem => ?_, fun s hs => ?_⟩)
    · simp only [BatchItem.proceed, hitem, he']
      rfl
    · simp only [EnqueueRun.next, hs, he']
      rfl
  | @waiting frame callers hf hwait hc =>
    refine .inr (.inr ⟨_, rfl, fun item hitem => ?_, fun s hs => ?_⟩)
    · simp only [BatchItem.proceed, hitem]
      rfl
    · simp only [EnqueueRun.next, hs]
      rfl
  | @replying reply callers hreply hc =>
    cases callers with
    | nil => exact .inr (.inl ⟨reply, rfl, hreply⟩)
    | cons frame callers =>
      refine .inr (.inr ⟨_, rfl, fun item hitem => ?_, fun s hs => ?_⟩)
      · simp only [BatchItem.proceed, hitem]
        rfl
      · simp only [EnqueueRun.next, hs]
        rfl

theorem next_chain_of_settled {s : BatchRun W} (h : BatchRun.AllSettled s.items) (i : ℕ) :
    s.next middlewares (.chain i world) = none := by
  cases hi : s.items[i]? with
  | none => simp [BatchRun.next, hi]
  | some item =>
    have hsettled := h item (List.mem_of_getElem? hi)
    unfold BatchItem.isSettled at hsettled
    split at hsettled
    next reply hchain => simp [BatchRun.next, hi, BatchItem.proceed, hchain]
    next => cases hsettled

theorem next_of_ended {request : JobRequest} {reply : Reply} {pushes : List JobRequest} :
    (⟨request, EnqueueRun.ended reply, pushes⟩ : EnqueueRun W).next middlewares
      (fun request => .ok (push request)) world = none := by
  rcases reply with _ | (_ | _) <;> rfl

theorem settledItem_settle {item : BatchItem W} (hresult : item.finalResult = none)
    (herror : item.chainError = none) (reply : Reply) : SettledItem (item.settle reply) reply := by
  rcases reply with (e | _) | result <;>
    exact ⟨rfl, rfl, by simp [BatchItem.settle, BatchItem.chainResult, hresult],
      by simp [BatchItem.settle, herror]⟩

/-- The chain steps of the two runs: both take one and stay related, or neither takes one. -/
def Together (middlewares : List (EnqueueMiddleware W)) (push : JobRequest → Job) (r : JobRequest)
    (ends : Reply → Prop) (world : W) (s : BatchRun W) (t : EnqueueRun W) : Prop :=
  (∃ s' t', (∀ i s'', s.next middlewares (.chain i world) = some s'' ↔ i = 0 ∧ s'' = s') ∧
      t.next middlewares (fun request => .ok (push request)) world = some t' ∧
      Related push r ends s' t') ∨
    ((∀ i, s.next middlewares (.chain i world) = none) ∧
      t.next middlewares (fun request => .ok (push request)) world = none)

theorem together_of_proceed {item item' : BatchItem W} {phase : BatchPhase}
    {pushes : List (List JobRequest)} {response : Option (List Job)} {t t' : EnqueueRun W}
    (hitem : item.proceed middlewares world = some item')
    (ht : t.next middlewares (fun request => .ok (push request)) world = some t')
    (h : Related push r ends ⟨[item'], phase, pushes, response⟩ t') :
    Together middlewares push r ends world ⟨[item], phase, pushes, response⟩ t := by
  refine .inl ⟨_, t', fun i s'' => ?_, ht, h⟩
  rw [next_chain_iff, hitem]
  simp

theorem Ready.together (hm : ∀ m ∈ middlewares, Disciplined m) {s : BatchRun W} {t : EnqueueRun W}
    (h : Ready push r ends s t)
    (hends : ∀ reply, t.phase = .executing (.replying reply []) → t.pushes ≠ [] → ends reply) :
    Together middlewares push r ends world s t := by
  cases h with
  | created =>
    cases hvalid : validateRequest r with
    | error e =>
      have hitem : BatchItem.proceed middlewares world { request := r } =
          some (BatchItem.settle { request := r } (.error (.exception e))) := by
        simp only [BatchItem.proceed, hvalid]
      refine together_of_proceed hitem (by simp only [EnqueueRun.next, hvalid]; rfl) ?_
      exact .unsentSettled (by simp) (settledItem_settle rfl rfl _) rfl
    | ok u =>
      have hitem : BatchItem.proceed middlewares world { request := r } =
          some (unsentItem r false none (execute middlewares r)) := by
        simp only [BatchItem.proceed, hvalid]
        rfl
      refine together_of_proceed hitem (by simp only [EnqueueRun.next, hvalid]; rfl) (.ready ?_)
      exact .unsent (.building hm (by simp)) (by simp)
  | @unsent reached error e hvalid hreturning =>
    obtain ⟨candidate, callers, rfl⟩ | ⟨reply, rfl, hreply⟩ | ⟨e', hstep, hitem, hrun⟩ :=
      hvalid.step_cases world
    · have hfresh : reached = false := by
        cases hreached : reached with
        | false => rfl
        | true => cases hreturning hreached
      subst hfresh
      have hcallers : ∀ frame ∈ callers, frame.Suspended Disciplined := by
        cases hvalid
        assumption
      cases hcandidate : validateRequest candidate with
      | error e =>
        have hitem : (unsentItem r false error (.building [] candidate callers)).proceed
            middlewares world = some (unsentItem r true (some e)
              (.replying (.error (.exception e)) callers)) := by
          simp [BatchItem.proceed, unsentItem, BatchItem.dispatch, hcandidate]
        refine together_of_proceed hitem
          (by simp only [EnqueueRun.next, EnqueueRun.dispatch, hcandidate]; rfl) (.ready ?_)
        exact .unsent (.replying (by simp) hcallers) fun _ => .replying _ callers
      | ok u =>
        have hitem : (unsentItem r false error (.building [] candidate callers)).proceed
            middlewares world =
              some (sentItem r candidate error .pending (.calling callers)) := by
          simp [BatchItem.proceed, unsentItem, sentItem, BatchItem.dispatch, hcandidate]
        refine together_of_proceed hitem
          (by simp only [EnqueueRun.next, EnqueueRun.dispatch, hcandidate]; rfl) ?_
        exact .waiting hcallers
    · have hitem : (unsentItem r reached error (.replying reply [])).proceed middlewares world =
          some ((unsentItem r reached error (.replying reply [])).settle reply) := rfl
      refine together_of_proceed hitem rfl ?_
      refine .unsentSettled hreply (settledItem_settle rfl rfl reply) ?_
      rcases reply with (_ | _) | _ <;> rfl
    · refine together_of_proceed (hitem _ rfl) (hrun _ rfl) (.ready ?_)
      exact .unsent (hvalid.proceed (fun _ => id) hstep) fun hreached =>
        (hreturning hreached).proceed (fun _ => id) hvalid hstep
  | @answered b error callers hcallers =>
    have hitem : (sentItem r b error (.result (push b)) (.calling callers)).proceed middlewares
        world = some (sentItem r b error (.result (push b))
          (.replying (.ok (some (push b))) callers)) := rfl
    refine together_of_proceed hitem rfl (.ready ?_)
    exact .sent (.replying (by simp) hcallers) (.replying _ callers)
  | @sent b error e hvalid hreturning =>
    obtain ⟨candidate, callers, rfl⟩ | ⟨reply, rfl, hreply⟩ | ⟨e', hstep, hitem, hrun⟩ :=
      hvalid.step_cases world
    · cases hreturning
    · have hitem : (sentItem r b error (.result (push b)) (.replying reply [])).proceed
          middlewares world = some ((sentItem r b error (.result (push b))
            (.replying reply [])).settle reply) := rfl
      refine together_of_proceed hitem rfl ?_
      exact .sentSettled hreply (hends reply rfl (by simp)) (settledItem_settle rfl rfl reply)
    · refine together_of_proceed (hitem _ rfl) (hrun _ rfl) (.ready ?_)
      exact .sent (hvalid.proceed (fun _ => id) hstep)
        (hreturning.proceed (fun _ => id) hvalid hstep)
  | unsentEnded _ _ _ hsettled =>
    exact .inr ⟨next_chain_of_settled hsettled, next_of_ended⟩
  | sentEnded _ _ _ _ hsettled =>
    exact .inr ⟨next_chain_of_settled hsettled, next_of_ended⟩

/-! ## What the batch does on its own -/

theorem silent_barrier {s s' : BatchRun W} (h : s.phase = .barrier) :
    (batchSystem middlewares push).silent s s' ↔
      s.items.all BatchItem.decided = true ∧ s' = s.openBarrier := by
  rw [eq_comm (a := s')]
  simp only [batchSystem, BatchRun.next, h]
  simp

theorem silent_pushing {s s' : BatchRun W} {entries : List (ℕ × JobRequest)}
    (h : s.phase = .pushing entries) :
    (batchSystem middlewares push).silent s s' ↔
      s' = s.pushReturned entries (entries.map fun entry => push entry.2) := by
  rw [eq_comm (a := s')]
  simp only [batchSystem, BatchRun.next, h]
  simp

theorem silent_settling {s s' : BatchRun W} (h : s.phase = .settling) :
    (batchSystem middlewares push).silent s s' ↔
      s.items.all BatchItem.isSettled = true ∧ s' = s.conclude := by
  rw [eq_comm (a := s')]
  simp only [batchSystem, BatchRun.next, h]
  simp

theorem silent_failing {s s' : BatchRun W} {e : Exn} (h : s.phase = .failing e) :
    (batchSystem middlewares push).silent s s' ↔
      s.items.all BatchItem.isSettled = true ∧ s' = { s with phase := .raised (.exception e) } := by
  rw [eq_comm (a := s')]
  simp only [batchSystem, BatchRun.next, h]
  simp

theorem not_silent_ended {s s' : BatchRun W}
    (h : (∃ jobs, s.phase = .returned jobs) ∨ ∃ raised, s.phase = .raised raised) :
    ¬ (batchSystem middlewares push).silent s s' := by
  rcases h with ⟨jobs, h⟩ | ⟨raised, h⟩ <;> simp [batchSystem, BatchRun.next, h]

theorem openBarrier_waiting (b : JobRequest) (error : Option Exn) (callers : List (Frame W)) :
    BatchRun.openBarrier
        ⟨[sentItem r b error .pending (.calling callers)], .barrier, [], none⟩ =
      ⟨[sentItem r b error .pending (.calling callers)], .pushing [(0, b)], [[b]], none⟩ := by
  simp [BatchRun.openBarrier, sentItem, BatchRun.rejectSilent, BatchRun.firstError,
    BatchRun.pending]

theorem pushReturned_pushing (b : JobRequest) (error : Option Exn) (callers : List (Frame W))
    (job : Job) :
    BatchRun.pushReturned ⟨[sentItem r b error .pending (.calling callers)], .pushing [(0, b)],
        [[b]], none⟩ [(0, b)] [job] =
      ⟨[sentItem r b error (.result job) (.calling callers)], .settling, [[b]], some [job]⟩ := by
  simp [BatchRun.pushReturned, sentItem, BatchRun.dispatched, IndexedUpdates.updateAll,
    BatchItem.resolve]

/-- A chain that settled before the push ends the batch without one. -/
theorem openBarrier_unsent {item : BatchItem W} {reply : Reply} (h : SettledItem item reply)
    (hreply : reply ≠ .error .cancelled) (hterminal : item.terminal = none) :
    Related push r ends (BatchRun.openBarrier ⟨[item], .barrier, [], none⟩)
      ⟨r, EnqueueRun.ended reply, []⟩ := by
  have hresult := h.finalResult
  have herror := h.chainError
  rw [BatchItem.chainResult, h.chain] at hresult
  rcases reply with (e | _) | (_ | job)
  · have hopen : BatchRun.openBarrier ⟨[item], .barrier, [], none⟩ =
        ⟨[item], .failing e, [], none⟩ := by
      simp [BatchRun.openBarrier, BatchRun.rejectSilent, BatchRun.firstError, BatchItem.resolve,
        hterminal, herror]
    rw [hopen]
    exact .failing hreply (by simp [BatchItem.isSettled, h.chain]) rfl
  · exact absurd rfl hreply
  · have hopen : BatchRun.openBarrier ⟨[item], .barrier, [], none⟩ =
        ⟨[{ item with chainError := some (BatchRun.rejectedItem 0) }],
          .failing (BatchRun.rejectedItem 0), [], none⟩ := by
      simp [BatchRun.openBarrier, BatchRun.rejectSilent, BatchRun.firstError, BatchItem.resolve,
        hterminal, herror, hresult]
    rw [hopen]
    exact .failing hreply (by simp [BatchItem.isSettled, h.chain]) rfl
  · have hopen : BatchRun.openBarrier ⟨[item], .barrier, [], none⟩ =
        ⟨[item], .settling, [], none⟩ := by
      simp [BatchRun.openBarrier, BatchRun.rejectSilent, BatchRun.firstError, BatchRun.pending,
        hterminal, herror, hresult]
    rw [hopen]
    exact .replaced h

/-- After the push the batch ends with what its chain settled with. -/
theorem conclude_sent {item : BatchItem W} {reply : Reply} {b : JobRequest}
    {response : Option (List Job)} (h : SettledItem item reply)
    (hreply : reply ≠ .error .cancelled) (hends : ends reply) :
    Ready push r ends (BatchRun.conclude ⟨[item], .settling, [[b]], response⟩)
      ⟨r, EnqueueRun.ended reply, [b]⟩ := by
  have hresult := h.finalResult
  have herror := h.chainError
  rw [BatchItem.chainResult, h.chain] at hresult
  have hsettled : BatchRun.AllSettled [item] := by
    simp [BatchRun.AllSettled, BatchItem.isSettled, h.chain]
  rcases reply with (e | _) | (_ | job)
  · refine .sentEnded hreply hends ?_ ?_ ?_ <;>
      simp [BatchRun.conclude, BatchRun.firstError, herror, sentEnd, hsettled]
  · exact absurd rfl hreply
  · refine .sentEnded hreply hends ?_ ?_ ?_ <;>
      simp [BatchRun.conclude, BatchRun.firstError, herror, hresult, sentEnd, hsettled]
  · refine .sentEnded hreply hends ?_ ?_ ?_ <;>
      simp [BatchRun.conclude, BatchRun.firstError, herror, hresult, sentEnd, hsettled]

theorem Ready.not_silent {s s' : BatchRun W} {t : EnqueueRun W} (h : Ready push r ends s t) :
    ¬ (batchSystem middlewares push).silent s s' := by
  cases h with
  | created => simp [silent_barrier]
  | unsent => simp [silent_barrier, unsentItem]
  | answered => simp [silent_settling, sentItem, BatchItem.isSettled]
  | sent => simp [silent_settling, sentItem, BatchItem.isSettled]
  | @unsentEnded _ reply _ hphase =>
    refine not_silent_ended ?_
    rw [hphase]
    rcases reply with (_ | _) | (_ | _)
    exacts [.inr ⟨_, rfl⟩, .inr ⟨_, rfl⟩, .inr ⟨_, rfl⟩, .inl ⟨_, rfl⟩]
  | @sentEnded _ _ reply _ _ hphase =>
    refine not_silent_ended ?_
    rw [hphase]
    rcases reply with (_ | _) | (_ | _)
    exacts [.inr ⟨_, rfl⟩, .inl ⟨_, rfl⟩, .inl ⟨_, rfl⟩, .inl ⟨_, rfl⟩]

theorem conclude_replaced {item : BatchItem W} {job : Job} (h : SettledItem item (.ok (some job))) :
    Ready push r ends (BatchRun.conclude ⟨[item], .settling, [], none⟩)
      ⟨r, .returned job, []⟩ := by
  have hresult := h.finalResult
  have herror := h.chainError
  rw [BatchItem.chainResult, h.chain] at hresult
  have hsettled : BatchRun.AllSettled [item] := by
    simp [BatchRun.AllSettled, BatchItem.isSettled, h.chain]
  refine @Ready.unsentEnded W push r ends _ (.ok (some job)) (by simp) ?_ ?_ ?_ <;>
    simp [BatchRun.conclude, BatchRun.firstError, herror, hresult, unsentEnd, hsettled]

/-- What the batch does on its own is decided, and a state in between leads to a ready one. -/
theorem Related.silent_cases {s : BatchRun W} {t : EnqueueRun W} (h : Related push r ends s t) :
    Ready push r ends s t ∨
      ∃ s', (∀ s'', (batchSystem middlewares push).silent s s'' ↔ s'' = s') ∧
        Related push r ends s' t := by
  cases h with
  | ready h => exact .inl h
  | @waiting b error callers hcallers =>
    refine .inr ⟨_, fun s'' => ?_, @Related.pushing W push r ends b error callers hcallers⟩
    rw [silent_barrier rfl, openBarrier_waiting]
    exact and_iff_right rfl
  | @pushing b error callers hcallers =>
    refine .inr ⟨_, fun s'' => ?_, .ready (@Ready.answered W push r ends b error callers hcallers)⟩
    rw [silent_pushing rfl, List.map_cons, List.map_nil, pushReturned_pushing]
  | @sentSettled item b reply response hreply hends hitem =>
    refine .inr ⟨BatchRun.conclude ⟨[item], .settling, [[b]], response⟩, fun s'' => ?_,
      .ready (conclude_sent hitem hreply hends)⟩
    rw [silent_settling rfl]
    exact and_iff_right (by simp [BatchItem.isSettled, hitem.chain])
  | unsentSettled hreply hitem hterminal =>
    refine .inr ⟨_, fun s'' => ?_, openBarrier_unsent hitem hreply hterminal⟩
    rw [silent_barrier rfl]
    exact and_iff_right (by simp [hitem.decided])
  | replaced hitem =>
    refine .inr ⟨_, fun s'' => ?_, .ready (conclude_replaced hitem)⟩
    rw [silent_settling rfl]
    exact and_iff_right (by simp [BatchItem.isSettled, hitem.chain])
  | @failing item reply e hreply hsettled hend =>
    refine .inr ⟨⟨[item], .raised (.exception e), [], none⟩, fun s'' => ?_,
      .ready (.unsentEnded hreply hend.symm rfl ?_)⟩
    · rw [silent_failing rfl]
      exact and_iff_right (by simp [hsettled])
    · simpa [BatchRun.AllSettled] using hsettled

theorem Related.silent {s s' : BatchRun W} {t : EnqueueRun W} (h : Related push r ends s t)
    (hs : (batchSystem middlewares push).silent s s') : Related push r ends s' t := by
  obtain hready | ⟨s'', huniq, hrel⟩ := @Related.silent_cases W middlewares push r ends s t h
  · exact absurd hs hready.not_silent
  · rwa [(huniq s').mp hs]

theorem allSettled_singleton {item : BatchItem W} {reply : Reply}
    (h : item.chain = .settled reply) : BatchRun.AllSettled [item] := by
  simp [BatchRun.AllSettled, BatchItem.isSettled, h]

/-- A chain that can take a step is in a ready state: otherwise it waits or has settled. -/
theorem Related.ready_of_step {s s' : BatchRun W} {t : EnqueueRun W} {i : ℕ}
    (h : Related push r ends s t) (hs : s.next middlewares (.chain i world) = some s') :
    Ready push r ends s t := by
  have hblocked : ∀ b error callers, (sentItem r b error .pending
      (.calling callers)).proceed middlewares world = none := fun _ _ _ => rfl
  cases h with
  | ready h => exact h
  | waiting hcallers =>
    obtain ⟨_, item', hitem, _⟩ := next_chain_iff.mp hs
    cases (hblocked _ _ _).symm.trans hitem
  | pushing hcallers =>
    obtain ⟨_, item', hitem, _⟩ := next_chain_iff.mp hs
    cases (hblocked _ _ _).symm.trans hitem
  | sentSettled _ _ hitem =>
    cases (next_chain_of_settled (allSettled_singleton hitem.chain) i).symm.trans hs
  | unsentSettled _ hitem =>
    cases (next_chain_of_settled (allSettled_singleton hitem.chain) i).symm.trans hs
  | replaced hitem =>
    cases (next_chain_of_settled (allSettled_singleton hitem.chain) i).symm.trans hs
  | @failing item _ _ _ hsettled =>
    have hall : BatchRun.AllSettled [item] := by simpa [BatchRun.AllSettled] using hsettled
    cases (next_chain_of_settled hall i).symm.trans hs

/-- How far a batch is from its end. -/
def stepsLeft : BatchPhase → ℕ
  | .barrier => 3
  | .pushing _ => 2
  | .failing _ | .settling | .unwinding => 1
  | .returned _ | .raised _ => 0

theorem stepsLeft_silent {s s' : BatchRun W} (h : (batchSystem middlewares push).silent s s') :
    stepsLeft s'.phase < stepsLeft s.phase := by
  cases hp : s.phase with
  | barrier =>
    obtain ⟨_, rfl⟩ := (silent_barrier hp).mp h
    simp only [BatchRun.openBarrier]
    split
    · simp [stepsLeft]
    · split <;> simp [stepsLeft]
  | pushing entries =>
    rw [(silent_pushing hp).mp h]
    simp only [BatchRun.pushReturned, BatchRun.pushFailed]
    split <;> simp [stepsLeft]
  | failing e =>
    obtain ⟨_, rfl⟩ := (silent_failing hp).mp h
    simp [stepsLeft]
  | settling =>
    obtain ⟨_, rfl⟩ := (silent_settling hp).mp h
    simp only [BatchRun.conclude]
    split <;> simp [stepsLeft]
  | unwinding =>
    simp only [batchSystem, BatchRun.next, hp] at h
    simp at h
    rw [← h.2]
    simp [stepsLeft]
  | returned jobs => exact absurd h (not_silent_ended (.inl ⟨jobs, hp⟩))
  | raised e => exact absurd h (not_silent_ended (.inr ⟨e, hp⟩))

theorem Related.advance {s : BatchRun W} {t : EnqueueRun W} (h : Related push r ends s t) :
    ∃ s', (batchSystem middlewares push).Reaches s [] s' ∧ Ready push r ends s' t := by
  induction hn : stepsLeft s.phase using Nat.strongRecOn generalizing s with
  | ind n ih =>
    obtain hready | ⟨s', huniq, hrel⟩ := @Related.silent_cases W middlewares push r ends s t h
    · exact ⟨s, .refl, hready⟩
    · have hstep := (huniq s').mpr rfl
      obtain ⟨s'', hreach, hready⟩ := ih _ (hn ▸ stepsLeft_silent hstep) hrel rfl
      exact ⟨s'', (System.reaches_silent hstep).append_silent hreach, hready⟩

end Step

end OpenJobSpec.Client
