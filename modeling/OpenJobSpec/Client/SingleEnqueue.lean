import OpenJobSpec.Client.EnqueueMiddleware

/-! # Enqueue of one request

The request is validated, goes through the middleware chain, is validated again
where the chain ends, and is pushed. What the transport makes of a request is a
function of it; the step after a push is the one that gives its answer back.
-/
namespace OpenJobSpec.Client

variable {W : Type}

inductive EnqueuePhase (W : Type)
  | created
  | executing (execution : Execution W)
  /-- the transport was handed the request -/
  | pushing (request : JobRequest) (callers : List (Frame W))
  | returned (job : Job)
  | raised (error : Raised)

structure EnqueueRun (W : Type) where
  request : JobRequest
  phase : EnqueuePhase W := .created
  /-- the payloads of the calls of `push` -/
  pushes : List JobRequest := []

namespace EnqueueRun

def rejectedRequest : Exn := .ojsError "Enqueue middleware rejected the request"

/-- What `enqueue` makes of the end of the chain. -/
def ended : Reply → EnqueuePhase W
  | .ok (some job) => .returned job
  | .ok none => .raised (.exception rejectedRequest)
  | .error raised => .raised raised

/-- The terminal call. -/
def dispatch (s : EnqueueRun W) (candidate : JobRequest) (callers : List (Frame W)) :
    EnqueueRun W :=
  match validateRequest candidate with
  | .error e => { s with phase := .executing (.replying (.error (.exception e)) callers) }
  | .ok () =>
    { s with phase := .pushing candidate callers, pushes := s.pushes ++ [candidate] }

def next (middlewares : List (EnqueueMiddleware W)) (push : JobRequest → Except Raised Job)
    (world : W) (s : EnqueueRun W) : Option (EnqueueRun W) :=
  match s.phase with
  | .created =>
    match validateRequest s.request with
    | .error e => some { s with phase := .raised (.exception e) }
    | .ok () => some { s with phase := .executing (execute middlewares s.request) }
  | .executing (.building [] candidate callers) => some (s.dispatch candidate callers)
  | .executing (.replying reply []) => some { s with phase := ended reply }
  | .executing execution => do
    let execution ← execution.proceed world
    return { s with phase := .executing execution }
  | .pushing request callers =>
    some { s with phase := .executing (.replying ((push request).map some) callers) }
  | .returned _ | .raised _ => none

end EnqueueRun

/-! ## Middlewares that keep to a discipline -/

/-- The histories that a middleware can come to have, when nothing cancels it. -/
inductive EnqueueMiddleware.Lives (middleware : EnqueueMiddleware W) (request : JobRequest) :
    List (Observation W) → Prop
  | entered (world : W) : Lives middleware request [.entered world]
  | woken {history : List (Observation W)} (world : W) : Lives middleware request history →
    middleware request history = .wait → Lives middleware request (history ++ [.woken world])
  | replied {history : List (Observation W)} {candidate : JobRequest} (reply : Reply) (world : W) :
    reply ≠ .error .cancelled → Lives middleware request history →
    middleware request history = .callNext candidate →
    Lives middleware request (history ++ [.replied reply world])

/-- A call of `next` has ended. -/
def HasReply (history : List (Observation W)) : Prop :=
  ∃ reply world, .replied reply world ∈ history

theorem HasReply.append {history : List (Observation W)} (h : HasReply history)
    (observation : Observation W) : HasReply (history ++ [observation]) := by
  obtain ⟨reply, world, hmem⟩ := h
  exact ⟨reply, world, List.mem_append_left _ hmem⟩

theorem hasReply_replied (history : List (Observation W)) (reply : Reply) (world : W) :
    HasReply (history ++ [.replied reply world]) :=
  ⟨reply, world, by simp⟩

/-- The middleware calls `next` at most once and raises nothing but exceptions. -/
structure Disciplined (middleware : EnqueueMiddleware W) : Prop where
  once : ∀ {request history}, middleware.Lives request history → HasReply history →
    ∀ candidate, middleware request history ≠ .callNext candidate
  exceptions : ∀ {request history}, middleware.Lives request history →
    middleware request history ≠ .finish (.error .cancelled)

section Valid
variable (P : EnqueueMiddleware W → Prop)

structure Frame.Valid (frame : Frame W) : Prop where
  keeps : P frame.middleware
  remaining : ∀ m ∈ frame.remaining, P m
  lives : frame.middleware.Lives frame.request frame.history

/-- A frame that awaits its call of `next`. -/
structure Frame.Suspended (frame : Frame W) : Prop extends Frame.Valid P frame where
  called : ∃ candidate, frame.middleware frame.request frame.history = .callNext candidate

/-- What holds of a chain of such middlewares wherever it stands. -/
inductive Execution.Valid : Execution W → Prop
  | building {middlewares : List (EnqueueMiddleware W)} {request : JobRequest}
      {callers : List (Frame W)} : (∀ m ∈ middlewares, P m) →
      (∀ frame ∈ callers, frame.Suspended P) → Valid (.building middlewares request callers)
  | acting {frame : Frame W} {callers : List (Frame W)} : frame.Valid P →
      (∀ frame ∈ callers, frame.Suspended P) → Valid (.acting frame callers)
  | waiting {frame : Frame W} {callers : List (Frame W)} : frame.Valid P →
      frame.middleware frame.request frame.history = .wait →
      (∀ frame ∈ callers, frame.Suspended P) → Valid (.waiting frame callers)
  | replying {reply : Reply} {callers : List (Frame W)} : reply ≠ .error .cancelled →
      (∀ frame ∈ callers, frame.Suspended P) → Valid (.replying reply callers)

end Valid

namespace Execution

/-- The innermost call has ended, and the chain is on its way back. -/
inductive Returning : Execution W → Prop
  | acting {frame : Frame W} {callers : List (Frame W)} :
      HasReply frame.history → Returning (.acting frame callers)
  | waiting {frame : Frame W} {callers : List (Frame W)} :
      HasReply frame.history → Returning (.waiting frame callers)
  | replying (reply : Reply) (callers : List (Frame W)) : Returning (.replying reply callers)

variable {P : EnqueueMiddleware W → Prop} {world : W} {e e' : Execution W}

theorem Valid.proceed (hP : ∀ m, P m → Disciplined m) (h : e.Valid P)
    (hs : e.proceed world = some e') : e'.Valid P := by
  cases h with
  | @building middlewares request callers hm hc =>
    cases middlewares with
    | nil => cases hs
    | cons current remaining =>
      cases hs
      exact .acting ⟨hm _ List.mem_cons_self, fun m hmem => hm m (List.mem_cons_of_mem _ hmem),
        .entered world⟩ hc
  | @acting frame callers hf hc =>
    unfold Execution.proceed at hs
    dsimp only at hs
    split at hs
    next candidate hcall =>
      cases hs
      refine .building hf.remaining fun g hg => ?_
      rcases List.mem_cons.mp hg with rfl | hmem
      · exact ⟨hf, candidate, hcall⟩
      · exact hc g hmem
    next hwait =>
      cases hs
      exact .waiting hf hwait hc
    next reply hfinish =>
      cases hs
      refine .replying (fun hcancelled => ?_) hc
      exact (hP _ hf.keeps).exceptions hf.lives (hfinish.trans (congrArg Action.finish hcancelled))
  | @waiting frame callers hf hwait hc =>
    cases hs
    exact .acting ⟨hf.keeps, hf.remaining, hf.lives.woken world hwait⟩ hc
  | @replying reply callers hreply hc =>
    cases callers with
    | nil => cases hs
    | cons frame callers =>
      cases hs
      have hf := hc frame List.mem_cons_self
      obtain ⟨candidate, hcall⟩ := hf.called
      exact .acting ⟨hf.keeps, hf.remaining, hf.lives.replied reply world hreply hcall⟩
        fun g hg => hc g (List.mem_cons_of_mem _ hg)

/-- On its way back a chain of disciplined middlewares reaches no terminal. -/
theorem Returning.proceed (hP : ∀ m, P m → Disciplined m) (hr : e.Returning) (h : e.Valid P)
    (hs : e.proceed world = some e') : e'.Returning := by
  cases hr with
  | @acting frame callers hreply =>
    cases h with
    | acting hf hc =>
      unfold Execution.proceed at hs
      dsimp only at hs
      split at hs
      next candidate hcall => exact absurd hcall ((hP _ hf.keeps).once hf.lives hreply candidate)
      next =>
        cases hs
        exact .waiting hreply
      next reply _ =>
        cases hs
        exact .replying reply callers
  | waiting hreply =>
    cases hs
    exact .acting (hreply.append _)
  | replying reply callers =>
    cases callers with
    | nil => cases hs
    | cons frame callers =>
      cases hs
      exact .acting (hasReply_replied frame.history reply world)

end Execution

end OpenJobSpec.Client
