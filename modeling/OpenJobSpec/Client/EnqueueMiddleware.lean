import OpenJobSpec.Client.RequestValidation

/-! # The enqueue middleware chain

A middleware is an arbitrary program that awaits one thing at a time: what it
does next depends on the request it was given and on everything that it has
observed since. Each observation carries what the middleware reads of the world
at that moment (clocks, shared objects, replies of other services), which the
model leaves open. A chain in execution is a stack of suspended callers.
-/
namespace OpenJobSpec.Client

abbrev Reply := Except Raised (Option Job)

/-- What resumes a middleware: its call, the end of a wait of its own, a cancellation of that
wait, or the end of its last call of `next`. -/
inductive Observation (W : Type)
  | entered (world : W)
  | woken (world : W)
  | cancelled (world : W)
  | replied (reply : Reply) (world : W)

/-- What a middleware does next: await `next(request)`, await something else, or end. -/
inductive Action
  | callNext (request : JobRequest)
  | wait
  | finish (reply : Reply)

abbrev EnqueueMiddleware (W : Type) := JobRequest → List (Observation W) → Action

structure Frame (W : Type) where
  middleware : EnqueueMiddleware W
  remaining : List (EnqueueMiddleware W)
  request : JobRequest
  history : List (Observation W)

def Frame.observe {W : Type} (frame : Frame W) (observation : Observation W) : Frame W :=
  { frame with history := frame.history ++ [observation] }

/-- Where the execution of a chain stands; the innermost caller comes first. -/
inductive Execution (W : Type)
  | building (middlewares : List (EnqueueMiddleware W)) (request : JobRequest)
      (callers : List (Frame W))
  | acting (frame : Frame W) (callers : List (Frame W))
  | waiting (frame : Frame W) (callers : List (Frame W))
  /-- the final call is awaited -/
  | calling (callers : List (Frame W))
  | replying (reply : Reply) (callers : List (Frame W))

variable {W : Type}

/-- `EnqueueMiddlewareChain.execute(request, final)`. -/
def execute (middlewares : List (EnqueueMiddleware W)) (request : JobRequest) : Execution W :=
  .building middlewares request []

def Execution.proceed (world : W) : Execution W → Option (Execution W)
  | .building (current :: remaining) request callers =>
    some (.acting ⟨current, remaining, request, [.entered world]⟩ callers)
  | .acting frame callers =>
    match frame.middleware frame.request frame.history with
    | .callNext request => some (.building frame.remaining request (frame :: callers))
    | .wait => some (.waiting frame callers)
    | .finish reply => some (.replying reply callers)
  | .waiting frame callers => some (.acting (frame.observe (.woken world)) callers)
  | .replying reply (frame :: callers) =>
    some (.acting (frame.observe (.replied reply world)) callers)
  -- the final call, and the end of the whole chain, are left to who executes it
  | .building [] .. | .calling _ | .replying _ [] => none

end OpenJobSpec.Client
