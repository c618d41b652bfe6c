import OpenJobSpec.Errors.Hierarchy
import Mathlib.Logic.Function.Basic

/-! # Process-signal ownership for worker runtimes

A custodian switches two signals of the process to handlers of its event loop,
and puts the handlers back that were there before. The state is that of the
process: what it does on each signal, what each event loop has registered, and
every custodian with the one that owns the handlers.
-/
namespace OpenJobSpec

inductive Signum
  | sigterm
  | sigint
deriving DecidableEq

/-- A handler written in Python: the one asyncio sets for a registered signal, the default one of
SIGINT, or any other. -/
inductive PythonHandler
  | sighandlerNoop
  | defaultIntHandler
  | function (name : ℕ)
deriving DecidableEq

/-- What the process does on a signal. A handler may come from outside of Python. -/
inductive Disposition
  | sigDfl
  | sigIgn
  | python (handler : PythonHandler)
  | foreign (address : ℕ)
deriving DecidableEq

/-- `signal.getsignal`: `none` stands for None. -/
def Disposition.getsignal : Disposition → Option Disposition
  | foreign _ => none
  | d => some d

structure SignalCustodian where
  enabled : Bool
  loop : Option ℕ := none
  previous : List (Signum × Option Disposition) := []
  installed : Bool := false

structure ProcessSignals where
  disposition : Signum → Disposition
  /-- the signals that an event loop has a handler for -/
  registered : ℕ → Signum → Bool
  owner : Option ℕ
  custodians : ℕ → SignalCustodian

namespace ProcessSignals
variable (s : ProcessSignals)

def setDisposition (signum : Signum) (d : Disposition) : ProcessSignals :=
  { s with disposition := Function.update s.disposition signum d }

def setRegistered (loop : ℕ) (signum : Signum) (value : Bool) : ProcessSignals :=
  { s with
    registered := Function.update s.registered loop
      (Function.update (s.registered loop) signum value) }

def setCustodian (c : ℕ) (custodian : SignalCustodian) : ProcessSignals :=
  { s with custodians := Function.update s.custodians c custodian }

/-- `signal.signal`. -/
def signal (signum : Signum) : Option Disposition → ProcessSignals × Except Exn Unit
  | some d => (s.setDisposition signum d, .ok ())
  | none => (s, .error (.builtin .typeError
      "signal handler must be signal.SIG_IGN, signal.SIG_DFL, or a callable object"))

/-- `loop.add_signal_handler`, with its outcome; one that raises changes nothing. -/
def addSignalHandler (loop : ℕ) (signum : Signum) (outcome : Except Exn Unit) :
    ProcessSignals × Except Exn Unit :=
  match outcome with
  | .ok () =>
    ((s.setRegistered loop signum true).setDisposition signum (.python .sighandlerNoop), .ok ())
  | .error e => (s, .error e)

/-- What `loop.remove_signal_handler` puts in the place of its own handler. -/
def defaultHandler : Signum → Disposition
  | .sigterm => .sigDfl
  | .sigint => .python .defaultIntHandler

/-- `loop.remove_signal_handler`. -/
def removeSignalHandler (loop : ℕ) (signum : Signum) : ProcessSignals :=
  if s.registered loop signum then
    (s.setRegistered loop signum false).setDisposition signum (defaultHandler signum)
  else s

/-- `_restore_owner`. -/
def restoreOwner (c : ℕ) : ProcessSignals :=
  if s.owner = some c then { s with owner := none } else s

/-- `previous[signum] = handler`: a key that is there keeps its place. -/
def setPrevious (previous : List (Signum × Option Disposition)) (signum : Signum)
    (handler : Option Disposition) : List (Signum × Option Disposition) :=
  if previous.any (·.1 = signum) then
    previous.map fun entry => if entry.1 = signum then (signum, handler) else entry
  else previous ++ [(signum, handler)]

/-- The loop of `install` over the two signals. -/
def switch (c loop : ℕ) (add : Signum → Except Exn Unit) :
    ProcessSignals → List Signum → ProcessSignals × Except Exn Unit
  | s, [] => (s, .ok ())
  | s, signum :: rest =>
    let custodian := s.custodians c
    let saved := s.setCustodian c { custodian with
      previous := setPrevious custodian.previous signum (s.disposition signum).getsignal }
    match saved.addSignalHandler loop signum (add signum) with
    | (s, .ok ()) => switch c loop add s rest
    | (s, .error e) => (s, .error e)

/-- `except (NotImplementedError, RuntimeError)`. -/
def isUnsupported : Exn → Bool
  | .builtin .runtimeError _ | .builtin .recursionError _ | .other "NotImplementedError" _ => true
  | _ => false

/-- `install`, in a thread with or without a running loop; `add` is how each registration ends. -/
def install (c : ℕ) (mainThread : Bool) (runningLoop : Option ℕ)
    (add : Signum → Except Exn Unit) : ProcessSignals × Except Exn Bool :=
  if ¬ (s.custodians c).enabled then (s, .ok false)
  else if ¬ mainThread then (s, .ok false)
  else
    match runningLoop with
    | none => (s, .error (.builtin .runtimeError "no running event loop"))
    | some loop =>
      if s.owner ≠ none ∧ s.owner ≠ some c then
        (s, .error (.builtin .runtimeError "another worker owns the process signal handlers"))
      else
        match switch c loop add { s with owner := some c } [.sigterm, .sigint] with
        | (s, .ok ()) =>
          (s.setCustodian c { s.custodians c with loop := some loop, installed := true }, .ok true)
        | (s, .error e) =>
          if isUnsupported e then
            let released := s.restoreOwner c
            (released.setCustodian c { released.custodians c with previous := [] }, .ok false)
          else (s, .error e)

/-- The loop of `restore` over the saved handlers. -/
def putBack (loop : ℕ) :
    ProcessSignals → List (Signum × Option Disposition) → ProcessSignals × Except Exn Unit
  | s, [] => (s, .ok ())
  | s, (signum, handler) :: rest =>
    match (s.removeSignalHandler loop signum).signal signum handler with
    | (s, .ok ()) => putBack loop s rest
    | (s, .error e) => (s, .error e)

def restore (c : ℕ) : ProcessSignals × Except Exn Unit :=
  let custodian := s.custodians c
  if ¬ custodian.installed then (s.restoreOwner c, .ok ())
  else
    match custodian.loop with
    | none => (s, .error (.builtin .runtimeError "installed signal custodian has no event loop"))
    | some loop =>
      match putBack loop s custodian.previous with
      | (s, .error e) => (s, .error e)
      | (s, .ok ()) =>
        ((s.setCustodian c { enabled := custodian.enabled }).restoreOwner c, .ok ())

end ProcessSignals

/-- A worker with its custodian, and whether its `_run_state` is set. -/
structure CustodialWorker where
  custodian : ℕ
  running : Bool

namespace CustodialWorker
variable (w : CustodialWorker)

/-- The guard of `start`. -/
def enter : Except Exn CustodialWorker :=
  if w.running then .error (.builtin .runtimeError "worker is already running")
  else .ok { w with running := true }

/-- The `finally` clause of `start`: a `restore` that raises leaves the run as it is. -/
def leave (s : ProcessSignals) : ProcessSignals × CustodialWorker × Except Exn Unit :=
  match s.restore w.custodian with
  | (s, .ok ()) => (s, { w with running := false }, .ok ())
  | (s, .error e) => (s, w, .error e)

end CustodialWorker

end OpenJobSpec
