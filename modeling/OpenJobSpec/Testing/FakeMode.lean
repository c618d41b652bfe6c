import OpenJobSpec.Foundation.ContextVariables
import OpenJobSpec.Errors.Hierarchy
import OpenJobSpec.Wire.JobRequest

/-! # Fake mode

The active fake transport is a context variable. A client that was given no transport
looks it up at each push, and the assertions look it up when they are given no store,
so what they reach depends on the task that runs them.
-/
namespace OpenJobSpec.Testing
open Runs ContextVariables
variable {τ : Type}

/-- What reaches a transport: a push of envelopes, or a question about its store. -/
inductive Call (τ : Type)
  | pushed (transport : τ) (requests : List JobRequest)
  | asked (transport : τ)

def Call.transport : Call τ → τ
  | .pushed transport _ => transport
  | .asked transport => transport

/-- Code under test, and tests, as far as they look at the active fake transport. -/
abbrev TestCode (τ : Type) := Program (Option τ) (Call τ) Exn

/-- `activate_fake_transport(transport)` around a body. -/
def activateFakeTransport (transport : τ) (body rest : TestCode τ) : TestCode τ :=
  .block (some transport) body rest

/-- `with fake_mode(transport):`, where a transport is made when none is given. -/
def fakeMode (transport : Option τ) (made : τ) (body rest : TestCode τ) : TestCode τ :=
  activateFakeTransport (transport.getD made) body rest

structure ContextualEnqueueSink (τ : Type) where
  transport : τ
  allowContextFake : Bool

/-- The sink of a client, whose own transport is made when it is given none. -/
def clientSink (transport : Option τ) (made : τ) : ContextualEnqueueSink τ :=
  ⟨transport.getD made, transport.isNone⟩

namespace ContextualEnqueueSink
variable (sink : ContextualEnqueueSink τ)

/-- `_selected()`, under the value of the variable. -/
def selected (fake : Option τ) : τ :=
  match if sink.allowContextFake then fake else none with
  | some fake => fake
  | none => sink.transport

def pushBatch (requests : List JobRequest) (rest : TestCode τ) : TestCode τ :=
  .get fun fake => .act (.pushed (sink.selected fake) requests) rest

def push (request : JobRequest) (rest : TestCode τ) : TestCode τ := sink.pushBatch [request] rest

end ContextualEnqueueSink

/-- `_get_store(store, transport)`, where either is told by its transport. -/
def getStore (given : Option τ) (rest : τ → TestCode τ) : TestCode τ :=
  match given with
  | some transport => rest transport
  | none => .get fun
    | some fake => rest fake
    | none => .raise (.builtin .runtimeError
      "OJS testing: not in fake mode. Use `with fake_mode():` first.")

/-- An assertion about a store, which is over before its task goes on. -/
def assertOn (given : Option τ) (rest : TestCode τ) : TestCode τ :=
  getStore given fun transport => .act (.asked transport) rest

/-! ## Where the calls go -/

/-- In every interleaving a task reaches the transports that its text says when a fake transport is
bound by its block, a task that is created starts under the binding of its creator, a task that has
ended leaves the variable as it found it, and all calls are those of the tasks. -/
theorem fake_mode_is_lexical (fake : Option τ) (test : TestCode τ) (schedule : List ℕ) :
    let s := run System.next (System.init fake test) schedule
    (∀ t ∈ s.tasks, t.did <+: (t.program.meaning t.context).effects ∧
      (t.task.step = none →
        t.did = (t.program.meaning t.context).effects ∧ t.task.context = t.context)) ∧
    (s.tasks.map fun t => (t.context, t.program)).tail.Perm (s.all Effect.start) ∧
    s.actions.Perm (s.all Effect.action) := by
  intro s
  have hfaithful : s.Faithful := System.faithful_run fake test schedule
  exact ⟨fun t ht => ⟨hfaithful.beginning ht, hfaithful.ended ht⟩, hfaithful.tasks,
    hfaithful.actions⟩

variable {IsFake : τ → Prop}

/-- Fake mode is on. -/
def InFakeMode (IsFake : τ → Prop) (fake : Option τ) : Prop := ∃ t, fake = some t ∧ IsFake t

/-- The code activates fakes alone, and reaches none but fakes where fake mode is on. -/
def StaysFake (IsFake : τ → Prop) (code : TestCode τ) : Prop :=
  code.Confined (InFakeMode IsFake) fun call => IsFake call.transport

theorem staysFake_pushBatch (made : τ) (requests : List JobRequest) {rest : TestCode τ}
    (h : StaysFake IsFake rest) :
    StaysFake IsFake ((clientSink none made).pushBatch requests rest) := by
  rintro fake ⟨t, rfl, ht⟩
  exact ⟨ht, h⟩

theorem staysFake_assertOn {rest : TestCode τ} (h : StaysFake IsFake rest) :
    StaysFake IsFake (assertOn none rest) := by
  rintro fake ⟨t, rfl, ht⟩
  exact ⟨ht, h⟩

/-- A block whose task pushes after it has ended. The client has the transport `0` of its own. -/
def outliving : TestCode ℕ :=
  let push (rest : TestCode ℕ) := (clientSink none 0).push { type := "a" } rest
  fakeMode none 1 (.create (push (assertOn none .done)) (push .done)) .done

end OpenJobSpec.Testing
