import Mathlib.Data.List.Basic

/-! # Layers around a computation, and observers among them

A computation takes a state to an outcome and a state, and a layer goes around one
that it runs as often as it likes. A layer that is a program of such runs knows
nothing of a log beside its state, so it also goes around a computation that keeps
one. An observer runs what is next once, passes on what came of it and touches
nothing but the log; what it does at the end may depend on what it saw at the start.
-/
namespace OpenJobSpec.Observers
variable {O S L : Type*}

abbrev Comp (O S : Type*) := S → O × S

/-- What a layer does: it ends, or runs what is next and goes on with what came of it. -/
inductive Calls (O S : Type*)
  | finish (outcome : O) (state : S)
  | next (state : S) (resume : O → S → Calls O S)

namespace Calls

def run (next : Comp O S) : Calls O S → O × S
  | .finish outcome state => (outcome, state)
  | .next state resume => run next (resume (next state).1 (next state).2)

/-- The same around a computation that keeps a log. -/
def runLogged (next : Comp O (S × L)) : Calls O S → L → O × (S × L)
  | .finish outcome state, log => (outcome, (state, log))
  | .next state resume, log =>
    let ended := next (state, log)
    runLogged next (resume ended.1 ended.2.1) ended.2.2

end Calls

/-- A computation beside a log that it does not touch. -/
def beside (f : Comp O S) : Comp O (S × L) := fun s => ((f s.1).1, ((f s.1).2, s.2))

inductive Layer (O S L : Type*)
  | program (body : S → Calls O S)
  | observer (watch : S → L → L × (O → S → L → L))

def Layer.around : Layer O S L → Comp O (S × L) → Comp O (S × L)
  | .program body, next => fun s => (body s.1).runLogged next s.2
  | .observer watch, next => fun s =>
    let seen := watch s.1 s.2
    let ended := next (s.1, seen.1)
    (ended.1, (ended.2.1, seen.2 ended.1 ended.2.1 ended.2.2))

/-- The layers in order, the first one outermost. -/
def executeAll : List (Layer O S L) → Comp O (S × L) → Comp O (S × L)
  | [], inner => inner
  | layer :: layers, inner => layer.around (executeAll layers inner)

/-- The programs among the layers, without a log. -/
def executePrograms : List (Layer O S L) → Comp O S → Comp O S
  | [], inner => inner
  | .program body :: layers, inner => fun s => (body s).run (executePrograms layers inner)
  | .observer _ :: layers, inner => executePrograms layers inner

/-- One computation does with its log what the other does without one. -/
def Agrees (f : Comp O (S × L)) (g : Comp O S) : Prop :=
  ∀ s l, (f (s, l)).1 = (g s).1 ∧ (f (s, l)).2.1 = (g s).2

theorem agrees_beside (f : Comp O S) : Agrees (L := L) (beside f) f := fun _ _ => ⟨rfl, rfl⟩

theorem Agrees.runLogged {f : Comp O (S × L)} {g : Comp O S} (h : Agrees f g) (calls : Calls O S)
    (l : L) : (calls.runLogged f l).1 = (calls.run g).1 ∧
      (calls.runLogged f l).2.1 = (calls.run g).2 := by
  induction calls generalizing l with
  | finish outcome state => exact ⟨rfl, rfl⟩
  | next state resume ih =>
    obtain ⟨houtcome, hstate⟩ := h state l
    rw [Calls.runLogged, Calls.run, ← houtcome, ← hstate]
    exact ih _ _ _

/-- Observers among the layers change neither the outcome nor the state. -/
theorem executeAll_agrees (layers : List (Layer O S L)) {f : Comp O (S × L)} {g : Comp O S}
    (h : Agrees f g) : Agrees (executeAll layers f) (executePrograms layers g) := by
  induction layers with
  | nil => exact h
  | cons layer layers ih =>
    cases layer with
    | program body => exact fun s l => ih.runLogged (body s) l
    | observer watch => exact fun s l => ih s (watch s l).1

/-! ## What a run adds to the log -/

/-- Every run extends the log in a way that is kept by one run after another. -/
def Extends (R : L → L → Prop) (f : Comp O (S × L)) : Prop := ∀ s l, R l (f (s, l)).2.2

variable {R : L → L → Prop}

theorem extends_beside (hrefl : ∀ l, R l l) (f : Comp O S) : Extends (S := S) R (beside f) :=
  fun _ l => hrefl l

theorem Extends.runLogged (hrefl : ∀ l, R l l) (htrans : ∀ a b c, R a b → R b c → R a c)
    {f : Comp O (S × L)} (h : Extends R f) (calls : Calls O S) (l : L) :
    R l (calls.runLogged f l).2.2 := by
  induction calls generalizing l with
  | finish outcome state => exact hrefl l
  | next state resume ih => exact htrans _ _ _ (h state l) (ih _ _ _)

/-- Layers add to the log only what their observers write and what the computation adds that they
go around. -/
theorem extends_executeAll (hrefl : ∀ l, R l l) (htrans : ∀ a b c, R a b → R b c → R a c)
    (layers : List (Layer O S L)) (hwatch : ∀ watch, .observer watch ∈ layers →
      ∀ s l, R l (watch s l).1 ∧ ∀ outcome state m, R m ((watch s l).2 outcome state m))
    {f : Comp O (S × L)} (h : Extends R f) : Extends R (executeAll layers f) := by
  induction layers with
  | nil => exact h
  | cons layer layers ih =>
    have hinner := ih fun watch hmem => hwatch watch (List.mem_cons_of_mem layer hmem)
    cases layer with
    | program body => exact fun s l => hinner.runLogged hrefl htrans (body s) l
    | observer watch =>
      intro s l
      obtain ⟨hbefore, hafter⟩ := hwatch watch List.mem_cons_self s l
      exact htrans _ _ _ hbefore (htrans _ _ _ (hinner s (watch s l).1) (hafter _ _ _))

end OpenJobSpec.Observers
