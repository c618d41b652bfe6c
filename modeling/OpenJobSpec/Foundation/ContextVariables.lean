import Mathlib.Data.List.Perm.Basic
import OpenJobSpec.Foundation.Runs

/-! # Context variables

A task reads a variable of its own context. A block sets the variable, keeps a token
with the value from before, and resets the variable to the token when it is left,
whichever way it is left. A new task starts with a copy of the context.

Tasks run interleaved. What each of them does is what its text says when the variable
is taken for a name that a block binds.
-/
namespace OpenJobSpec.ContextVariables
open Runs
variable {κ α ε : Type}

/-- Programs of a task, whose actions may look at the variable. -/
inductive Program (κ α ε : Type)
  | done
  | raise (e : ε)
  | get (rest : κ → Program κ α ε)
  | act (action : α) (rest : Program κ α ε)
  | block (value : κ) (body rest : Program κ α ε)
  | attempt (body : Program κ α ε) (handler : ε → Program κ α ε) (rest : Program κ α ε)
  | create (task rest : Program κ α ε)

/-- What a task does to the rest of the system. -/
inductive Effect (κ α ε : Type)
  | acted (action : α)
  | created (context : κ) (task : Program κ α ε)

/-- The effects of a program in their order, and the exception that it ends with. -/
structure Meaning (κ α ε : Type) where
  effects : List (Effect κ α ε)
  raised : Option ε

namespace Meaning

/-- Effects that come first. -/
def after (effects : List (Effect κ α ε)) (m : Meaning κ α ε) : Meaning κ α ε :=
  { m with effects := effects ++ m.effects }

/-- What follows an end without an exception. -/
def andThen (m next : Meaning κ α ε) : Meaning κ α ε :=
  match m.raised with
  | none => next.after m.effects
  | some _ => m

/-- What follows an exception. -/
def orElse (m : Meaning κ α ε) (handler : ε → Meaning κ α ε) : Meaning κ α ε :=
  match m.raised with
  | none => m
  | some e => (handler e).after m.effects

theorem after_after (earlier later : List (Effect κ α ε)) (m : Meaning κ α ε) :
    (m.after later).after earlier = m.after (earlier ++ later) :=
  congrArg (Meaning.mk · m.raised) (List.append_assoc earlier later m.effects).symm

theorem after_andThen (effects : List (Effect κ α ε)) (m next : Meaning κ α ε) :
    (m.after effects).andThen next = (m.andThen next).after effects := by
  obtain ⟨own, raised⟩ := m
  cases raised with
  | none => exact (after_after effects own next).symm
  | some e => rfl

theorem after_orElse (effects : List (Effect κ α ε)) (m : Meaning κ α ε)
    (handler : ε → Meaning κ α ε) :
    (m.after effects).orElse handler = (m.orElse handler).after effects := by
  obtain ⟨own, raised⟩ := m
  cases raised with
  | none => rfl
  | some e => exact (after_after effects own (handler e)).symm

end Meaning

/-- A program read with the variable bound by its blocks. -/
def Program.meaning (context : κ) : Program κ α ε → Meaning κ α ε
  | .done => ⟨[], none⟩
  | .raise e => ⟨[], some e⟩
  | .get rest => (rest context).meaning context
  | .act action rest => (rest.meaning context).after [.acted action]
  | .block value body rest => (body.meaning value).andThen (rest.meaning context)
  | .attempt body handler rest =>
    ((body.meaning context).orElse fun e => (handler e).meaning context).andThen
      (rest.meaning context)
  | .create task rest => (rest.meaning context).after [.created context task]

/-! ## The machine of a task -/

/-- What waits for the end of a program. -/
inductive Frame (κ α ε : Type)
  | reset (token : κ) (rest : Program κ α ε)
  | handle (handler : ε → Program κ α ε) (rest : Program κ α ε)
  | resume (rest : Program κ α ε)

structure Task (κ α ε : Type) where
  context : κ
  code : Program κ α ε
  stack : List (Frame κ α ε) := []

namespace Task

/-- The next step of a task and its effect. -/
def step (t : Task κ α ε) : Option (List (Effect κ α ε) × Task κ α ε) :=
  match t.code, t.stack with
  | .done, [] => none
  | .done, .reset token rest :: stack => some ([], ⟨token, rest, stack⟩)
  | .done, .handle _ rest :: stack => some ([], ⟨t.context, rest, stack⟩)
  | .done, .resume rest :: stack => some ([], ⟨t.context, rest, stack⟩)
  | .raise _, [] => none
  | .raise e, .reset token _ :: stack => some ([], ⟨token, .raise e, stack⟩)
  | .raise e, .handle handler rest :: stack =>
    some ([], ⟨t.context, handler e, .resume rest :: stack⟩)
  | .raise e, .resume _ :: stack => some ([], ⟨t.context, .raise e, stack⟩)
  | .get rest, stack => some ([], ⟨t.context, rest t.context, stack⟩)
  | .act action rest, stack => some ([.acted action], ⟨t.context, rest, stack⟩)
  | .block value body rest, stack => some ([], ⟨value, body, .reset t.context rest :: stack⟩)
  | .attempt body handler rest, stack =>
    some ([], ⟨t.context, body, .handle handler rest :: stack⟩)
  | .create task rest, stack => some ([.created t.context task], ⟨t.context, rest, stack⟩)

/-- What is left to do, for a stack under a context. -/
def unwind : κ → List (Frame κ α ε) → Meaning κ α ε → Meaning κ α ε
  | _, [], m => m
  | _, .reset token rest :: stack, m => unwind token stack (m.andThen (rest.meaning token))
  | context, .handle handler rest :: stack, m =>
    unwind context stack
      ((m.orElse fun e => (handler e).meaning context).andThen (rest.meaning context))
  | context, .resume rest :: stack, m => unwind context stack (m.andThen (rest.meaning context))

def meaning (t : Task κ α ε) : Meaning κ α ε := unwind t.context t.stack (t.code.meaning t.context)

/-- The context below all blocks. -/
def outermost : κ → List (Frame κ α ε) → κ
  | context, [] => context
  | _, .reset token _ :: stack => outermost token stack
  | context, .handle _ _ :: stack => outermost context stack
  | context, .resume _ :: stack => outermost context stack

theorem unwind_after (effects : List (Effect κ α ε)) (context : κ) (stack : List (Frame κ α ε))
    (m : Meaning κ α ε) :
    unwind context stack (m.after effects) = (unwind context stack m).after effects := by
  induction stack generalizing context m with
  | nil => rfl
  | cons frame stack ih =>
    cases frame with
    | reset token rest =>
      rw [unwind, Meaning.after_andThen, ih]
      rfl
    | handle handler rest =>
      rw [unwind, Meaning.after_orElse, Meaning.after_andThen, ih]
      rfl
    | resume rest =>
      rw [unwind, Meaning.after_andThen, ih]
      rfl

/-- A step does the first of what is left to do, and keeps the context below all blocks. -/
theorem step_meaning {t t' : Task κ α ε} {effects : List (Effect κ α ε)}
    (h : t.step = some (effects, t')) :
    t.meaning = t'.meaning.after effects ∧
      outermost t'.context t'.stack = outermost t.context t.stack := by
  obtain ⟨context, code, stack⟩ := t
  cases code with
  | done =>
    rcases stack with _ | ⟨⟨⟩ | ⟨⟩ | ⟨⟩, stack⟩ <;> cases h
    all_goals exact ⟨rfl, rfl⟩
  | raise e =>
    rcases stack with _ | ⟨⟨⟩ | ⟨⟩ | ⟨⟩, stack⟩ <;> cases h
    all_goals exact ⟨rfl, rfl⟩
  | act action rest | create task rest =>
    cases h
    exact ⟨unwind_after _ _ _ _, rfl⟩
  | get rest | block value body rest | attempt body handler rest =>
    cases h
    exact ⟨rfl, rfl⟩

/-- A task without a next step has done everything and is below all blocks. -/
theorem of_step_none {t : Task κ α ε} (h : t.step = none) :
    t.meaning.effects = [] ∧ outermost t.context t.stack = t.context := by
  obtain ⟨context, code, stack⟩ := t
  cases code with
  | done =>
    rcases stack with _ | ⟨⟨⟩ | ⟨⟩ | ⟨⟩, stack⟩ <;> cases h
    exact ⟨rfl, rfl⟩
  | raise e =>
    rcases stack with _ | ⟨⟨⟩ | ⟨⟩ | ⟨⟩, stack⟩ <;> cases h
    exact ⟨rfl, rfl⟩
  | get _ | act _ _ | block _ _ _ | attempt _ _ _ | create _ _ => cases h

end Task

/-! ## Tasks that run interleaved -/

/-- A task with the context and the program that it started with, and what it did. -/
structure Started (κ α ε : Type) where
  context : κ
  program : Program κ α ε
  task : Task κ α ε
  did : List (Effect κ α ε)

def Started.new (context : κ) (program : Program κ α ε) : Started κ α ε :=
  ⟨context, program, ⟨context, program, []⟩, []⟩

def Effect.action : Effect κ α ε → Option α
  | .acted action => some action
  | .created _ _ => none

def Effect.start : Effect κ α ε → Option (κ × Program κ α ε)
  | .acted _ => none
  | .created context task => some (context, task)

/-- The tasks, and the actions of all of them in the order in which they were done. -/
structure System (κ α ε : Type) where
  tasks : List (Started κ α ε)
  actions : List α

namespace System

def init (context : κ) (program : Program κ α ε) : System κ α ε := ⟨[.new context program], []⟩

/-- A step of one of the tasks. -/
def next (s : System κ α ε) (k : ℕ) : Option (System κ α ε) :=
  s.tasks[k]?.bind fun t => t.task.step.map fun (effects, task) =>
    { tasks := s.tasks.set k { t with task := task, did := t.did ++ effects } ++
        (effects.filterMap Effect.start).map fun start => .new start.1 start.2
      actions := s.actions ++ effects.filterMap Effect.action }

/-- What all tasks did, of one kind. -/
def all {β : Type} (s : System κ α ε) (kind : Effect κ α ε → Option β) : List β :=
  s.tasks.flatMap fun t => t.did.filterMap kind

/-- Each task has done the beginning of what its program means, and the actions and the tasks there
are come from the tasks. -/
structure Faithful (s : System κ α ε) : Prop where
  meaning : ∀ t ∈ s.tasks, t.program.meaning t.context = t.task.meaning.after t.did ∧
    Task.outermost t.task.context t.task.stack = t.context
  actions : s.actions.Perm (s.all Effect.action)
  tasks : (s.tasks.map fun t => (t.context, t.program)).tail.Perm (s.all Effect.start)
  nonempty : s.tasks ≠ []

theorem faithful_init (context : κ) (program : Program κ α ε) :
    (init context program).Faithful where
  meaning t ht := by
    cases List.mem_singleton.mp ht
    exact ⟨rfl, rfl⟩
  actions := .refl _
  tasks := .refl _
  nonempty := List.cons_ne_nil _ _

/-- A task that did more, at its place in the list. -/
theorem flatMap_set {β γ : Type} (f : β → List γ) {xs : List β} {k : ℕ} {x y : β}
    {more : List γ} (hx : xs[k]? = some x) (hy : f y = f x ++ more) :
    ((xs.set k y).flatMap f).Perm (xs.flatMap f ++ more) := by
  induction xs generalizing k with
  | nil => cases hx
  | cons first rest ih =>
    cases k with
    | zero =>
      cases hx
      rw [List.set_cons_zero, List.flatMap_cons, List.flatMap_cons, hy, List.append_assoc,
        List.append_assoc]
      exact List.perm_append_comm.append_left _
    | succ k =>
      rw [List.set_cons_succ, List.flatMap_cons, List.flatMap_cons, List.append_assoc]
      exact (ih hx).append_left _

theorem all_next {β : Type} {s s' : System κ α ε} {k : ℕ} (kind : Effect κ α ε → Option β)
    {t : Started κ α ε} {effects : List (Effect κ α ε)} {task : Task κ α ε}
    (ht : s.tasks[k]? = some t)
    (hs' : s'.tasks = s.tasks.set k { t with task := task, did := t.did ++ effects } ++
      (effects.filterMap Effect.start).map fun start => .new start.1 start.2) :
    (s'.all kind).Perm (s.all kind ++ effects.filterMap kind) := by
  have hnew : ((effects.filterMap Effect.start).map fun start =>
      Started.new start.1 start.2).flatMap (fun t => t.did.filterMap kind) = [] := by
    rw [List.flatMap_map]
    exact List.flatMap_eq_nil_iff.mpr fun _ _ => rfl
  rw [all, hs', List.flatMap_append, hnew, List.append_nil]
  exact flatMap_set _ ht List.filterMap_append

/-- The starts of the tasks are as before, and those of the new ones come after them. -/
theorem starts_next {s s' : System κ α ε} {k : ℕ} {t : Started κ α ε}
    {effects : List (Effect κ α ε)} {task : Task κ α ε} (ht : s.tasks[k]? = some t)
    (hs' : s'.tasks = s.tasks.set k { t with task := task, did := t.did ++ effects } ++
      (effects.filterMap Effect.start).map fun start => .new start.1 start.2) :
    s'.tasks.map (fun t => (t.context, t.program)) =
      s.tasks.map (fun t => (t.context, t.program)) ++ effects.filterMap Effect.start := by
  obtain ⟨hlt, rfl⟩ := List.getElem?_eq_some_iff.mp ht
  rw [hs', List.map_append, List.map_set, List.map_map]
  congr 1
  · refine List.ext_getElem? fun i => ?_
    by_cases hi : k = i
    · subst hi
      rw [List.getElem?_set_self (by rwa [List.length_map]), List.getElem?_map,
        List.getElem?_eq_getElem hlt]
      rfl
    · rw [List.getElem?_set_ne hi]
  · exact List.map_id _

theorem faithful_next {s s' : System κ α ε} {k : ℕ} (h : s.Faithful) (hs : s.next k = some s') :
    s'.Faithful := by
  obtain ⟨t, ht, hs⟩ := Option.bind_eq_some_iff.mp hs
  obtain ⟨⟨effects, task⟩, hstep, rfl⟩ := Option.map_eq_some_iff.mp hs
  have hmem := List.mem_of_getElem? ht
  refine ⟨?_, ?_, ?_, ?_⟩
  · intro u hu
    rcases List.mem_append.mp hu with hu | hu
    · rcases List.mem_or_eq_of_mem_set hu with hu | rfl
      · exact h.meaning u hu
      · obtain ⟨hmeaning, houter⟩ := h.meaning t hmem
        obtain ⟨hrest, hkeeps⟩ := Task.step_meaning hstep
        refine ⟨?_, hkeeps.trans houter⟩
        rw [hmeaning, hrest, Meaning.after_after]
    · obtain ⟨start, -, rfl⟩ := List.mem_map.mp hu
      exact ⟨rfl, rfl⟩
  · exact (h.actions.append_right _).trans (all_next Effect.action ht rfl).symm
  · rw [starts_next ht rfl, List.tail_append_of_ne_nil (by simpa using h.nonempty)]
    exact (h.tasks.append_right _).trans (all_next Effect.start ht rfl).symm
  · have hlt := (List.getElem?_eq_some_iff.mp ht).1
    exact List.append_ne_nil_of_left_ne_nil (by simpa using h.nonempty) _

theorem faithful_run (context : κ) (program : Program κ α ε) (schedule : List ℕ) :
    (run next (init context program) schedule).Faithful :=
  run_invariant Faithful (faithful_init context program) fun _ _ _ _ h hs => faithful_next h hs

/-- What a task did is a beginning of what its program means. -/
theorem Faithful.beginning {s : System κ α ε} (h : s.Faithful) {t : Started κ α ε}
    (ht : t ∈ s.tasks) : t.did <+: (t.program.meaning t.context).effects :=
  ⟨_, (congrArg Meaning.effects (h.meaning t ht).1).symm⟩

/-- A task that has come to its end did all that its program means, and left the variable as it
found it. -/
theorem Faithful.ended {s : System κ α ε} (h : s.Faithful) {t : Started κ α ε} (ht : t ∈ s.tasks)
    (hend : t.task.step = none) :
    t.did = (t.program.meaning t.context).effects ∧ t.task.context = t.context := by
  obtain ⟨hmeaning, houter⟩ := h.meaning t ht
  obtain ⟨hnone, hcontext⟩ := Task.of_step_none hend
  refine ⟨?_, hcontext.symm.trans houter⟩
  rw [hmeaning, Meaning.after, hnone, List.append_nil]

end System

/-! ## Confinement -/

/-- The program acts in one way wherever the variable has values of one kind, and gives it values of
this kind alone. -/
def Program.Confined (values : κ → Prop) (acts : α → Prop) : Program κ α ε → Prop
  | .done => True
  | .raise _ => True
  | .get rest => ∀ context, values context → (rest context).Confined values acts
  | .act action rest => acts action ∧ rest.Confined values acts
  | .block value body rest =>
    values value ∧ body.Confined values acts ∧ rest.Confined values acts
  | .attempt body handler rest =>
    body.Confined values acts ∧ (∀ e, (handler e).Confined values acts) ∧
      rest.Confined values acts
  | .create task rest => task.Confined values acts ∧ rest.Confined values acts

/-- An effect of a program that is confined. -/
def Effect.Confined (values : κ → Prop) (acts : α → Prop) : Effect κ α ε → Prop
  | .acted action => acts action
  | .created context task => values context ∧ task.Confined values acts

variable {values : κ → Prop} {acts : α → Prop}

theorem Meaning.forall_andThen {P : Effect κ α ε → Prop} {m next : Meaning κ α ε}
    (hm : ∀ effect ∈ m.effects, P effect) (hnext : ∀ effect ∈ next.effects, P effect) :
    ∀ effect ∈ (m.andThen next).effects, P effect := by
  obtain ⟨own, raised⟩ := m
  cases raised with
  | none => exact List.forall_mem_append.mpr ⟨hm, hnext⟩
  | some e => exact hm

theorem Meaning.forall_orElse {P : Effect κ α ε → Prop} {m : Meaning κ α ε}
    {handler : ε → Meaning κ α ε} (hm : ∀ effect ∈ m.effects, P effect)
    (hhandler : ∀ e, ∀ effect ∈ (handler e).effects, P effect) :
    ∀ effect ∈ (m.orElse handler).effects, P effect := by
  obtain ⟨own, raised⟩ := m
  cases raised with
  | none => exact hm
  | some e => exact List.forall_mem_append.mpr ⟨hm, hhandler e⟩

theorem Program.Confined.effects {program : Program κ α ε} (h : program.Confined values acts)
    {context : κ} (hcontext : values context) :
    ∀ effect ∈ (program.meaning context).effects, effect.Confined values acts := by
  induction program generalizing context with
  | done => exact List.forall_mem_nil _
  | raise e => exact List.forall_mem_nil _
  | get rest ih => exact ih context (h context hcontext) hcontext
  | act action rest ih => exact List.forall_mem_cons.mpr ⟨h.1, ih h.2 hcontext⟩
  | block value body rest ihbody ihrest =>
    exact Meaning.forall_andThen (ihbody h.2.1 h.1) (ihrest h.2.2 hcontext)
  | attempt body handler rest ihbody ihhandler ihrest =>
    exact Meaning.forall_andThen
      (Meaning.forall_orElse (ihbody h.1 hcontext) fun e => ihhandler e (h.2.1 e) hcontext)
      (ihrest h.2.2 hcontext)
  | create task rest _ ih => exact List.forall_mem_cons.mpr ⟨⟨hcontext, h.1⟩, ih h.2 hcontext⟩

namespace System

/-- All tasks that come from a program with confined effects act as they may, in every
interleaving. -/
theorem confined_run {context : κ} {program : Program κ α ε}
    (h : ∀ effect ∈ (program.meaning context).effects, effect.Confined values acts)
    (schedule : List ℕ) :
    ∀ action ∈ (run next (init context program) schedule).actions, acts action := by
  have hrun : (run next (init context program) schedule).Faithful ∧
      ∀ t ∈ (run next (init context program) schedule).tasks,
        ∀ effect ∈ (t.program.meaning t.context).effects, effect.Confined values acts := by
    refine run_invariant (fun s : System κ α ε => s.Faithful ∧ ∀ t ∈ s.tasks,
      ∀ effect ∈ (t.program.meaning t.context).effects, effect.Confined values acts) ?_ ?_
    · refine ⟨faithful_init context program, fun t ht => ?_⟩
      cases List.mem_singleton.mp ht
      exact h
    · rintro s k s' - ⟨hfaithful, hconfined⟩ hs
      have hfaithful' := faithful_next hfaithful hs
      refine ⟨hfaithful', fun u hu => ?_⟩
      obtain ⟨t, ht, hs⟩ := Option.bind_eq_some_iff.mp hs
      obtain ⟨⟨effects, task⟩, -, rfl⟩ := Option.map_eq_some_iff.mp hs
      have heffects := hconfined t (List.mem_of_getElem? ht)
      rcases List.mem_append.mp hu with hold | hnew
      · rcases List.mem_or_eq_of_mem_set hold with hother | rfl
        · exact hconfined u hother
        · exact heffects
      · -- a new task was created by the task that made the step, so by what its program means
        obtain ⟨start, hstart, rfl⟩ := List.mem_map.mp hnew
        obtain ⟨effect, heffect, hkind⟩ := List.mem_filterMap.mp hstart
        have hdone := hfaithful'.beginning (List.mem_append_left _
          (List.mem_set (List.getElem?_eq_some_iff.mp ht).1 _))
        have hcreated := heffects effect (hdone.mem (List.mem_append_right _ heffect))
        cases effect with
        | acted _ => cases hkind
        | created _ _ =>
          cases hkind
          exact hcreated.2.effects hcreated.1
  intro action haction
  obtain ⟨t, ht, hmem⟩ := List.mem_flatMap.mp (hrun.1.actions.mem_iff.mp haction)
  obtain ⟨effect, heffect, hkind⟩ := List.mem_filterMap.mp hmem
  have hconfined := hrun.2 t ht effect ((hrun.1.beginning ht).mem heffect)
  cases effect with
  | acted _ =>
    cases hkind
    exact hconfined
  | created _ _ => cases hkind

end System

end OpenJobSpec.ContextVariables
