import OpenJobSpec.Client.AtomicBatch

/-! # What a further call of a batch terminal raises

An exception is an object: what a call raises can be the object that another
call raised before, or a new one that says the same. So a run of a batch is
followed with the identities of the objects that its terminals have to do with.
-/
namespace OpenJobSpec.Client
open Runs IndexedUpdates
variable {W : Type}

/-- The exception objects that one terminal has to do with, by their identities. -/
structure TerminalObjects where
  /-- the request of the first call -/
  candidate : Option JobRequest := none
  /-- `terminal_error` -/
  recorded : Option ℕ := none
  /-- the exception of the future -/
  future : Option ℕ := none
  /-- what the first call failed with -/
  failure : Option ℕ := none
  /-- what the last call raised -/
  raised : Option ℕ := none

namespace TerminalObjects

/-- What one step of an item shows of its terminal; an object that is made in it is new. -/
def observe (made : ℕ) (before after : BatchItem W) (objects : TerminalObjects) :
    TerminalObjects :=
  match before.chain, after.chain with
  | .executing (.building [] candidate _), .executing (.calling _) =>
    { objects with candidate := some candidate }
  | .executing (.building [] candidate _), .executing (.replying _ _) =>
    if before.reached then
      { objects with
        raised := if before.terminalError.isSome then objects.recorded else some made }
    else
      { objects with
        candidate := some candidate, recorded := some made, failure := some made
        raised := some made }
  | .executing (.calling _), .executing (.replying (.error (.exception _)) _) =>
    { objects with failure := objects.future, raised := objects.future }
  | _, _ => objects

/-- A future keeps the exception that it was given first. -/
def receive (object : ℕ) (item : BatchItem W) (objects : TerminalObjects) : TerminalObjects :=
  match item.terminal with
  | some ⟨_, .exception _⟩ => { objects with future := some (objects.future.getD object) }
  | _ => objects

theorem raised_receive (object : ℕ) (item : BatchItem W) (objects : TerminalObjects) :
    (objects.receive object item).raised = objects.raised := by
  unfold receive
  split <;> rfl

end TerminalObjects

structure ObjectRun (W : Type) where
  batch : BatchRun W
  objects : ℕ → TerminalObjects
  /-- how many steps there were, each of which can have made an object -/
  made : ℕ

namespace ObjectRun

def start (requests : List JobRequest) : ObjectRun W := ⟨.start requests, fun _ => {}, 0⟩

/-- The objects of an item after a step, which can have brought an object to its future. -/
def follow (s : ObjectRun W) (object : ℕ) (batch : BatchRun W) (index : ℕ) : TerminalObjects :=
  match s.batch.items[index]?, batch.items[index]? with
  | some before, some after => ((s.objects index).observe s.made before after).receive object after
  | _, _ => s.objects index

/-- A step comes with the object that it sets on futures: one that was made before, or a new one. -/
def next (middlewares : List (EnqueueMiddleware W)) (s : ObjectRun W) (input : BatchStep W × ℕ) :
    Option (ObjectRun W) :=
  (s.batch.next middlewares input.1).map fun batch =>
    ⟨batch, s.follow (min input.2 s.made) batch, s.made + 1⟩

def after (middlewares : List (EnqueueMiddleware W)) (requests : List JobRequest)
    (inputs : List (BatchStep W × ℕ)) : ObjectRun W :=
  run (next middlewares) (start requests) inputs

variable {middlewares : List (EnqueueMiddleware W)} {requests : List JobRequest} {s t : ObjectRun W}
  {input : BatchStep W × ℕ}

theorem follow_eq {object index : ℕ} {batch : BatchRun W} {before after : BatchItem W}
    (hbefore : s.batch.items[index]? = some before) (hafter : batch.items[index]? = some after) :
    s.follow object batch index =
      ((s.objects index).observe s.made before after).receive object after := by
  unfold follow
  rw [hbefore, hafter]

/-- The identities do not change what a batch does. -/
theorem batch_run (s : ObjectRun W) (inputs : List (BatchStep W × ℕ)) :
    (run (next middlewares) s inputs).batch =
      run (BatchRun.next middlewares) s.batch (inputs.map Prod.fst) := by
  induction inputs generalizing s with
  | nil => rfl
  | cons input rest ih =>
    rw [run_cons, ih, List.map_cons, run_cons]
    congr 1
    unfold apply next
    cases s.batch.next middlewares input.1 with
    | none => rfl
    | some batch => rfl

end ObjectRun

/-- A further call raises at once: the error that was kept, or the general one. -/
theorem dispatch_of_reached {item : BatchItem W} (h : item.reached = true)
    (candidate : JobRequest) (callers : List (Frame W)) :
    item.dispatch candidate callers =
      { item with
        chain := .executing (.replying
          (.error (.exception (item.terminalError.getD BatchItem.reinvoked))) callers) } := by
  unfold BatchItem.dispatch
  dsimp only
  rw [if_pos h]
  cases item.terminalError <;> rfl

/-! ## What is known of an object -/

/-- What an item and the objects of its terminal have in common. -/
structure Traced (made : ℕ) (item : BatchItem W) (objects : TerminalObjects) : Prop where
  recorded_lt : ∀ o ∈ objects.recorded, o < made
  future_lt : ∀ o ∈ objects.future, o < made
  failure_lt : ∀ o ∈ objects.failure, o < made
  reached : item.reached = objects.candidate.isSome
  kept : item.terminalError.isSome = objects.recorded.isSome
  invalid : ∀ candidate ∈ objects.candidate,
    objects.recorded.isSome ↔ ∃ e, validateRequest candidate = .error e
  original : ∀ o ∈ objects.recorded, objects.failure = some o
  accepted : item.terminal ≠ none → objects.recorded = none
  failed : objects.failure.isSome → item.reached = true

/-- An item of which no call of the terminal changed anything. -/
structure KeepsTerminal (a b : BatchItem W) : Prop where
  reached : b.reached = a.reached
  terminalError : b.terminalError = a.terminalError
  terminal : b.terminal ≠ none → a.terminal ≠ none

/-- An item whose chain took no step. -/
structure Idles (a b : BatchItem W) : Prop extends KeepsTerminal a b where
  chain : b.chain = a.chain

theorem Idles.refl (a : BatchItem W) : Idles a a := ⟨⟨rfl, rfl, id⟩, rfl⟩

theorem Idles.trans {a b c : BatchItem W} (hab : Idles a b) (hbc : Idles b c) : Idles a c :=
  ⟨⟨hbc.reached.trans hab.reached, hbc.terminalError.trans hab.terminalError,
    fun h => hab.terminal (hbc.terminal h)⟩, hbc.chain.trans hab.chain⟩

theorem Idles.resolve (outcome : FutureState) (a : BatchItem W) : Idles a (a.resolve outcome) := by
  rcases BatchItem.resolve_cases outcome a with heq | ⟨request, hpending, heq⟩
  · rw [heq]
    exact Idles.refl a
  · rw [heq]
    refine ⟨⟨rfl, rfl, fun _ => ?_⟩, rfl⟩
    rw [hpending]
    exact Option.some_ne_none _

theorem idles_updateAll {β : Type} (f : β → FutureState) (updates : List (ℕ × β))
    (items : List (BatchItem W)) :
    List.Forall₂ Idles items (updateAll (fun b => BatchItem.resolve (f b)) updates items) :=
  forall₂_updateAll Idles.refl (fun _ _ _ => Idles.trans) fun b item => Idles.resolve (f b) item

theorem idles_openBarrier (s : BatchRun W) : List.Forall₂ Idles s.items s.openBarrier.items := by
  have hreject : List.Forall₂ Idles s.items (s.items.mapIdx BatchRun.rejectSilent) := by
    refine forall₂_mapIdx fun i item => ?_
    rcases BatchRun.rejectSilent_cases i item with heq | heq
    · rw [heq]
      exact Idles.refl item
    · rw [heq]
      exact ⟨⟨rfl, rfl, id⟩, rfl⟩
  unfold BatchRun.openBarrier
  dsimp only
  split
  · refine forall₂_trans (R := Idles) (fun _ _ _ => Idles.trans) hreject ?_
    exact List.forall₂_map_right_iff.mpr
      (List.forall₂_same.mpr fun item _ => Idles.resolve _ item)
  · split <;> exact hreject

theorem idles_pushReturned (s : BatchRun W) (entries : List (ℕ × JobRequest)) (jobs : List Job) :
    List.Forall₂ Idles s.items (s.pushReturned entries jobs).items := by
  unfold BatchRun.pushReturned
  split
  · exact idles_updateAll _ _ s.items
  · exact idles_updateAll _ _ s.items

namespace Traced
variable {made : ℕ} {a b : BatchItem W} {objects : TerminalObjects}

theorem initial (request : JobRequest) : Traced 0 ({ request } : BatchItem W) {} := by
  refine ⟨nofun, nofun, nofun, rfl, rfl, ?_, nofun, fun h => absurd rfl h, ?_⟩
  · intro candidate h
    cases h
  · intro hfailed
    cases hfailed

theorem keeps (h : Traced made a objects) (hkeeps : KeepsTerminal a b) :
    Traced (made + 1) b objects := by
  have hlt : ∀ {known : Option ℕ}, (∀ o ∈ known, o < made) → ∀ o ∈ known, o < made + 1 :=
    fun hknown o ho => (hknown o ho).trans (Nat.lt_succ_self made)
  refine ⟨hlt h.recorded_lt, hlt h.future_lt, hlt h.failure_lt, hkeeps.reached.trans h.reached, ?_,
    h.invalid, h.original, fun ht => h.accepted (hkeeps.terminal ht),
    fun hf => hkeeps.reached.trans (h.failed hf)⟩
  rw [hkeeps.terminalError]
  exact h.kept

theorem receive (h : Traced made a objects) {object : ℕ} (hobject : object < made) :
    Traced made a (objects.receive object a) := by
  unfold TerminalObjects.receive
  split
  · refine ⟨h.recorded_lt, ?_, h.failure_lt, h.reached, h.kept, h.invalid, h.original, h.accepted,
      h.failed⟩
    rintro _ ⟨⟩
    cases hfuture : objects.future with
    | none => exact hobject
    | some o => exact h.future_lt o hfuture
  next => exact h

theorem unrecorded (h : Traced made a objects) (hreached : ¬a.reached = true) :
    objects.recorded = none := by
  cases hrecorded : objects.recorded with
  | none => rfl
  | some o =>
    refine absurd (h.failed ?_) hreached
    rw [h.original o hrecorded]
    rfl

section Dispatch
variable {candidate : JobRequest} {callers : List (Frame W)}

theorem dispatch_again (h : Traced made a objects)
    (hchain : a.chain = .executing (.building [] candidate callers)) (hreached : a.reached = true) :
    Traced (made + 1) (a.dispatch candidate callers)
      (objects.observe made a (a.dispatch candidate callers)) := by
  have hold := h.keeps (⟨rfl, rfl, id⟩ : KeepsTerminal a a)
  have hobserved : objects.observe made a (a.dispatch candidate callers) =
      { objects with
        raised := if a.terminalError.isSome then objects.recorded else some made } := by
    rw [dispatch_of_reached hreached, TerminalObjects.observe, hchain]
    exact if_pos hreached
  rw [hobserved, dispatch_of_reached hreached]
  exact ⟨hold.recorded_lt, hold.future_lt, hold.failure_lt, hold.reached, hold.kept,
    hold.invalid, hold.original, hold.accepted, hold.failed⟩

/-- The first call fails at once: its object is kept, and is the one of the first failure. -/
theorem dispatch_refused (h : Traced made a objects) (hs : a.Sound)
    (hchain : a.chain = .executing (.building [] candidate callers)) (hreached : ¬a.reached = true)
    {e : Exn} (hvalid : validateRequest candidate = .error e) :
    Traced (made + 1) (a.dispatch candidate callers)
      (objects.observe made a (a.dispatch candidate callers)) := by
  have hold := h.keeps (⟨rfl, rfl, id⟩ : KeepsTerminal a a)
  have hdispatch : a.dispatch candidate callers =
      { a with
        reached := true, terminalError := some e
        chain := .executing (.replying (.error (.exception e)) callers) } := by
    rw [BatchItem.dispatch, if_neg hreached, hvalid]
  rw [hdispatch, TerminalObjects.observe, hchain]
  dsimp only
  rw [if_neg hreached]
  have hnew : ∀ o ∈ some made, o < made + 1 := by
    rintro _ ⟨⟩
    exact Nat.lt_succ_self made
  refine ⟨hnew, hold.future_lt, hnew, rfl, rfl, ?_, fun _ ho => ho, ?_, fun _ => rfl⟩
  · rintro _ ⟨⟩
    exact iff_of_true rfl ⟨e, hvalid⟩
  · exact fun ht => absurd (hs.gate ht).1 hreached

theorem dispatch_accepted (h : Traced made a objects)
    (hchain : a.chain = .executing (.building [] candidate callers)) (hreached : ¬a.reached = true)
    (hvalid : validateRequest candidate = .ok ()) :
    Traced (made + 1) (a.dispatch candidate callers)
      (objects.observe made a (a.dispatch candidate callers)) := by
  have hold := h.keeps (⟨rfl, rfl, id⟩ : KeepsTerminal a a)
  have hunrecorded := h.unrecorded hreached
  have hdispatch : a.dispatch candidate callers =
      { a with
        reached := true, terminal := some ⟨candidate, .pending⟩, decided := true
        chain := .executing (.calling callers) } := by
    rw [BatchItem.dispatch, if_neg hreached, hvalid]
  rw [hdispatch, TerminalObjects.observe, hchain]
  dsimp only
  refine ⟨hold.recorded_lt, hold.future_lt, hold.failure_lt, rfl, hold.kept, ?_, hold.original,
    fun _ => hunrecorded, fun _ => rfl⟩
  rintro _ ⟨⟩
  rw [hunrecorded]
  refine iff_of_false Bool.false_ne_true ?_
  rintro ⟨e, he⟩
  rw [hvalid] at he
  cases he

/-- A call of the terminal, which the objects know as the first one or as a further one. -/
theorem dispatch (h : Traced made a objects) (hs : a.Sound)
    (hchain : a.chain = .executing (.building [] candidate callers)) :
    Traced (made + 1) (a.dispatch candidate callers)
      (objects.observe made a (a.dispatch candidate callers)) := by
  by_cases hreached : a.reached = true
  · exact h.dispatch_again hchain hreached
  · cases hvalid : validateRequest candidate with
    | error e => exact h.dispatch_refused hs hchain hreached hvalid
    | ok _ => exact h.dispatch_accepted hchain hreached hvalid

end Dispatch

/-- A step that is no call of the terminal and does not end one. -/
theorem observe_eq (hcall : ∀ candidate callers,
      a.chain ≠ .executing (.building [] candidate callers))
    (hend : ∀ callers, a.chain ≠ .executing (.calling callers)) (b : BatchItem W) :
    objects.observe made a b = objects := by
  unfold TerminalObjects.observe
  split
  next candidate callers _ hchain _ => exact absurd hchain (hcall candidate callers)
  next candidate callers _ _ hchain _ => exact absurd hchain (hcall candidate callers)
  next callers _ _ hchain _ => exact absurd hchain (hend callers)
  next => rfl

/-- The first call ends: what it raises is what the future was given. -/
theorem awaited (h : Traced made a objects) (hs : a.Sound) {callers : List (Frame W)}
    (hchain : a.chain = .executing (.calling callers)) {reply : Reply}
    (hb : b = { a with chain := .executing (.replying reply callers) }) :
    Traced (made + 1) b (objects.observe made a b) := by
  have hterminal : a.terminal ≠ none := hs.calling callers hchain
  have hold : Traced (made + 1) b objects := h.keeps (by rw [hb]; exact ⟨rfl, rfl, id⟩)
  unfold TerminalObjects.observe
  split
  next hcall _ => cases hchain.symm.trans hcall
  next hcall _ => cases hchain.symm.trans hcall
  next =>
    refine ⟨hold.recorded_lt, hold.future_lt, hold.future_lt, hold.reached, hold.kept, hold.invalid,
      ?_, hold.accepted, fun _ => ?_⟩
    · intro o ho
      rw [h.accepted hterminal] at ho
      cases ho
    · rw [hb]
      exact (hs.gate hterminal).1
  next => exact hold

theorem keeps_settle (reply : Reply) : KeepsTerminal a (a.settle reply) := by
  unfold BatchItem.settle
  dsimp only
  split <;> exact ⟨rfl, rfl, id⟩

theorem observe_idles (h : Idles a b) : objects.observe made a b = objects := by
  unfold TerminalObjects.observe
  rw [h.chain]
  split
  next hbefore hafter => cases hbefore.symm.trans hafter
  next hbefore hafter => cases hbefore.symm.trans hafter
  next hbefore hafter => cases hbefore.symm.trans hafter
  next => rfl

theorem proceed (h : Traced made a objects) (hs : a.Sound)
    {middlewares : List (EnqueueMiddleware W)} {world : W}
    (hp : a.proceed middlewares world = some b) :
    Traced (made + 1) b (objects.observe made a b) := by
  unfold BatchItem.proceed at hp
  split at hp
  next hchain =>
    rw [observe_eq (by simp [hchain]) (by simp [hchain])]
    split at hp
    · cases hp
      exact h.keeps (keeps_settle _)
    · cases hp
      exact h.keeps ⟨rfl, rfl, id⟩
  next candidate callers hchain =>
    cases hp
    exact h.dispatch hs hchain
  next callers hchain =>
    simp only [Option.bind_eq_bind, Option.bind_eq_some_iff, Option.pure_def, Option.some.injEq]
      at hp
    obtain ⟨_, _, reply, _, rfl⟩ := hp
    exact h.awaited hs hchain rfl
  next reply hchain =>
    cases hp
    rw [observe_eq (by simp [hchain]) (by simp [hchain])]
    exact h.keeps (keeps_settle reply)
  next execution hcall hend _ hchain =>
    simp only [Option.bind_eq_bind, Option.bind_eq_some_iff, Option.pure_def, Option.some.injEq]
      at hp
    obtain ⟨_, _, rfl⟩ := hp
    rw [observe_eq ?_ ?_]
    · exact h.keeps ⟨rfl, rfl, id⟩
    · intro candidate callers hbuilding
      rw [hchain] at hbuilding
      cases hbuilding
      exact hcall candidate callers rfl
    · intro callers hcalling
      rw [hchain] at hcalling
      cases hcalling
      exact hend callers rfl
  next => cases hp

theorem cancel (h : Traced made a objects) {world : W} (hc : a.cancel world = some b) :
    Traced (made + 1) b (objects.observe made a b) := by
  unfold BatchItem.cancel at hc
  split at hc
  next hchain =>
    cases hc
    rw [observe_eq (by simp [hchain]) (by simp [hchain])]
    exact h.keeps ⟨rfl, rfl, id⟩
  next hchain =>
    cases hc
    rw [observe_eq (by simp [hchain]) (by simp [hchain])]
    exact h.keeps ⟨rfl, rfl, id⟩
  next callers hchain =>
    cases hc
    have hkeeps := (Idles.resolve .cancelled a).toKeepsTerminal
    rw [TerminalObjects.observe, hchain]
    exact h.keeps ⟨hkeeps.reached, hkeeps.terminalError, hkeeps.terminal⟩
  next => cases hc

end Traced

namespace ObjectRun
variable {middlewares : List (EnqueueMiddleware W)} {requests : List JobRequest} {s t : ObjectRun W}
  {input : BatchStep W × ℕ}

/-- What one step does to an item, as its objects see it. -/
theorem traced_of_next (hs : BatchRun.Sound requests s.batch) {step : BatchStep W}
    {batch : BatchRun W} (hn : s.batch.next middlewares step = some batch) {i : ℕ}
    {after : BatchItem W} (hafter : batch.items[i]? = some after)
    (htraced : ∀ item, s.batch.items[i]? = some item → Traced s.made item (s.objects i)) :
    ∃ before, s.batch.items[i]? = some before ∧
      Traced (s.made + 1) after ((s.objects i).observe s.made before after) := by
  have hidle : List.Forall₂ Idles s.batch.items batch.items → ∃ before,
      s.batch.items[i]? = some before ∧
        Traced (s.made + 1) after ((s.objects i).observe s.made before after) := by
    intro hidles
    obtain ⟨before, hbefore, hidle⟩ := exists_of_forall₂ hidles hafter
    refine ⟨before, hbefore, ?_⟩
    rw [Traced.observe_idles hidle]
    exact (htraced before hbefore).keeps hidle.toKeepsTerminal
  have hsame : List.Forall₂ Idles s.batch.items s.batch.items :=
    List.forall₂_same.mpr fun item _ => Idles.refl item
  cases BatchRun.Transition.of_next hn with
  | @chain j a b world hj hb =>
    by_cases hi : j = i
    · have hlt : j < s.batch.items.length := (List.getElem?_eq_some_iff.mp hj).1
      rw [← hi, List.getElem?_set_self hlt] at hafter
      cases hafter
      rw [hi] at hj
      refine ⟨a, hj, ?_⟩
      rcases hb with hproceed | hcancel
      · exact (htraced a hj).proceed (hs.items a (List.mem_of_getElem? hj)) hproceed
      · exact (htraced a hj).cancel hcancel
    · rw [List.getElem?_set_ne hi] at hafter
      refine ⟨after, hafter, ?_⟩
      rw [Traced.observe_idles (Idles.refl after)]
      exact (htraced after hafter).keeps (Idles.refl after).toKeepsTerminal
  | opens => exact hidle (idles_openBarrier s.batch)
  | pushReturned _ jobs => exact hidle (idles_pushReturned s.batch _ jobs)
  | pushFailed => exact hidle (idles_updateAll _ _ s.batch.items)
  | raises => exact hidle hsame
  | concludes =>
    have hitems : s.batch.conclude.items = s.batch.items := by
      unfold BatchRun.conclude
      split <;> rfl
    exact hidle (hitems ▸ hsame)
  | unwinds => exact hidle hsame

/-- A batch in which the objects of every item are known. -/
structure Sound (requests : List JobRequest) (s : ObjectRun W) : Prop where
  batch : BatchRun.Sound requests s.batch
  traced : ∀ i item, s.batch.items[i]? = some item → Traced s.made item (s.objects i)

theorem Sound.next (h : Sound requests s) (hn : s.next middlewares input = some t) :
    Sound requests t := by
  obtain ⟨batch, hbatch, rfl⟩ := Option.map_eq_some_iff.mp hn
  refine ⟨h.batch.next hbatch, fun i after hafter => ?_⟩
  obtain ⟨before, hbefore, htraced⟩ := traced_of_next h.batch hbatch hafter (h.traced i)
  change Traced (s.made + 1) after (s.follow (min input.2 s.made) batch i)
  rw [follow_eq hbefore hafter]
  exact htraced.receive (Nat.lt_succ_of_le (min_le_right _ _))

theorem Sound.after (inputs : List (BatchStep W × ℕ)) :
    Sound requests (after middlewares requests inputs) := by
  refine run_invariant (Sound requests) ⟨BatchRun.Sound.start requests, ?_⟩
    fun _ _ _ _ h hn => h.next hn
  intro i item hitem
  obtain ⟨request, -, rfl⟩ := List.mem_map.mp (List.mem_of_getElem? hitem)
  exact Traced.initial request

/-! ## Further calls -/

/-- A call of the terminal of an item ends in one step, with an exception and without a push. -/
structure EndsAtOnce (s t : ObjectRun W) (index : ℕ) (callers : List (Frame W)) : Prop where
  raises : ∃ item e, t.batch.items[index]? = some item ∧
    item.chain = .executing (.replying (.error (.exception e)) callers)
  pushes : t.batch.pushes = s.batch.pushes
  phase : t.batch.phase = s.batch.phase

/-- The call that a chain stands at ends at once, with a given object. -/
def RaisesObject (middlewares : List (EnqueueMiddleware W)) (s : ObjectRun W)
    (step : BatchStep W × ℕ) (index : ℕ) (callers : List (Frame W)) (object : ℕ) : Prop :=
  ∃ t, s.next middlewares step = some t ∧ EndsAtOnce s t index callers ∧
    (t.objects index).raised = some object

variable (middlewares) in
theorem further_call_ends_at_once {index : ℕ} {item : BatchItem W} {candidate : JobRequest}
    {callers : List (Frame W)} (hitem : s.batch.items[index]? = some item)
    (hcall : item.chain = .executing (.building [] candidate callers))
    (hreached : item.reached = true) (world : W) (brings : ℕ) :
    ∃ t, s.next middlewares (.chain index world, brings) = some t ∧
      EndsAtOnce s t index callers ∧
      (t.objects index).raised =
        if item.terminalError.isSome then (s.objects index).recorded else some s.made := by
  have hproceed : item.proceed middlewares world = some (item.dispatch candidate callers) := by
    unfold BatchItem.proceed
    rw [hcall]
  have hdispatch := dispatch_of_reached hreached candidate callers
  have hlt : index < s.batch.items.length := (List.getElem?_eq_some_iff.mp hitem).1
  have hnext : s.batch.next middlewares (.chain index world) =
      some { s.batch with items := s.batch.items.set index (item.dispatch candidate callers) } := by
    simp only [BatchRun.next, hitem, hproceed, Option.bind_eq_bind, Option.bind_some,
      Option.pure_def]
  have hafter : (s.batch.items.set index (item.dispatch candidate callers))[index]? =
      some (item.dispatch candidate callers) := List.getElem?_set_self hlt
  refine ⟨_, Option.map_eq_some_iff.mpr ⟨_, hnext, rfl⟩,
    ⟨⟨_, item.terminalError.getD BatchItem.reinvoked, hafter, ?_⟩, rfl, rfl⟩, ?_⟩
  · rw [hdispatch]
  · change (s.follow _ _ index).raised = _
    rw [follow_eq hitem hafter, TerminalObjects.raised_receive, TerminalObjects.observe, hcall,
      hdispatch]
    dsimp only
    rw [if_pos hreached]

/-- The first request that a terminal was called with was refused. -/
def FirstRefused (objects : TerminalObjects) : Prop :=
  ∃ candidate e, objects.candidate = some candidate ∧ validateRequest candidate = .error e

/-- In every run of a batch, whatever has failed its terminal: a further call raises the object that
the terminal first failed with exactly when that was the refusal of its request. -/
theorem reinvocation_reports_original_iff {inputs : List (BatchStep W × ℕ)} {index : ℕ}
    {item : BatchItem W} {candidate : JobRequest} {callers : List (Frame W)} {failure : ℕ}
    (hitem : (after middlewares requests inputs).batch.items[index]? = some item)
    (hfailed : ((after middlewares requests inputs).objects index).failure = some failure)
    (hcall : item.chain = .executing (.building [] candidate callers)) (world : W) (brings : ℕ) :
    RaisesObject middlewares (after middlewares requests inputs) (.chain index world, brings) index
        callers failure ↔
      FirstRefused ((after middlewares requests inputs).objects index) := by
  have htraced := (Sound.after inputs).traced index item hitem
  generalize after middlewares requests inputs = s at *
  have hreached : item.reached = true := htraced.failed (by rw [hfailed]; rfl)
  obtain ⟨first, hfirst⟩ := Option.isSome_iff_exists.mp (htraced.reached.symm.trans hreached)
  have hrefused : FirstRefused (s.objects index) ↔ (s.objects index).recorded.isSome := by
    rw [htraced.invalid first hfirst]
    constructor
    · rintro ⟨candidate, e, hcandidate, he⟩
      rw [hfirst] at hcandidate
      cases hcandidate
      exact ⟨e, he⟩
    · rintro ⟨e, he⟩
      exact ⟨first, e, hfirst, he⟩
  obtain ⟨t, hnext, hends, hraised⟩ :=
    further_call_ends_at_once middlewares hitem hcall hreached world brings
  rw [hrefused]
  cases hrecorded : (s.objects index).recorded with
  | some object =>
    -- the error was kept, and it is the failure
    rw [htraced.kept, hrecorded, Option.isSome_some, if_pos rfl] at hraised
    have hsame := htraced.original object hrecorded
    exact iff_of_true ⟨t, hnext, hends, hraised.trans (hsame.symm.trans hfailed)⟩ rfl
  | none =>
    rw [htraced.kept, hrecorded, Option.isSome_none, if_neg Bool.false_ne_true] at hraised
    refine iff_of_false ?_ Bool.false_ne_true
    rintro ⟨t', hnext', -, hraised'⟩
    rw [Option.some.inj (hnext.symm.trans hnext'), hraised'] at hraised
    have hlt := htraced.failure_lt failure hfailed
    exact hlt.ne (Option.some.inj hraised)

/-- Calls `next` again and again, with the queue that it is set to. -/
def insistingOn (queue : String) : EnqueueMiddleware Unit := fun request _ =>
  .callNext { request with queue }

def email : JobRequest := { type := "email.send" }

def chainSteps (n : ℕ) : List (BatchStep Unit × ℕ) := List.replicate n (.chain 0 (), 0)

/-- The second call, behind a refused one. -/
theorem refused_retry :
    ∃ callers, RaisesObject [insistingOn ""] (after [insistingOn ""] [email] (chainSteps 6))
        (.chain 0 (), 0) 0 callers 3 ↔
      FirstRefused ((after [insistingOn ""] [email] (chainSteps 6)).objects 0) :=
  ⟨_, reinvocation_reports_original_iff rfl rfl rfl () 0⟩

def pushFails : List (BatchStep Unit × ℕ) :=
  chainSteps 4 ++ [(.barrierOpens, 0), (.pushFails (.connection "refused"), 5)] ++ chainSteps 3

/-- The call after a failed push raises an object of its own. -/
theorem failed_push_not_reported :
    ¬ ∀ (middlewares : List (EnqueueMiddleware Unit)) requests inputs (index : ℕ) item candidate
      callers failure,
      (after middlewares requests inputs).batch.items[index]? = some item →
      ((after middlewares requests inputs).objects index).failure = some failure →
      item.chain = .executing (.building [] candidate callers) →
      RaisesObject middlewares (after middlewares requests inputs) (.chain index (), 0) index
        callers failure := by
  intro hall
  obtain ⟨t, hnext, -, hraised⟩ := hall [insistingOn "mail"] [email] pushFails 0 _ _ _ 5 rfl rfl rfl
  have hnew : ((after [insistingOn "mail"] [email] pushFails).next [insistingOn "mail"]
      (.chain 0 (), 0)).map (fun t => (t.objects 0).raised) = some (some 9) := by
    decide +kernel
  rw [hnext, Option.map_some, hraised] at hnew
  cases hnew

end ObjectRun

end OpenJobSpec.Client
