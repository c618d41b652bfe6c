import OpenJobSpec.Client.BatchEnqueue

/-! # What one item of a batch can do

An item gets its terminal at most once, before its gate is set. After that its
request stays, a future that is done stays as it is, and a chain that settled
takes no step.
-/
namespace OpenJobSpec.Client.BatchItem

variable {W : Type} {item a b c : BatchItem W}

def accepted (item : BatchItem W) : Option JobRequest := item.terminal.map BatchTerminal.request

def chainResult (item : BatchItem W) : Option Job :=
  match item.chain with
  | .settled (.ok result) => result
  | _ => none

structure Sound (item : BatchItem W) : Prop where
  valid : ∀ t, item.terminal = some t → validateRequest t.request = .ok ()
  gate : item.terminal ≠ none → item.reached = true ∧ item.decided = true
  calling : ∀ callers, item.chain = .executing (.calling callers) → item.terminal ≠ none
  decided : item.decided = true → item.terminal ≠ none ∨ item.isSettled = true
  result : item.finalResult = item.chainResult
  raised : ∀ e, item.chain = .settled (.error (.exception e)) → item.chainError ≠ none

/-- What only grows, and what stays once it is there. -/
structure Advances (a b : BatchItem W) : Prop where
  request : b.request = a.request
  decided : a.decided = true → b.decided = true
  frozen : a.decided = true → b.accepted = a.accepted
  settled : a.isSettled = true → b.chain = a.chain
  done : ∀ t, a.terminal = some t → t.future ≠ .pending → b.terminal = some t

structure Quiet (a b : BatchItem W) : Prop extends Advances a b where
  results : ∀ t job, b.terminal = some t → t.future = .result job → a.terminal = some t

structure Moves (a b : BatchItem W) : Prop extends Quiet a b where
  ended : a.isSettled = true → b = a

theorem Advances.refl (a : BatchItem W) : Advances a a :=
  ⟨rfl, id, fun _ => rfl, fun _ => rfl, fun _ h _ => h⟩

theorem Advances.trans (hab : Advances a b) (hbc : Advances b c) : Advances a c := by
  refine ⟨hbc.request.trans hab.request, fun h => hbc.decided (hab.decided h), ?_, ?_, ?_⟩
  · intro h
    exact (hbc.frozen (hab.decided h)).trans (hab.frozen h)
  · intro h
    have hchain := hab.settled h
    have hb : b.isSettled = true := by
      unfold isSettled at h ⊢
      rwa [hchain]
    exact (hbc.settled hb).trans hchain
  · intro t ht hdone
    exact hbc.done t (hab.done t ht hdone) hdone

theorem Quiet.refl (a : BatchItem W) : Quiet a a :=
  ⟨Advances.refl a, fun _ _ h _ => h⟩

theorem Quiet.trans (hab : Quiet a b) (hbc : Quiet b c) : Quiet a c :=
  ⟨hab.toAdvances.trans hbc.toAdvances,
    fun t job h hjob => hab.results t job (hbc.results t job h hjob) hjob⟩

theorem Moves.refl (a : BatchItem W) : Moves a a :=
  ⟨Quiet.refl a, fun _ => rfl⟩

theorem chainResult_of_unsettled (h : item.isSettled = false) : item.chainResult = none := by
  unfold isSettled at h
  unfold chainResult
  cases hchain : item.chain with
  | created => rfl
  | executing execution => rfl
  | settled reply => simp [hchain] at h

theorem Sound.initial (request : JobRequest) : Sound ({ request } : BatchItem W) := by
  refine ⟨?_, ?_, ?_, ?_, rfl, ?_⟩ <;> simp

/-! ## Steps of the chain -/

theorem Moves.of_unsettled (hs : a.isSettled = false) (hrequest : b.request = a.request)
    (hdecided : a.decided = true → b.decided = true)
    (hfrozen : a.decided = true → b.accepted = a.accepted)
    (hdone : ∀ t, a.terminal = some t → t.future ≠ .pending → b.terminal = some t)
    (hresults : ∀ t job, b.terminal = some t → t.future = .result job → a.terminal = some t) :
    Moves a b := by
  have hnot : a.isSettled ≠ true := by simp [hs]
  exact ⟨⟨⟨hrequest, hdecided, hfrozen, fun h => absurd h hnot, hdone⟩, hresults⟩,
    fun h => absurd h hnot⟩

theorem Moves.of_terminal (hs : a.isSettled = false) (hrequest : b.request = a.request)
    (hdecided : a.decided = true → b.decided = true) (ht : b.terminal = a.terminal) :
    Moves a b := by
  refine Moves.of_unsettled hs hrequest hdecided ?_ ?_ ?_
  · intro _
    rw [accepted, ht, accepted]
  · intro t h _
    rw [ht, h]
  · intro t _ h _
    rw [← ht, h]

theorem Sound.executing (h : a.Sound) (hs : a.isSettled = false) {execution : Execution W}
    (hcalling : ∀ callers, execution = .calling callers → a.terminal ≠ none) :
    Sound { a with chain := .executing execution } := by
  refine ⟨h.valid, h.gate, ?_, ?_, ?_, ?_⟩
  · intro callers hchain
    cases hchain
    exact hcalling callers rfl
  · intro hd
    rcases h.decided hd with ht | hset
    · exact Or.inl ht
    · rw [hs] at hset
      cases hset
  · exact h.result.trans (chainResult_of_unsettled hs)
  · intro e hchain
    cases hchain

theorem Sound.settle (h : a.Sound) (hs : a.isSettled = false) (reply : Reply) :
    Sound (a.settle reply) ∧ Moves a (a.settle reply) := by
  have hnone : a.finalResult = none := h.result.trans (chainResult_of_unsettled hs)
  have hgate : a.terminal ≠ none → a.reached = true ∧ true = true := fun ht => ⟨(h.gate ht).1, rfl⟩
  match reply with
  | .ok result =>
    refine ⟨⟨h.valid, hgate, ?_, fun _ => Or.inr rfl, rfl, ?_⟩,
      Moves.of_terminal hs rfl (fun _ => rfl) rfl⟩
    · intro callers hchain
      cases hchain
    · intro e hchain
      cases hchain
  | .error (.exception e) =>
    refine ⟨⟨h.valid, hgate, ?_, fun _ => Or.inr rfl, hnone, ?_⟩,
      Moves.of_terminal hs rfl (fun _ => rfl) rfl⟩
    · intro callers hchain
      cases hchain
    · intro _ _
      exact Option.some_ne_none e
  | .error .cancelled =>
    refine ⟨⟨h.valid, hgate, ?_, fun _ => Or.inr rfl, hnone, ?_⟩,
      Moves.of_terminal hs rfl (fun _ => rfl) rfl⟩
    · intro callers hchain
      cases hchain
    · intro e hchain
      cases hchain

theorem Sound.dispatch (h : a.Sound) (hs : a.isSettled = false) (candidate : JobRequest)
    (callers : List (Frame W)) :
    Sound (a.dispatch candidate callers) ∧ Moves a (a.dispatch candidate callers) := by
  unfold BatchItem.dispatch
  dsimp only
  split
  · split <;> exact ⟨h.executing hs (by simp), Moves.of_terminal hs rfl id rfl⟩
  next hreached =>
    have hfresh : a.terminal = none := by
      by_contra ht
      exact hreached (h.gate ht).1
    have hopen : ¬ a.decided = true := by
      intro hd
      rcases h.decided hd with ht | hset
      · exact ht hfresh
      · rw [hs] at hset
        cases hset
    have hnone : a.finalResult = none := h.result.trans (chainResult_of_unsettled hs)
    split
    next e _ =>
      refine ⟨⟨h.valid, fun ht => absurd hfresh ht, ?_, fun hd => absurd hd hopen, hnone, ?_⟩,
        Moves.of_terminal hs rfl id rfl⟩
      · intro callers' hchain
        cases hchain
      · intro e' hchain
        cases hchain
    next hvalid =>
      refine ⟨⟨?_, fun _ => ⟨rfl, rfl⟩, fun _ _ => Option.some_ne_none _,
        fun _ => Or.inl (Option.some_ne_none _), hnone, ?_⟩,
        Moves.of_unsettled hs rfl (fun _ => rfl) (fun hd => absurd hd hopen) ?_ ?_⟩
      · intro t ht
        cases ht
        exact hvalid
      · intro e' hchain
        cases hchain
      · intro t ht
        rw [hfresh] at ht
        cases ht
      · intro t job ht hjob
        cases ht
        cases hjob

theorem isSettled_of_executing {execution : Execution W} (h : a.chain = .executing execution) :
    a.isSettled = false := by
  rw [isSettled, h]

theorem proceed_ne_calling {world : W} {before after : Execution W}
    (h : before.proceed world = some after) (callers : List (Frame W)) :
    after ≠ .calling callers := by
  unfold Execution.proceed at h
  split at h
  · cases h
    nofun
  · split at h <;> cases h <;> nofun
  · cases h
    nofun
  · cases h
    nofun
  all_goals cases h

theorem Sound.proceed {middlewares : List (EnqueueMiddleware W)} {world : W} (h : a.Sound)
    (hp : a.proceed middlewares world = some b) : b.Sound ∧ Moves a b := by
  unfold BatchItem.proceed at hp
  split at hp
  next hchain =>
    have hs : a.isSettled = false := by rw [isSettled, hchain]
    split at hp
    · cases hp
      exact h.settle hs _
    · cases hp
      exact ⟨h.executing hs (by simp [execute]), Moves.of_terminal hs rfl id rfl⟩
  next candidate callers hchain =>
    cases hp
    exact h.dispatch (isSettled_of_executing hchain) candidate callers
  next callers hchain =>
    have hs := isSettled_of_executing hchain
    simp only [Option.bind_eq_bind, Option.bind_eq_some_iff, Option.pure_def, Option.some.injEq]
      at hp
    obtain ⟨t, _, reply, _, rfl⟩ := hp
    exact ⟨h.executing hs (by simp), Moves.of_terminal hs rfl id rfl⟩
  next reply hchain =>
    cases hp
    exact h.settle (isSettled_of_executing hchain) reply
  next execution _ _ _ hchain =>
    have hs := isSettled_of_executing hchain
    simp only [Option.bind_eq_bind, Option.bind_eq_some_iff, Option.pure_def, Option.some.injEq]
      at hp
    obtain ⟨after, hafter, rfl⟩ := hp
    refine ⟨h.executing hs ?_, Moves.of_terminal hs rfl id rfl⟩
    intro callers heq
    exact absurd heq (proceed_ne_calling hafter callers)
  next => cases hp

/-- A chain that awaits its terminal goes on once the future is done. -/
theorem proceed_of_done {callers : List (Frame W)} {t : BatchTerminal}
    (hchain : a.chain = .executing (.calling callers)) (ht : a.terminal = some t)
    (hdone : t.future ≠ .pending) (middlewares : List (EnqueueMiddleware W)) (world : W) :
    (a.proceed middlewares world).isSome := by
  unfold BatchItem.proceed
  rw [hchain]
  dsimp only
  rw [ht]
  cases hfuture : t.future with
  | pending => exact absurd hfuture hdone
  | result job => simp [awaited, hfuture]
  | exception e => simp [awaited, hfuture]
  | cancelled => simp [awaited, hfuture]

/-! ## Resolving the terminal -/

theorem resolve_of_pending (outcome : FutureState) {request : JobRequest}
    (h : a.terminal = some ⟨request, .pending⟩) :
    a.resolve outcome = { a with terminal := some ⟨request, outcome⟩ } := by
  rw [resolve, h]

theorem resolve_of_done (outcome : FutureState)
    (h : ∀ request, a.terminal ≠ some ⟨request, .pending⟩) : a.resolve outcome = a := by
  unfold resolve
  split
  next request hpending => exact absurd hpending (h request)
  next => rfl

theorem resolve_cases (outcome : FutureState) (a : BatchItem W) :
    a.resolve outcome = a ∨ ∃ request, a.terminal = some ⟨request, .pending⟩ ∧
      a.resolve outcome = { a with terminal := some ⟨request, outcome⟩ } := by
  by_cases h : ∃ request, a.terminal = some ⟨request, .pending⟩
  · obtain ⟨request, hpending⟩ := h
    exact Or.inr ⟨request, hpending, resolve_of_pending outcome hpending⟩
  · rw [not_exists] at h
    exact Or.inl (resolve_of_done outcome h)

theorem Advances.resolve (outcome : FutureState) (a : BatchItem W) :
    Advances a (a.resolve outcome) := by
  rcases resolve_cases outcome a with heq | ⟨request, hpending, heq⟩
  · rw [heq]
    exact Advances.refl a
  · rw [heq]
    refine ⟨rfl, id, ?_, fun _ => rfl, ?_⟩
    · intro _
      rw [accepted, accepted, hpending]
      rfl
    · intro t ht hdone
      rw [hpending] at ht
      cases ht
      exact absurd rfl hdone

theorem Sound.resolve (h : a.Sound) (outcome : FutureState) : Sound (a.resolve outcome) := by
  rcases resolve_cases outcome a with heq | ⟨request, hpending, heq⟩
  · rw [heq]
    exact h
  · rw [heq]
    have hsome : a.terminal ≠ none := by simp [hpending]
    refine ⟨?_, fun _ => h.gate hsome, fun _ _ => Option.some_ne_none _,
      fun _ => Or.inl (Option.some_ne_none _), h.result, h.raised⟩
    intro t ht
    cases ht
    exact h.valid ⟨request, .pending⟩ hpending

theorem terminal_resolve {outcome : FutureState} {t : BatchTerminal}
    (h : (a.resolve outcome).terminal = some t) :
    a.terminal = some t ∧ t.future ≠ .pending ∨ t.future = outcome := by
  unfold resolve at h
  split at h
  next request _ =>
    cases h
    exact Or.inr rfl
  next hdone =>
    refine Or.inl ⟨h, ?_⟩
    intro hpending
    exact hdone t.request (by rw [h, ← hpending])

theorem Quiet.resolve {outcome : FutureState} (hout : ∀ job, outcome ≠ .result job)
    (a : BatchItem W) : Quiet a (a.resolve outcome) := by
  refine ⟨Advances.resolve outcome a, ?_⟩
  intro t job ht hjob
  rcases terminal_resolve ht with hbefore | houtcome
  · exact hbefore.1
  · exact absurd (houtcome.symm.trans hjob) (hout job)

theorem chain_resolve (outcome : FutureState) : (a.resolve outcome).chain = a.chain := by
  rcases resolve_cases outcome a with heq | ⟨request, _, heq⟩ <;> rw [heq]

theorem Sound.cancel {world : W} (h : a.Sound) (hc : a.cancel world = some b) :
    b.Sound ∧ Moves a b := by
  unfold BatchItem.cancel at hc
  split at hc
  next hchain =>
    cases hc
    have hs : a.isSettled = false := by rw [isSettled, hchain]
    refine ⟨⟨h.valid, h.gate, ?_, fun _ => Or.inr rfl, ?_, ?_⟩, Moves.of_terminal hs rfl id rfl⟩
    · intro callers hcalling
      cases hcalling
    · exact h.result.trans (chainResult_of_unsettled hs)
    · intro e hraised
      cases hraised
  next frame callers hchain =>
    cases hc
    have hs := isSettled_of_executing hchain
    exact ⟨h.executing hs (by simp), Moves.of_terminal hs rfl id rfl⟩
  next callers hchain =>
    cases hc
    have hs := isSettled_of_executing hchain
    have hs' : (a.resolve .cancelled).isSettled = false :=
      isSettled_of_executing ((chain_resolve _).trans hchain)
    have hquiet : Quiet a (a.resolve .cancelled) := Quiet.resolve (by simp) a
    exact ⟨(h.resolve _).executing hs' (by simp),
      Moves.of_unsettled hs hquiet.request hquiet.decided hquiet.frozen hquiet.done hquiet.results⟩
  next => cases hc

end OpenJobSpec.Client.BatchItem
