import OpenJobSpec.Sse.Resumption
import OpenJobSpec.Sse.StreamEvents

/-! # What one iteration of a subscription does, in order

The run is written out as the sequence of its actions. How the loop leaves a
connection decides everything: either it stops there, or the connection is one
that another follows.
-/
namespace OpenJobSpec.Sse

inductive Act
  | connect (headers : List (String × String))
  | deliver (event : SSEEvent)
  | sleep (delay : ℚ)
  | closeClient
deriving DecidableEq

namespace Act

def headers? : Act → Option (List (String × String))
  | connect headers => some headers
  | _ => none

def event? : Act → Option SSEEvent
  | deliver event => some event
  | _ => none

def delay? : Act → Option ℚ
  | sleep delay => some delay
  | _ => none

/-- Whether the action is a connection or a sleep, when it is one of them. -/
def turn : Act → Option Bool
  | connect _ => some true
  | sleep _ => some false
  | _ => none

end Act

/-- Connections and sleeps take turns, a connection first. A sleep that is cut short is the last
turn. -/
inductive Alternates : List Bool → Prop
  | last : Alternates [true]
  | cut : Alternates [true, false]
  | next {turns : List Bool} : Alternates turns → Alternates (true :: false :: turns)

namespace Connection

/-- A 204, or an error response whose body can be read. -/
def Final : Connection → Prop
  | .refused _ => False
  | .response r =>
    r.statusCode = 204 ∨ 400 ≤ r.statusCode ∧ ∀ failure, r.aread = some failure → ¬ Loss failure

def NoContent (c : Connection) : Prop := ∃ r, c = .response r ∧ r.statusCode = 204

/-- A stream that is read to its end. -/
def EndsInOrder (c : Connection) : Prop :=
  ∃ r, c = .response r ∧ r.statusCode < 400 ∧ r.failure = none

end Connection

namespace SubscriptionSession
variable (s : SubscriptionSession) (env : Environment)

def reconnectsAllowed : ℕ := if s.reconnect then s.maxReconnects else 0

/-- The `finally` clause. -/
def closing : List Act := if s.ownsClient then [.closeClient] else []

/-- The actions of a connection up to where the loop leaves it, then the way out. -/
def actsLeaving (id : String) (yielded : List SSEEvent) (sleeps : List ℚ) : List Act :=
  .connect (s.headers id) :: (yielded.map .deliver ++ sleeps.map .sleep ++ s.closing)

/-- The actions of the loop, in order. -/
def actsFrom (reconnects : ℕ) (lastEventId : String) : List Connection → List Act
  | [] => [.connect (s.headers lastEventId)]
  | c :: rest =>
    let (events, ended) := s.consumeOnce env lastEventId c
    if closesEarly (env.closesAt reconnects) events then
      s.actsLeaving lastEventId (events.take ((env.closesAt reconnects).getD 0 + 1)) []
    else
      match s.next reconnects ended with
      | .stop _ => s.actsLeaving lastEventId events []
      | .sleep delay =>
        match env.sleep reconnects with
        | some _ => s.actsLeaving lastEventId events [delay]
        | none =>
          .connect (s.headers lastEventId) :: (events.map .deliver ++ .sleep delay ::
            actsFrom (reconnects + 1) (lastIdOf lastEventId events) rest)

def acts (connections : List Connection) : List Act := s.actsFrom env 0 "" connections

/-- The events parsed from some connections, each parser seeded with the id of the last event. -/
def parsedFrom (lastEventId : String) : List Connection → List SSEEvent
  | [] => []
  | c :: rest =>
    let events :=
      ((SSEFrameParser.create s.malformedData lastEventId).parse env.loads c.lines).1
    events ++ parsedFrom (lastIdOf lastEventId events) rest

/-- How the loop stops at a connection: the consumer closes it, the connection ends it, or the
sleep after it is cut short. -/
inductive Stops (n : ℕ) (id : String) (c : Connection) :
    List SSEEvent → List ℚ → SessionOutcome → Prop
  | closed (j : ℕ) (hj : env.closesAt n = some j) :
    Stops n id c ((s.consumeOnce env id c).1.take (j + 1)) [] .closed
  | ended (outcome : SessionOutcome)
    (h : s.next n (s.consumeOnce env id c).2 = .stop outcome) :
    Stops n id c (s.consumeOnce env id c).1 [] outcome
  | cut (delay : ℚ) (r : Raised) : Stops n id c (s.consumeOnce env id c).1 [delay] (.raised r)

/-- A run that goes on after a connection, from the rest of the run. -/
def goingOn (id : String) (events : List SSEEvent) (delay : ℚ) (tail : SessionRun) :
    SessionRun where
  requests := s.headers id :: tail.requests
  yielded := events ++ tail.yielded
  sleeps := delay :: tail.sleeps
  clientCloses := tail.clientCloses
  outcome := tail.outcome

def actsGoingOn (id : String) (events : List SSEEvent) (delay : ℚ) (tail : List Act) : List Act :=
  .connect (s.headers id) :: (events.map .deliver ++ .sleep delay :: tail)

/-- The loop stops at a connection, or it goes on to the next one. -/
theorem loop_cons (n : ℕ) (id : String) (c : Connection) (rest : List Connection) :
    (∃ events sleeps outcome, Stops s env n id c events sleeps outcome ∧
      s.loop env n id (c :: rest) = s.leave env id events sleeps outcome ∧
      s.actsFrom env n id (c :: rest) = s.actsLeaving id events sleeps) ∨
    ∃ events delay, events = (s.consumeOnce env id c).1 ∧ Followed s env n c ∧
      s.loop env n id (c :: rest) =
        s.goingOn id events delay (s.loop env (n + 1) (lastIdOf id events) rest) ∧
      s.actsFrom env n id (c :: rest) =
        s.actsGoingOn id events delay (s.actsFrom env (n + 1) (lastIdOf id events) rest) := by
  rw [loop, actsFrom]
  dsimp only
  by_cases hclose : closesEarly (env.closesAt n) (s.consumeOnce env id c).1 = true
  · rw [if_pos hclose, if_pos hclose]
    rcases hj : env.closesAt n with _ | j
    · rw [hj] at hclose
      cases hclose
    · exact .inl ⟨_, _, _, .closed j hj, rfl, rfl⟩
  · rw [if_neg hclose, if_neg hclose]
    rcases hnext : s.next n (s.consumeOnce env id c).2 with outcome | delay
    · exact .inl ⟨_, _, _, .ended outcome hnext, rfl, rfl⟩
    · rcases hsleep : env.sleep n with _ | r
      · have hfollowed : Followed s env n c :=
          (followed_iff s env id n c).mpr ⟨by simpa using hclose, ⟨delay, hnext⟩, hsleep⟩
        exact .inr ⟨_, delay, rfl, hfollowed, rfl, rfl⟩
      · exact .inl ⟨_, _, _, .cut delay r, rfl, rfl⟩

theorem Stops.sleeps {n : ℕ} {id : String} {c : Connection} {events : List SSEEvent}
    {sleeps : List ℚ} {outcome : SessionOutcome} (h : Stops s env n id c events sleeps outcome) :
    sleeps = [] ∨ ∃ delay, sleeps = [delay] := by
  cases h with
  | closed => exact .inl rfl
  | ended => exact .inl rfl
  | cut delay => exact .inr ⟨delay, rfl⟩

theorem Stops.isPrefix {n : ℕ} {id : String} {c : Connection} {events : List SSEEvent}
    {sleeps : List ℚ} {outcome : SessionOutcome} (h : Stops s env n id c events sleeps outcome) :
    events <+: (s.consumeOnce env id c).1 := by
  cases h with
  | closed j => exact List.take_prefix (j + 1) _
  | ended => exact List.prefix_rfl
  | cut => exact List.prefix_rfl

theorem filterMap_closing {β : Type} (f : Act → Option β) (h : f .closeClient = none) :
    s.closing.filterMap f = [] := by
  unfold closing
  split
  · exact List.filterMap_cons_none h
  · rfl

theorem filterMap_actsLeaving {β : Type} (f : Act → Option β) (h : f .closeClient = none)
    (id : String) (yielded : List SSEEvent) (sleeps : List ℚ) :
    (s.actsLeaving id yielded sleeps).filterMap f =
      (f (.connect (s.headers id))).toList ++ yielded.filterMap (f ∘ .deliver) ++
        sleeps.filterMap (f ∘ .sleep) := by
  rw [actsLeaving, List.filterMap_cons, List.filterMap_append, List.filterMap_append,
    filterMap_closing s f h, List.append_nil, List.filterMap_map, List.filterMap_map]
  cases f (.connect (s.headers id)) <;> rfl

theorem filterMap_actsGoingOn {β : Type} (f : Act → Option β) (id : String)
    (events : List SSEEvent) (delay : ℚ) (tail : List Act) :
    (s.actsGoingOn id events delay tail).filterMap f =
      (f (.connect (s.headers id))).toList ++ events.filterMap (f ∘ .deliver) ++
        (f (.sleep delay)).toList ++ tail.filterMap f := by
  rw [actsGoingOn, List.filterMap_cons, List.filterMap_append, List.filterMap_cons,
    List.filterMap_map]
  cases f (.connect (s.headers id)) <;> cases f (.sleep delay) <;> simp

theorem count_map {α : Type} {f : α → Act} (h : ∀ x, f x ≠ .closeClient) (xs : List α) :
    (xs.map f).count .closeClient = 0 :=
  List.count_eq_zero.mpr fun hmem => by
    obtain ⟨x, _, hx⟩ := List.mem_map.mp hmem
    exact h x hx

theorem count_actsLeaving (id : String) (yielded : List SSEEvent) (sleeps : List ℚ) :
    (s.actsLeaving id yielded sleeps).count .closeClient = if s.ownsClient then 1 else 0 := by
  rw [actsLeaving, List.count_cons_of_ne (by simp), List.count_append, List.count_append,
    count_map (by simp), count_map (by simp), closing]
  split <;> rfl

theorem count_actsGoingOn (id : String) (events : List SSEEvent) (delay : ℚ) (tail : List Act) :
    (s.actsGoingOn id events delay tail).count .closeClient = tail.count .closeClient := by
  rw [actsGoingOn, List.count_cons_of_ne (by simp), List.count_append,
    List.count_cons_of_ne (by simp), count_map (by simp), Nat.zero_add]

/-- The actions are those the run counts. -/
theorem actsFrom_counts (n : ℕ) (id : String) (connections : List Connection) :
    (s.actsFrom env n id connections).filterMap Act.headers? =
        (s.loop env n id connections).requests ∧
      (s.actsFrom env n id connections).filterMap Act.event? =
        (s.loop env n id connections).yielded ∧
      (s.actsFrom env n id connections).filterMap Act.delay? =
        (s.loop env n id connections).sleeps ∧
      (s.actsFrom env n id connections).count .closeClient =
        (s.loop env n id connections).clientCloses := by
  induction connections generalizing n id with
  | nil => exact ⟨rfl, rfl, rfl, rfl⟩
  | cons c rest ih =>
    rcases loop_cons s env n id c rest with ⟨events, sleeps, outcome, _, hrun, hacts⟩ |
      ⟨events, delay, _, _, hrun, hacts⟩
    · rw [hrun, hacts, count_actsLeaving, filterMap_actsLeaving s _ rfl,
        filterMap_actsLeaving s _ rfl, filterMap_actsLeaving s _ rfl]
      refine ⟨?_, ?_, ?_, rfl⟩
      · simp [Function.comp_def, Act.headers?, leave]
      · simp [Function.comp_def, Act.event?, leave]
      · simp [Function.comp_def, Act.delay?, leave]
    · obtain ⟨hheaders, hevents, hdelays, hcloses⟩ := ih (n + 1) (lastIdOf id events)
      rw [hrun, hacts, count_actsGoingOn, filterMap_actsGoingOn, filterMap_actsGoingOn,
        filterMap_actsGoingOn, hheaders, hevents, hdelays, hcloses]
      refine ⟨?_, ?_, ?_, rfl⟩
      · simp [Function.comp_def, Act.headers?, goingOn]
      · simp [Function.comp_def, Act.event?, goingOn]
      · simp [Function.comp_def, Act.delay?, goingOn]

/-- Connections and sleeps take turns. -/
theorem actsFrom_alternates (n : ℕ) (id : String) (connections : List Connection) :
    Alternates ((s.actsFrom env n id connections).filterMap Act.turn) := by
  induction connections generalizing n id with
  | nil => exact .last
  | cons c rest ih =>
    rcases loop_cons s env n id c rest with ⟨events, sleeps, outcome, hstop, _, hacts⟩ |
      ⟨events, delay, _, _, _, hacts⟩
    · rw [hacts, filterMap_actsLeaving s _ rfl]
      rcases hstop.sleeps with rfl | ⟨delay, rfl⟩
      · simpa [Function.comp_def, Act.turn] using Alternates.last
      · simpa [Function.comp_def, Act.turn] using Alternates.cut
    · rw [hacts, filterMap_actsGoingOn]
      simpa [Function.comp_def, Act.turn] using (ih (n + 1) (lastIdOf id events)).next

/-- The way out ends a run as the loop left it, unless closing the client raises. -/
theorem leave_outcome (id : String) (events : List SSEEvent) (sleeps : List ℚ)
    (outcome : SessionOutcome) :
    (s.leave env id events sleeps outcome).outcome = some outcome ∨
      ∃ r, (s.leave env id events sleeps outcome).outcome = some (.raised r) := by
  unfold leave
  rcases s.ownsClient with _ | _
  · exact .inl rfl
  · rcases env.aclose with _ | r
    · exact .inl rfl
    · exact .inr ⟨r, rfl⟩

/-- An iteration is complete once it is left by a return, an exception or a close. -/
theorem clientCloses_of_outcome {n : ℕ} {id : String} {connections : List Connection}
    (h : (s.loop env n id connections).outcome.isSome) :
    (s.loop env n id connections).clientCloses = if s.ownsClient then 1 else 0 := by
  induction connections generalizing n id with
  | nil => cases h
  | cons c rest ih =>
    rcases loop_cons s env n id c rest with ⟨events, sleeps, outcome, _, hrun, _⟩ |
      ⟨events, delay, _, _, hrun, _⟩
    · rw [hrun]
      rfl
    · rw [hrun] at h ⊢
      exact ih h

/-- A run that is not complete waits for the answer to the request after the last connection. -/
theorem requests_of_waiting {n : ℕ} {id : String} {connections : List Connection}
    (h : (s.loop env n id connections).outcome = none) :
    (s.loop env n id connections).requests.length = connections.length + 1 := by
  induction connections generalizing n id with
  | nil => rfl
  | cons c rest ih =>
    rcases loop_cons s env n id c rest with ⟨events, sleeps, outcome, _, hrun, _⟩ |
      ⟨events, delay, _, _, hrun, _⟩
    · rw [hrun] at h
      rcases leave_outcome s env id events sleeps outcome with hout | ⟨r, hout⟩
      · rw [hout] at h
        cases h
      · rw [hout] at h
        cases h
    · rw [hrun] at h ⊢
      exact congrArg (· + 1) (ih h)

theorem consumeOnce_parse (id : String) (c : Connection) :
    (s.consumeOnce env id c).1 =
      ((SSEFrameParser.create s.malformedData id).parse env.loads c.lines).1 := by
  rw [SSEFrameParser.parse_eq]
  cases c with
  | refused failure => rfl
  | response r =>
    by_cases hstatus : r.statusCode < 400
    · by_cases h204 : r.statusCode = 204
      · simp only [consumeOnce, (raiseForError_eq_none_iff env.reader r).mpr hstatus, if_pos h204,
          Connection.lines, if_neg fun hl : r.statusCode < 400 ∧ r.statusCode ≠ 204 => hl.2 h204]
        rfl
      · rw [consumeOnce_response s env id hstatus h204, Connection.lines,
          if_pos ⟨hstatus, h204⟩, SSEFrameParser.feedAll_create]
        rcases readBlocks env.loads s.malformedData id (blocks r.lines) with ⟨events, _ | e⟩
        · cases r.failure <;> rfl
        · rfl
    · obtain ⟨failure, hfailure⟩ := raiseForError_of_error env.reader hstatus
      simp only [consumeOnce, hfailure, Connection.lines,
        if_neg fun hl : r.statusCode < 400 ∧ r.statusCode ≠ 204 => hstatus hl.1]
      rfl

/-- What is yielded is a beginning of what was parsed, and all of it unless the consumer closes
the iterator. -/
theorem yielded_parsed (n : ℕ) (id : String) (connections : List Connection) :
    (s.loop env n id connections).yielded <+: s.parsedFrom env id
        (connections.take (s.loop env n id connections).requests.length) ∧
      ((∀ k, env.closesAt k = none) → (s.loop env n id connections).yielded = s.parsedFrom env id
        (connections.take (s.loop env n id connections).requests.length)) := by
  induction connections generalizing n id with
  | nil => exact ⟨List.prefix_rfl, fun _ => rfl⟩
  | cons c rest ih =>
    rcases loop_cons s env n id c rest with ⟨events, sleeps, outcome, hstop, hrun, _⟩ |
      ⟨events, delay, hevents, _, hrun, _⟩
    · have hone : s.parsedFrom env id ((c :: rest).take 1) = (s.consumeOnce env id c).1 := by
        rw [consumeOnce_parse]
        exact List.append_nil _
      rw [hrun]
      refine ⟨hone ▸ hstop.isPrefix, fun hnone => hone ▸ ?_⟩
      cases hstop with
      | closed j hj => exact absurd (hnone n) (by simp [hj])
      | ended => rfl
      | cut => rfl
    · obtain ⟨hinitial, heq⟩ := ih (n + 1) (lastIdOf id events)
      rw [hrun]
      simp only [goingOn, List.length_cons, List.take_succ_cons, parsedFrom,
        ← consumeOnce_parse, ← hevents]
      exact ⟨(List.prefix_append_right_inj events).mpr hinitial,
        fun hnone => congrArg (events ++ ·) (heq hnone)⟩

theorem next_eq_returned {n : ℕ} {ended : ConsumeEnd} (h : s.next n ended = .stop .returned) :
    ended = .terminated ∨ ended = .exhausted ∧ s.canReconnect n = false := by
  have hsleep : s.sleepNext n ≠ .stop .returned := by
    unfold sleepNext
    cases s.pause (n + 1) <;> simp
  cases ended with
  | terminated => exact .inl rfl
  | exhausted =>
    refine .inr ⟨rfl, ?_⟩
    by_contra hcan
    rw [next, if_pos (by simpa using hcan)] at h
    exact hsleep h
  | raised r =>
    rw [next] at h
    split at h
    · exact absurd h hsleep
    · cases h

theorem consumeOnce_normally {id : String} {c : Connection} {ended : ConsumeEnd}
    (h : (s.consumeOnce env id c).2 = ended) (hended : ∀ r, ended ≠ .raised r) :
    ∃ r, c = .response r ∧ r.statusCode < 400 ∧
      (ended = .terminated ∧ r.statusCode = 204 ∨ ended = .exhausted ∧ r.failure = none) := by
  cases c with
  | refused failure => exact absurd h.symm (hended _)
  | response r =>
    by_cases hstatus : r.statusCode < 400
    · refine ⟨r, rfl, hstatus, ?_⟩
      by_cases h204 : r.statusCode = 204
      · simp only [consumeOnce, (raiseForError_eq_none_iff env.reader r).mpr hstatus,
          if_pos h204] at h
        exact .inl ⟨h.symm, h204⟩
      · rw [consumeOnce_response s env id hstatus h204] at h
        rcases hbs : readBlocks env.loads s.malformedData id (blocks r.lines)
          with ⟨events, _ | e⟩
        · rcases hf : r.failure with _ | failure
          · rw [hbs, hf] at h
            exact .inr ⟨h.symm, rfl⟩
          · rw [hbs, hf] at h
            exact absurd h.symm (hended _)
        · rw [hbs] at h
          exact absurd h.symm (hended _)
    · obtain ⟨failure, hfailure⟩ := raiseForError_of_error env.reader hstatus
      simp only [consumeOnce, hfailure] at h
      exact absurd h.symm (hended _)

theorem consumeOnce_terminated {id : String} {c : Connection}
    (h : (s.consumeOnce env id c).2 = .terminated) : c.NoContent := by
  obtain ⟨r, rfl, _, ⟨_, h204⟩ | ⟨hended, _⟩⟩ :=
    consumeOnce_normally s env h (by simp)
  · exact ⟨r, rfl, h204⟩
  · cases hended

theorem consumeOnce_exhausted {id : String} {c : Connection}
    (h : (s.consumeOnce env id c).2 = .exhausted) : c.EndsInOrder := by
  obtain ⟨r, rfl, hstatus, ⟨hended, _⟩ | ⟨_, hfailure⟩⟩ :=
    consumeOnce_normally s env h (by simp)
  · cases hended
  · exact ⟨r, rfl, hstatus, hfailure⟩

/-- The iteration returns after a 204, or after the end of a stream that nothing may follow. -/
theorem returned_after {n : ℕ} {id : String} {connections : List Connection}
    (h : (s.loop env n id connections).outcome = some .returned) :
    ∃ k c, (s.loop env n id connections).requests.length = k + 1 ∧ connections[k]? = some c ∧
      (c.NoContent ∨ c.EndsInOrder ∧ s.canReconnect (n + k) = false) := by
  induction connections generalizing n id with
  | nil => cases h
  | cons c rest ih =>
    rcases loop_cons s env n id c rest with ⟨events, sleeps, outcome, hstop, hrun, _⟩ |
      ⟨events, delay, _, _, hrun, _⟩
    · refine ⟨0, c, by rw [hrun]; rfl, rfl, ?_⟩
      rw [hrun] at h
      obtain rfl : outcome = .returned := by
        rcases leave_outcome s env id events sleeps outcome with hout | ⟨r, hout⟩
        · exact Option.some.inj (hout.symm.trans h)
        · rw [hout] at h
          cases h
      cases hstop with
      | ended outcome hnext =>
        rcases next_eq_returned s hnext with hended | ⟨hended, hcan⟩
        · exact .inl (consumeOnce_terminated s env hended)
        · exact .inr ⟨consumeOnce_exhausted s env hended, hcan⟩
    · rw [hrun] at h ⊢
      obtain ⟨k, c', hk, hc', hend⟩ := ih h
      exact ⟨k + 1, c', congrArg (· + 1) hk, hc', by rwa [Nat.add_right_comm] at hend⟩

theorem Followed.not_final {n : ℕ} {c : Connection} (h : Followed s env n c) : ¬ c.Final := by
  rintro hfinal
  have hdrops := h.drops
  cases c with
  | refused failure => exact hfinal
  | response r =>
    rw [Connection.Drops] at hdrops
    rcases hfinal with h204 | ⟨hstatus, hread⟩
    · rw [if_pos (by rw [h204]; decide)] at hdrops
      exact hdrops.1 h204
    · rw [if_neg (not_lt.mpr hstatus)] at hdrops
      obtain ⟨failure, hfailure, hloss⟩ := hdrops
      exact hread failure hfailure hloss

/-- A request is made only after every connection before it was one that another follows. -/
theorem followed_of_lt_requests {connections : List Connection} {k : ℕ}
    (h : k + 1 < (s.events env connections).requests.length) :
    ∃ c, connections[k]? = some c ∧ Followed s env k c :=
  ((events_requests_iff s env connections (k + 1) _).mp (List.getElem?_eq_getElem h)).1 k
    k.lt_succ_self

theorem requests_pos (connections : List Connection) :
    1 ≤ (s.events env connections).requests.length := by
  have hfirst := (events_requests_iff s env connections 0 _).mpr
    ⟨fun i hi => absurd hi (Nat.not_lt_zero i), rfl⟩
  exact (List.getElem?_eq_some_iff.mp hfirst).1

theorem requests_le (connections : List Connection) :
    (s.events env connections).requests.length ≤ 1 + s.reconnectsAllowed := by
  by_contra hlt
  have hmore : s.reconnectsAllowed + 1 < (s.events env connections).requests.length := by omega
  obtain ⟨c, _, hfollowed⟩ := followed_of_lt_requests s env hmore
  have hallowed := hfollowed.allowed
  rw [canReconnect, Bool.and_eq_true, decide_eq_true_eq, reconnectsAllowed] at hallowed
  rw [if_pos hallowed.1] at hallowed
  exact lt_irrefl _ hallowed.2

end SubscriptionSession

/-- An iteration that opens a bounded number of connections, sleeps once between two of them, and
yields what they are parsed to. -/
structure Orderly (s : SubscriptionSession) (env : Environment) (connections : List Connection) :
    Prop where
  opened : 1 ≤ (s.events env connections).requests.length ∧
    (s.events env connections).requests.length ≤ 1 + s.reconnectsAllowed
  completes : s.reconnectsAllowed < connections.length →
    (s.events env connections).outcome.isSome
  connects : (s.acts env connections).filterMap Act.headers? = (s.events env connections).requests
  delivers : (s.acts env connections).filterMap Act.event? = (s.events env connections).yielded
  waits : (s.acts env connections).filterMap Act.delay? = (s.events env connections).sleeps
  paced : Alternates ((s.acts env connections).filterMap Act.turn)
  nothing_else : (s.events env connections).yielded <+:
    s.parsedFrom env "" (connections.take (s.events env connections).requests.length)
  nothing_lost : (∀ k, env.closesAt k = none) → (s.events env connections).yielded =
    s.parsedFrom env "" (connections.take (s.events env connections).requests.length)
  stops : ∀ k c, connections[k]? = some c → c.Final →
    (s.events env connections).requests.length ≤ k + 1
  returns : (s.events env connections).outcome = some .returned →
    ∃ k c, (s.events env connections).requests.length = k + 1 ∧ connections[k]? = some c ∧
      (c.NoContent ∨ c.EndsInOrder ∧ s.canReconnect k = false)
  closes : (s.events env connections).outcome.isSome →
    (s.acts env connections).count .closeClient = if s.ownsClient then 1 else 0

theorem iteration_orderly (s : SubscriptionSession) (env : Environment)
    (connections : List Connection) : Orderly s env connections := by
  obtain ⟨hheaders, hevents, hdelays, hcloses⟩ :=
    SubscriptionSession.actsFrom_counts s env 0 "" connections
  obtain ⟨hinitial, hall⟩ := SubscriptionSession.yielded_parsed s env 0 "" connections
  have hle := SubscriptionSession.requests_le s env connections
  refine ⟨⟨SubscriptionSession.requests_pos s env connections, hle⟩, fun hlong => ?_, hheaders,
    hevents, hdelays, SubscriptionSession.actsFrom_alternates s env 0 "" connections, hinitial,
    hall, fun k c hc hfinal => ?_, fun hreturned => ?_, fun hout => ?_⟩
  · by_contra hnone
    have hpending : (s.loop env 0 "" connections).outcome = none :=
      Option.not_isSome_iff_eq_none.mp hnone
    have hwaiting := SubscriptionSession.requests_of_waiting s env hpending
    rw [SubscriptionSession.events] at hle
    omega
  · by_contra hlt
    obtain ⟨c', hc', hfollowed⟩ :=
      SubscriptionSession.followed_of_lt_requests s env (not_le.mp hlt)
    cases hc.symm.trans hc'
    exact SubscriptionSession.Followed.not_final s env hfollowed hfinal
  · obtain ⟨k, c, hk, hc, hend⟩ := SubscriptionSession.returned_after s env hreturned
    rw [Nat.zero_add] at hend
    exact ⟨k, c, hk, hc, hend⟩
  · exact hcloses.trans (SubscriptionSession.clientCloses_of_outcome s env hout)

/-- An error response whose body breaks off. -/
def unreadError : SSEResponse :=
  ⟨503, [], "", .error (.valueError, ""), some (.exception (.request .readTimeout "")), [], none⟩

/-- A body that cannot be read is a lost connection, whatever the status was. -/
theorem unread_error_reconnects :
    ¬ ∀ (s : SubscriptionSession) (env : Environment) (connections : List Connection) (k : ℕ)
      (r : SSEResponse), connections[k]? = some (.response r) → 400 ≤ r.statusCode →
        (s.events env connections).requests.length ≤ k + 1 := by
  intro h
  have hone := h exampleSession exampleEnvironment [.response unreadError] 0 unreadError rfl
    (by decide)
  exact absurd hone (by decide +kernel)

end OpenJobSpec.Sse
