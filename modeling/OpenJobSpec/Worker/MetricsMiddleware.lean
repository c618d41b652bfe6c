import OpenJobSpec.Foundation.Observers
import OpenJobSpec.Worker.ExecutionRetry
import OpenJobSpec.Wire.Job

/-! # The metrics and the logging middleware

Both go around the rest of a chain and write down what came of it. A recorder is
whatever it raises for a call after the calls before, and the clock is whatever its
readings are, so what is written stands beside the context of the job.
-/
namespace OpenJobSpec.Worker
open Observers
variable {S : Type}

inductive MetricEvent
  | jobStarted (jobType queue : String)
  | jobCompleted (jobType queue : String) (duration : ℚ)
  | jobFailed (jobType queue : String) (duration : ℚ) (error : Exn)
  deriving DecidableEq

inductive LogRecord
  | started (jobType jobId : String) (attempt : ℤ)
  | completed (jobType jobId : String) (milliseconds : ℚ)
  | failed (jobType jobId : String) (milliseconds : ℚ)
  deriving DecidableEq

/-- The calls of recorders, the records of loggers and the number of readings of the clock. -/
structure Observed where
  events : List MetricEvent
  records : List LogRecord
  readings : ℕ
  deriving DecidableEq

namespace Observed

def read (o : Observed) : Observed := { o with readings := o.readings + 1 }

def called (o : Observed) (event : MetricEvent) : Observed :=
  { o with events := o.events ++ [event] }

def logged (o : Observed) (record : LogRecord) : Observed :=
  { o with records := o.records ++ [record] }

end Observed

/-- What the recorder raises for a call, after the calls before. -/
abbrev MetricsRecorder := List MetricEvent → MetricEvent → Option Exn

/-- `_record_metric`. -/
def recordMetric (recorder : MetricsRecorder) (failOpen : Bool) (event : MetricEvent)
    (o : Observed) : Option Exn × Observed :=
  (if failOpen then none else recorder o.events event, o.called event)

/-- What a middleware reads of the context of a job, and `time.monotonic` by the number of its
readings. -/
structure Surroundings (S : Type) where
  job : S → Job
  attempt : S → ℤ
  clock : ℕ → ℚ

variable (env : Surroundings S)

/-- `metrics_middleware(recorder, fail_open=...)`. -/
def metricsMiddleware (recorder : MetricsRecorder) (failOpen : Bool) :
    ExecutionMiddleware (S × Observed) := fun next s =>
  let jobType := (env.job s.1).type
  let queue := (env.job s.1).queue
  let start := env.clock s.2.readings
  match recordMetric recorder failOpen (.jobStarted jobType queue) s.2.read with
  | (some error, o) => (.error (.exception error), (s.1, o))
  | (none, o) =>
    match next (s.1, o) with
    | (.error (.exception exc), (t, o)) =>
      let duration := env.clock o.readings - start
      match recordMetric recorder failOpen (.jobFailed jobType queue duration exc) o.read with
      | (some error, o) => (.error (.exception error), (t, o))
      | (none, o) => (.error (.exception exc), (t, o))
    | (.error .cancelled, u) => (.error .cancelled, u)
    | (.ok result, (t, o)) =>
      let duration := env.clock o.readings - start
      match recordMetric recorder failOpen (.jobCompleted jobType queue duration) o.read with
      | (some error, o) => (.error (.exception error), (t, o))
      | (none, o) => (.ok result, (t, o))

/-- `logging_middleware()`; a logger swallows the errors of its handlers. -/
def loggingMiddleware : ExecutionMiddleware (S × Observed) := fun next s =>
  let job := env.job s.1
  let o := s.2.logged (.started job.type job.id (env.attempt s.1))
  let start := env.clock o.readings
  match next (s.1, o.read) with
  | (.ok result, (t, o)) =>
    let elapsed := env.clock o.readings - start
    (.ok result, (t, o.read.logged (.completed job.type job.id (elapsed * 1000))))
  | (.error (.exception exc), (t, o)) =>
    let elapsed := env.clock o.readings - start
    (.error (.exception exc), (t, o.read.logged (.failed job.type job.id (elapsed * 1000))))
  | (.error .cancelled, u) => (.error .cancelled, u)

/-! ## Fail-open metrics and logging observe -/

/-- What fail-open metrics write before and after the rest of the chain. -/
def watchMetrics (s : S) (o : Observed) :
    Observed × (Except Raised Json → S → Observed → Observed) :=
  let jobType := (env.job s).type
  let queue := (env.job s).queue
  let start := env.clock o.readings
  (o.read.called (.jobStarted jobType queue), fun outcome _ o =>
    match outcome with
    | .error (.exception exc) =>
      o.read.called (.jobFailed jobType queue (env.clock o.readings - start) exc)
    | .error .cancelled => o
    | .ok _ => o.read.called (.jobCompleted jobType queue (env.clock o.readings - start)))

def watchLogging (s : S) (o : Observed) :
    Observed × (Except Raised Json → S → Observed → Observed) :=
  let job := env.job s
  let start := env.clock o.readings
  ((o.logged (.started job.type job.id (env.attempt s))).read, fun outcome _ o =>
    match outcome with
    | .ok _ => o.read.logged (.completed job.type job.id ((env.clock o.readings - start) * 1000))
    | .error (.exception _) =>
      o.read.logged (.failed job.type job.id ((env.clock o.readings - start) * 1000))
    | .error .cancelled => o)

theorem recordMetric_open (recorder : MetricsRecorder) (event : MetricEvent) (o : Observed) :
    recordMetric recorder true event o = (none, o.called event) := rfl

theorem metricsMiddleware_observes (recorder : MetricsRecorder) :
    metricsMiddleware env recorder true = Layer.around (.observer (watchMetrics env)) := by
  funext next s
  unfold metricsMiddleware Layer.around watchMetrics
  simp only [recordMetric_open]
  rcases next (s.1, s.2.read.called _) with ⟨outcome | result, t, o⟩
  · cases outcome <;> rfl
  · rfl

theorem loggingMiddleware_observes :
    loggingMiddleware env = Layer.around (.observer (watchLogging env)) := by
  funext next s
  unfold loggingMiddleware Layer.around watchLogging
  dsimp only
  rcases next _ with ⟨outcome | result, t, o⟩
  · cases outcome <;> rfl
  · rfl

/-! ## Retries are a program of runs -/

namespace ExecutionRetry
variable (r : ExecutionRetry) (sleep : ℕ → ℚ → Option Raised)

/-- The loop of `run` as the runs that it asks for. -/
def calls : (remaining attempt : ℕ) → S → Calls (Except Raised Json) S
  | 0, _, s => .next s .finish
  | remaining + 1, attempt, s => .next s fun outcome t =>
    match outcome with
    | .error (.exception _) =>
      match r.delay attempt with
      | .error overflow => .finish (.error (.exception overflow)) t
      | .ok delay =>
        match sleep attempt delay with
        | some raised => .finish (.error raised) t
        | none => calls remaining (attempt + 1) t
    | done => .finish done t

theorem run_calls (next : Exec S) (remaining attempt : ℕ) (s : S) :
    (r.calls sleep remaining attempt s).run next = r.runFrom sleep next remaining attempt s := by
  induction remaining generalizing attempt s with
  | zero => rfl
  | succ remaining ih =>
    rw [calls, Calls.run, runFrom]
    rcases next s with ⟨(error | _) | result, t⟩
    · dsimp only
      cases r.delay attempt with
      | error overflow => rfl
      | ok delay =>
        dsimp only
        cases sleep attempt delay with
        | some raised => rfl
        | none => exact ih _ _
    · rfl
    · rfl

theorem runLogged_calls {L : Type} (next : Exec (S × L)) (remaining attempt : ℕ) (s : S) (l : L) :
    (r.calls sleep remaining attempt s).runLogged next l =
      r.runFrom sleep next remaining attempt (s, l) := by
  induction remaining generalizing attempt s l with
  | zero => rfl
  | succ remaining ih =>
    rw [calls, Calls.runLogged, runFrom]
    rcases next (s, l) with ⟨(error | _) | result, t, l'⟩
    · dsimp only
      cases r.delay attempt with
      | error overflow => rfl
      | ok delay =>
        dsimp only
        cases sleep attempt delay with
        | some raised => rfl
        | none => exact ih _ _ _
    · rfl
    · rfl

end ExecutionRetry

/-! ## Chains with observers -/

theorem executeChain_append (xs ys : List (ExecutionMiddleware S)) (handler : Exec S) :
    executeChain (xs ++ ys) handler = executeChain xs (executeChain ys handler) := by
  induction xs with
  | nil => rfl
  | cons x xs ih => rw [List.cons_append, executeChain, executeChain, ih]

/-- What may stand in a chain: a program of the job's own, local retries, and the two observers. -/
inductive Installed (S : Type)
  | own (body : S → Calls (Except Raised Json) S)
  | retries (r : ExecutionRetry) (sleep : ℕ → ℚ → Option Raised)
  | metrics (recorder : MetricsRecorder)
  | logging

namespace Installed

def layer : Installed S → Layer (Except Raised Json) S Observed
  | .own body => .program body
  | .retries r sleep => .program (r.calls sleep r.maxRetries 0)
  | .metrics _ => .observer (watchMetrics env)
  | .logging => .observer (watchLogging env)

/-- The middleware of the chain, over the context and what is written. -/
def middleware : Installed S → ExecutionMiddleware (S × Observed)
  | .own body => fun next s => (body s.1).runLogged next s.2
  | .retries r sleep => r.run sleep
  | .metrics recorder => metricsMiddleware env recorder true
  | .logging => loggingMiddleware env

/-- The middleware of the chain without its observers. -/
def unobserved : Installed S → Option (ExecutionMiddleware S)
  | .own body => some fun next s => (body s).run next
  | .retries r sleep => some (r.run sleep)
  | .metrics _ | .logging => none

theorem middleware_eq (m : Installed S) : m.middleware env = (m.layer env).around := by
  cases m with
  | own body => rfl
  | retries r sleep =>
    funext next s
    exact (r.runLogged_calls sleep next r.maxRetries 0 s.1 s.2).symm
  | metrics recorder => exact metricsMiddleware_observes env recorder
  | logging => exact loggingMiddleware_observes env

theorem executeChain_eq (chain : List (Installed S)) (inner : Exec (S × Observed)) :
    executeChain (chain.map (middleware env)) inner =
      executeAll (chain.map (layer env)) inner := by
  induction chain with
  | nil => rfl
  | cons m chain ih =>
    rw [List.map_cons, List.map_cons, executeChain, executeAll, ih, middleware_eq]

theorem executeChain_unobserved (chain : List (Installed S)) (handler : Exec S) :
    executeChain (chain.filterMap unobserved) handler =
      executePrograms (chain.map (layer env)) handler := by
  induction chain with
  | nil => rfl
  | cons m chain ih =>
    cases m with
    | own body =>
      change (fun s => (body s).run (executeChain (chain.filterMap unobserved) handler)) = _
      rw [ih]
      rfl
    | retries r sleep =>
      change r.run sleep (executeChain (chain.filterMap unobserved) handler) = _
      rw [ih]
      funext s
      exact (r.run_calls sleep _ r.maxRetries 0 s).symm
    | metrics recorder => exact ih
    | logging => exact ih

end Installed

/-- One execution of what metrics go around: the context it starts from, and what is written by
then. -/
structure Measurement (S : Type) where
  state : S
  start : Observed

namespace Measurement
variable (recorder : MetricsRecorder) (failOpen : Bool) (next : Exec (S × Observed))
variable (e : Measurement S)

def started : MetricEvent := .jobStarted (env.job e.state).type (env.job e.state).queue

/-- What came of the execution, and the number of the reading of the clock at its end; nothing, when
the recorder stopped it at its start. -/
def ended : Option (Except Raised Json × ℕ) :=
  match recordMetric recorder failOpen (e.started env) e.start.read with
  | (some _, _) => none
  | (none, o) => some ((next (e.state, o)).1, (next (e.state, o)).2.2.readings)

/-- The seconds from the reading at the start of the execution to another one. -/
def duration (reading : ℕ) : ℚ := env.clock reading - env.clock e.start.readings

/-- What its recorder sees of the execution: its start, then its result or its failure, with the
time that it took. -/
def events : List MetricEvent :=
  e.started env :: match e.ended env recorder failOpen next with
    | some (.ok _, reading) =>
      [.jobCompleted (env.job e.state).type (env.job e.state).queue (e.duration env reading)]
    | some (.error (.exception error), reading) =>
      [.jobFailed (env.job e.state).type (env.job e.state).queue (e.duration env reading) error]
    | some (.error .cancelled, _) | none => []

end Measurement

/-- No call of a recorder is written. -/
def Silent (o o' : Observed) : Prop := o.readings ≤ o'.readings ∧ o'.events = o.events

/-- What is written goes on with these executions, one after another, and with no call of a recorder
between them. -/
inductive Measurements (recorder : MetricsRecorder) (failOpen : Bool)
    (next : Exec (S × Observed)) : Observed → List (Measurement S) → Observed → Prop
  | none {o o' : Observed} : Silent o o' → Measurements recorder failOpen next o [] o'
  | cons {o o' : Observed} (e : Measurement S) {rest : List (Measurement S)} : Silent o e.start →
      Measurements recorder failOpen next
        (metricsMiddleware env recorder failOpen next (e.state, e.start)).2.2 rest o' →
      Measurements recorder failOpen next o (e :: rest) o'

variable {env} {recorder : MetricsRecorder} {failOpen : Bool} {next : Exec (S × Observed)}

theorem Silent.refl (o : Observed) : Silent o o := ⟨Nat.le_refl _, rfl⟩

theorem Silent.trans {a b c : Observed} (h : Silent a b) (h' : Silent b c) : Silent a c :=
  ⟨Nat.le_trans h.1 h'.1, h'.2.trans h.2⟩

theorem Silent.measurements {a b c : Observed} {measurements : List (Measurement S)}
    (h : Silent a b) (h' : Measurements env recorder failOpen next b measurements c) :
    Measurements env recorder failOpen next a measurements c := by
  cases h' with
  | none h' => exact .none (h.trans h')
  | cons e h' hrest => exact .cons e (h.trans h') hrest

theorem Measurements.append {a b c : Observed} {first second : List (Measurement S)}
    (h : Measurements env recorder failOpen next a first b)
    (h' : Measurements env recorder failOpen next b second c) :
    Measurements env recorder failOpen next a (first ++ second) c := by
  induction h with
  | none hsilent => exact hsilent.measurements h'
  | cons e hsilent _ ih => exact .cons e hsilent (ih h')

theorem watchLogging_silent (s : S) (o : Observed) : Silent o (watchLogging env s o).1 ∧
    ∀ outcome state m, Silent m ((watchLogging env s o).2 outcome state m) := by
  refine ⟨⟨Nat.le_succ _, rfl⟩, ?_⟩
  intro outcome state m
  rcases outcome with (exc | _) | result
  · exact ⟨Nat.le_succ _, rfl⟩
  · exact ⟨Nat.le_refl _, rfl⟩
  · exact ⟨Nat.le_succ _, rfl⟩

/-- Whatever the recorder raises, its call is written. -/
theorem called_of_recordMetric {event : MetricEvent} {o o' : Observed} {raised : Option Exn}
    (h : recordMetric recorder failOpen event o = (raised, o')) : o' = o.called event :=
  (congrArg Prod.snd h).symm

/-- The clock is read at the start of an execution before it is read at its end. -/
theorem Measurement.start_lt (hnext : Extends Silent next) (e : Measurement S) {outcome reading}
    (h : e.ended env recorder failOpen next = some (outcome, reading)) :
    e.start.readings < reading := by
  unfold Measurement.ended recordMetric at h
  split at h
  next => cases h
  next o heq =>
    cases h
    obtain rfl := called_of_recordMetric heq
    exact Nat.lt_of_succ_le (hnext e.state (e.start.read.called (e.started env))).1

/-- A run of the middleware writes the events of its execution. -/
theorem metrics_events (hnext : Extends Silent next) (e : Measurement S) :
    (metricsMiddleware env recorder failOpen next (e.state, e.start)).2.2.events =
      e.start.events ++ e.events env recorder failOpen next := by
  unfold metricsMiddleware Measurement.events Measurement.ended
  dsimp only
  rcases hstart : recordMetric recorder failOpen (e.started env) e.start.read with ⟨_ | error, o'⟩
  · have hstart' : recordMetric recorder failOpen
        (.jobStarted (env.job e.state).type (env.job e.state).queue) e.start.read =
          (none, o') := hstart
    obtain rfl := called_of_recordMetric hstart
    rw [hstart']
    dsimp only
    have hsilent := (hnext e.state (e.start.read.called (e.started env))).2
    have hended (event : MetricEvent) {o : Observed}
        (h : o.events = e.start.events ++ [e.started env]) :
        (o.read.called event).events = e.start.events ++ [e.started env, event] :=
      (congrArg (· ++ [event]) h).trans (List.append_assoc e.start.events _ _)
    rcases hran : next (e.state, e.start.read.called (e.started env)) with
      ⟨(exc | _) | result, t, o'⟩ <;> rw [hran] at hsilent
    · dsimp only
      split
      · next heq => exact called_of_recordMetric heq ▸ hended _ hsilent
      · next heq => exact called_of_recordMetric heq ▸ hended _ hsilent
    · exact hsilent
    · dsimp only
      split
      · next heq => exact called_of_recordMetric heq ▸ hended _ hsilent
      · next heq => exact called_of_recordMetric heq ▸ hended _ hsilent
  · have hstart' : recordMetric recorder failOpen
        (.jobStarted (env.job e.state).type (env.job e.state).queue) e.start.read =
          (some error, o') := hstart
    obtain rfl := called_of_recordMetric hstart
    rw [hstart']
    rfl

theorem Measurements.events (hnext : Extends Silent next) {o o' : Observed}
    {measurements : List (Measurement S)}
    (h : Measurements env recorder failOpen next o measurements o') :
    o'.events =
      o.events ++ measurements.flatMap (Measurement.events env recorder failOpen next) := by
  induction h with
  | none hsilent => rw [hsilent.2, List.flatMap_nil, List.append_nil]
  | cons e hsilent _ ih =>
    rw [ih, metrics_events hnext, hsilent.2, List.flatMap_cons, List.append_assoc]

/-- The installed layers other than metrics. -/
def Installed.notMetrics : Installed S → Bool
  | .metrics _ => false
  | _ => true

theorem watch_silent {chain : List (Installed S)} (hchain : ∀ m ∈ chain, m.notMetrics = true)
    (watch : S → Observed → Observed × (Except Raised Json → S → Observed → Observed))
    (hmem : .observer watch ∈ chain.map (Installed.layer env)) (s : S) (o : Observed) :
    Silent o (watch s o).1 ∧ ∀ outcome state m, Silent m ((watch s o).2 outcome state m) := by
  obtain ⟨m, hm, heq⟩ := List.mem_map.mp hmem
  cases m with
  | own body => cases heq
  | retries r sleep => cases heq
  | metrics recorder => exact absurd (hchain _ hm) Bool.false_ne_true
  | logging =>
    cases heq
    exact watchLogging_silent s o

/-- Around a handler, one metrics middleware among others: whether or not it fails open, and
whatever is installed before and after it, its recorder sees executions of the rest of the chain one
after another, each started once and ended at most once, as it did end and with the time that the
clock measured from its start to its end. -/
theorem metrics_account (before after : List (Installed S))
    (hbefore : ∀ m ∈ before, m.notMetrics = true) (hafter : ∀ m ∈ after, m.notMetrics = true)
    (recorder : MetricsRecorder) (failOpen : Bool) (handler : Exec S) (s : S) (o : Observed) :
    ∃ measurements : List (Measurement S),
      Measurements env recorder failOpen
        (executeChain (after.map (Installed.middleware env)) (beside handler)) o measurements
        (executeChain (before.map (Installed.middleware env) ++
          metricsMiddleware env recorder failOpen :: after.map (Installed.middleware env))
          (beside handler) (s, o)).2.2 ∧
      (executeChain (before.map (Installed.middleware env) ++
          metricsMiddleware env recorder failOpen :: after.map (Installed.middleware env))
          (beside handler) (s, o)).2.2.events =
        o.events ++ measurements.flatMap (Measurement.events env recorder failOpen
          (executeChain (after.map (Installed.middleware env)) (beside handler))) ∧
      ∀ e ∈ measurements, ∀ outcome reading,
        e.ended env recorder failOpen
          (executeChain (after.map (Installed.middleware env)) (beside handler)) =
            some (outcome, reading) → e.start.readings < reading := by
  have hinner : Extends Silent (executeChain (after.map (Installed.middleware env))
      (beside handler)) := by
    rw [Installed.executeChain_eq]
    exact extends_executeAll .refl (fun _ _ _ => .trans) _
      (fun watch hmem s o => watch_silent hafter watch hmem s o) (extends_beside .refl handler)
  rw [executeChain_append, executeChain]
  generalize executeChain (after.map (Installed.middleware env)) (beside handler) = inner
    at hinner ⊢
  have houter : Extends (fun o o' => ∃ measurements, Measurements env recorder failOpen inner o
      measurements o') (executeChain (before.map (Installed.middleware env))
        (metricsMiddleware env recorder failOpen inner)) := by
    rw [Installed.executeChain_eq]
    refine extends_executeAll (fun o => ⟨[], .none (.refl o)⟩) ?_ _ ?_ ?_
    · rintro a b c ⟨first, hfirst⟩ ⟨second, hsecond⟩
      exact ⟨first ++ second, hfirst.append hsecond⟩
    · intro watch hmem s o
      obtain ⟨hstart, hend⟩ := watch_silent hbefore watch hmem s o
      exact ⟨⟨[], .none hstart⟩, fun outcome state m => ⟨[], .none (hend outcome state m)⟩⟩
    · exact fun s o => ⟨[⟨s, o⟩], .cons ⟨s, o⟩ (.refl o) (.none (.refl _))⟩
  obtain ⟨measurements, hmeasured⟩ := houter s o
  exact ⟨measurements, hmeasured, hmeasured.events hinner,
    fun e _ outcome reading h => e.start_lt hinner h⟩

def failingSurroundings : Surroundings Unit :=
  ⟨fun _ => { id := "j", type := "t", state := .active }, fun _ => 1, fun n => n⟩

def failingHandler : Exec Unit := fun s => (.error (.exception (.builtin .valueError "no")), s)

/-- A recorder that fails open between a logger and a failing handler. -/
theorem metrics_account_of_failure :
    ∃ measurements : List (Measurement Unit),
      Measurements failingSurroundings (fun _ _ => none) true (beside failingHandler) ⟨[], [], 0⟩
        measurements
        (executeChain ([Installed.logging].map (Installed.middleware failingSurroundings) ++
          metricsMiddleware failingSurroundings (fun _ _ => none) true :: [])
          (beside failingHandler) ((), ⟨[], [], 0⟩)).2.2 := by
  obtain ⟨measurements, hmeasured, -⟩ := @metrics_account Unit failingSurroundings [.logging] []
    (by decide) (by decide) (fun _ _ => none) true failingHandler () ⟨[], [], 0⟩
  exact ⟨measurements, hmeasured⟩

end OpenJobSpec.Worker
