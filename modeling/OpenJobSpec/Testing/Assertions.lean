import OpenJobSpec.Python.Equality
import OpenJobSpec.Testing.TerminalStates
import Mathlib.Data.Finset.Dedup

/-! # What the assertions answer for

An assertion reads the store alone. Beside the store stands the history of a test since it began or
last cleared the store: what was pushed, by the test or by a handler, and what was drained. The
assertions answer for this history, whatever became of the jobs in between.
-/
namespace OpenJobSpec.Testing
open Runs Serving

/-! ## The assertions -/

/-- What an assertion asks for, when it asks for no NaN. -/
structure Criteria where
  jobType : String
  args : Option (List Json) := none
  queue : Option String := none
  «meta» : Option Fields := none
  args_nanFree : ∀ values ∈ args, (Json.array values).nanFree = true
  meta_nanFree : ∀ entries ∈ «meta», (Json.object entries).nanFree = true

/-- `_find_matching`. An empty queue name and an empty `meta` ask for nothing. -/
def findMatching (criteria : Criteria) : List FakeJob → List FakeJob
  | [] => []
  | j :: rest =>
    if j.type ≠ criteria.jobType then findMatching criteria rest
    else if criteria.queue.any fun queue => queue ≠ "" ∧ j.queue ≠ queue then
      findMatching criteria rest
    else if criteria.args.any fun args => !(Json.array j.args).equals (.array args) then
      findMatching criteria rest
    else if criteria.meta.any fun «meta» =>
        !«meta».all fun entry => (Fields.get j.meta entry.1 .null).equals entry.2 then
      findMatching criteria rest
    else j :: findMatching criteria rest

def assertionError (message : String) : Exn := .other "AssertionError" message

namespace FakeStore
variable (s : FakeStore)

/-- The types of the jobs in the store, and their text as a set, in whatever order it shows them. -/
def enqueuedTypes (reprSet : Finset String → String) : String :=
  reprSet (s.enqueued.map FakeJob.type).toFinset

def assertEnqueued (reprSet : Finset String → String) (criteria : Criteria) (count : Option ℤ) :
    Except Exn Unit :=
  let found := findMatching criteria s.enqueued
  match count with
  | some count =>
    if found.length ≠ count then
      .error (assertionError ("Expected " ++ toString count ++ " enqueued job(s) of type '" ++
        criteria.jobType ++ "', found " ++ toString found.length ++ ". Enqueued types: " ++
        s.enqueuedTypes reprSet))
    else .ok ()
  | none =>
    if found.length = 0 then
      .error (assertionError ("Expected at least one enqueued job of type '" ++
        criteria.jobType ++ "', found none. Enqueued types: " ++
        if s.enqueued.isEmpty then "none" else s.enqueuedTypes reprSet))
    else .ok ()

def refuteEnqueued (criteria : Criteria) : Except Exn Unit :=
  let found := findMatching criteria s.enqueued
  if found.isEmpty then .ok ()
  else .error (assertionError ("Expected no enqueued jobs of type '" ++ criteria.jobType ++
    "', but found " ++ toString found.length ++ "."))

/-- The performed jobs are the objects at their places, as they are now. -/
def performedJobs : List FakeJob := s.performed.filterMap (s.enqueued[·]?)

def assertPerformed (jobType : String) : Except Exn Unit :=
  if (s.performedJobs.filter (·.type = jobType)).isEmpty then
    .error (assertionError ("Expected at least one performed job of type '" ++ jobType ++
      "', found none."))
  else .ok ()

/-- `assert_completed` and `assert_failed`: some performed job of the type is in the state. -/
def assertOutcome (state outcome jobType : String) : Except Exn Unit :=
  match s.performedJobs.find? fun job => job.type = jobType ∧ job.state = state with
  | none => .error (assertionError ("Expected a " ++ outcome ++ " job of type '" ++ jobType ++
    "', found none."))
  | some _ => .ok ()

def assertCompleted : String → Except Exn Unit := s.assertOutcome "completed" "completed"

def assertFailed : String → Except Exn Unit := s.assertOutcome "discarded" "failed"

def allEnqueued (jobType queue : Option String) : List FakeJob :=
  let jobs := match jobType with
    | some jobType =>
      if jobType = "" then s.enqueued else s.enqueued.filter (·.type = jobType)
    | none => s.enqueued
  match queue with
  | some queue => if queue = "" then jobs else jobs.filter (·.queue = queue)
  | none => jobs

def clear : FakeStore := { s with enqueued := [], performed := [] }

end FakeStore

/-! ## The history of a test -/

/-- What was pushed, in order, and the places of what was drained, with whether the handler
raised. -/
structure History where
  pushed : List NewJob := []
  drained : List (ℕ × Bool) := []

inductive TestAction
  | operation (operation : FakeOperation)
  | clearAll

structure TestRun (W : Type) where
  backend : FakeBackend W
  history : History := {}

/-- What a push asks for. -/
def requested (conversions : Conversions) (body : Fields) : List NewJob :=
  (newJob conversions body).toOption.toList

/-- What a batch asks for, up to a push that raises. -/
def requestedBatch (conversions : Conversions) : FakeStore → List Fields → List NewJob
  | _, [] => []
  | store, body :: rest =>
    requested conversions body ++ match store.push conversions body with
      | (_, .error _) => []
      | (pushed, .ok _) => requestedBatch conversions pushed rest

namespace FakeBackend
variable {W : Type} (conversions : Conversions) (handlers : Handlers W) (b : FakeBackend W)

/-- What the handlers of so many turns of the drain enqueue. -/
def enqueuedBy : ℕ → FakeBackend W → List NewJob
  | 0, _ => []
  | n + 1, b =>
    match b.serveFirst handlers with
    | none => []
    | some (served, c) =>
      b.store.enqueued[served.1]?.toList.flatMap (fun job =>
        (b.handle handlers served.1 job).enqueues) ++ enqueuedBy n c

def requestedBy : FakeOperation → List NewJob
  | .push body => requested conversions body
  | .pushBatch jobs => requestedBatch conversions b.store jobs
  | .drain maxJobs => enqueuedBy handlers (b.drainLimit maxJobs).toNat b
  | .fetch _ _ | .ack _ _ | .nack _ _ | .cancel _ => []

def drainedBy : FakeOperation → List (ℕ × Bool)
  | .drain maxJobs => (upTo (serveFirst handlers) (b.drainLimit maxJobs).toNat b).1
  | .push _ | .pushBatch _ | .fetch _ _ | .ack _ _ | .nack _ _ | .cancel _ => []

end FakeBackend

namespace TestRun
variable {W : Type} (conversions : Conversions) (handlers : Handlers W)

def new (world : W) : TestRun W where
  backend := ⟨.empty, world⟩

/-- The operations are those of the backend; each is written down as it is made. -/
def next (r : TestRun W) : TestAction → Option (TestRun W)
  | .operation operation => some {
      backend := r.backend.after conversions handlers operation
      history := {
        pushed := r.history.pushed ++ r.backend.requestedBy conversions handlers operation
        drained := r.history.drained ++ r.backend.drainedBy handlers operation } }
  | .clearAll => some { backend := { r.backend with store := r.backend.store.clear } }

end TestRun

/-! ## What an assertion finds -/

/-- The pushed job meets what an assertion asks for. -/
structure Criteria.Wants (criteria : Criteria) (new : NewJob) : Prop where
  jobType : new.jobType = criteria.jobType
  queue : ∀ queue ∈ criteria.queue, queue ≠ "" → new.queue = queue
  args : ∀ args ∈ criteria.args, new.args.map Json.compared = args.map Json.compared
  «meta» : ∀ «meta» ∈ criteria.meta, ∀ entry ∈ «meta»,
    (Fields.get new.meta entry.1 .null).compared = entry.2.compared

/-- What `==` says of the arguments that were asked for. -/
theorem Criteria.args_equal_iff (criteria : Criteria) (found : List Json) :
    (∀ args ∈ criteria.args, (Json.array found).equals (.array args) = true) ↔
      ∀ args ∈ criteria.args, found.map Json.compared = args.map Json.compared :=
  forall₂_congr fun args hargs => by
    rw [Json.equals_iff _ (criteria.args_nanFree args hargs), Json.compared_array_inj]

/-- What `==` says of the entries of `meta` that were asked for. -/
theorem Criteria.meta_equal_iff (criteria : Criteria) (found : Fields) :
    (∀ entries ∈ criteria.meta, ∀ entry ∈ entries,
      (Fields.get found entry.1 .null).equals entry.2 = true) ↔
      ∀ entries ∈ criteria.meta, ∀ entry ∈ entries,
        (Fields.get found entry.1 .null).compared = entry.2.compared := by
  refine forall₂_congr fun entries hentries => forall₂_congr fun entry hentry => ?_
  have hfree := (Json.nanFreeFields_iff entries).mp (criteria.meta_nanFree entries hentries)
  exact Json.equals_iff _ (hfree entry hentry)

instance (criteria : Criteria) : DecidablePred criteria.Wants := fun new =>
  decidable_of_iff (new.jobType = criteria.jobType ∧
    (∀ queue ∈ criteria.queue, queue ≠ "" → new.queue = queue) ∧
    (∀ args ∈ criteria.args, (Json.array new.args).equals (.array args) = true) ∧
    ∀ «meta» ∈ criteria.meta, ∀ entry ∈ «meta»,
      (Fields.get new.meta entry.1 .null).equals entry.2 = true) <| by
    rw [criteria.args_equal_iff, criteria.meta_equal_iff]
    exact ⟨fun ⟨h, h', h'', h'''⟩ => ⟨h, h', h'', h'''⟩,
      fun ⟨h, h', h'', h'''⟩ => ⟨h, h', h'', h'''⟩⟩

/-- What a job was pushed with. -/
def FakeJob.asked (job : FakeJob) : NewJob where
  jobType := job.type
  args := job.args
  queue := job.queue
  «meta» := job.meta
  options := job.options

/-- The loop skips just the jobs that do not meet what is asked for. -/
theorem wants_iff_not_skipped (criteria : Criteria) (job : FakeJob) :
    criteria.Wants job.asked ↔ job.type = criteria.jobType ∧
      ¬(criteria.queue.any fun queue => queue ≠ "" ∧ job.queue ≠ queue) = true ∧
      ¬(criteria.args.any fun args => !(Json.array job.args).equals (.array args)) = true ∧
      ¬(criteria.meta.any fun «meta» => !«meta».all fun entry =>
        (Fields.get job.meta entry.1 .null).equals entry.2) = true := by
  have hqueue : (∀ queue ∈ criteria.queue, queue ≠ "" → job.queue = queue) ↔
      ¬(criteria.queue.any fun queue => queue ≠ "" ∧ job.queue ≠ queue) = true := by
    cases criteria.queue <;> simp
  have hargs : (∀ args ∈ criteria.args, job.args.map Json.compared = args.map Json.compared) ↔
      ¬(criteria.args.any fun args => !(Json.array job.args).equals (.array args)) = true := by
    rw [← criteria.args_equal_iff]
    cases criteria.args <;> simp
  have hmeta : (∀ «meta» ∈ criteria.meta, ∀ entry ∈ «meta»,
        (Fields.get job.meta entry.1 .null).compared = entry.2.compared) ↔
      ¬(criteria.meta.any fun «meta» => !«meta».all fun entry =>
        (Fields.get job.meta entry.1 .null).equals entry.2) = true := by
    rw [← criteria.meta_equal_iff]
    cases criteria.meta <;> simp
  rw [← hqueue, ← hargs, ← hmeta]
  exact ⟨fun h => ⟨h.jobType, h.queue, h.args, h.meta⟩,
    fun ⟨htype, hqueue, hargs, hmeta⟩ => ⟨htype, hqueue, hargs, hmeta⟩⟩

theorem findMatching_eq (criteria : Criteria) (jobs : List FakeJob) :
    findMatching criteria jobs = jobs.filter fun job => criteria.Wants job.asked := by
  induction jobs with
  | nil => rfl
  | cons job rest ih =>
    rw [findMatching, List.filter_cons, ih]
    simp only [decide_eq_true_eq, wants_iff_not_skipped]
    split
    next htype => rw [if_neg fun h => htype h.1]
    next htype =>
      split
      next hqueue => rw [if_neg fun h => h.2.1 hqueue]
      next hqueue =>
        split
        next hargs => rw [if_neg fun h => h.2.2.1 hargs]
        next hargs =>
          split
          next hmeta => rw [if_neg fun h => h.2.2.2 hmeta]
          next hmeta => rw [if_pos ⟨not_not.mp htype, hqueue, hargs, hmeta⟩]

theorem findMatching_asked (criteria : Criteria) (jobs : List FakeJob) :
    (findMatching criteria jobs).map FakeJob.asked =
      (jobs.map FakeJob.asked).filter fun new => criteria.Wants new := by
  rw [findMatching_eq, List.filter_map]
  rfl

namespace FakeStore
variable {s : FakeStore}

theorem assertEnqueued_count (reprSet : Finset String → String) (criteria : Criteria) (count : ℤ) :
    s.assertEnqueued reprSet criteria (some count) = .ok () ↔
      ((findMatching criteria s.enqueued).length : ℤ) = count := by
  unfold assertEnqueued
  dsimp only
  split
  next h => exact iff_of_false (by rintro ⟨⟩) h
  next h => exact iff_of_true rfl (not_not.mp h)

theorem assertEnqueued_some (reprSet : Finset String → String) (criteria : Criteria) :
    s.assertEnqueued reprSet criteria none = .ok () ↔ findMatching criteria s.enqueued ≠ [] := by
  unfold assertEnqueued
  dsimp only
  split
  next h => exact iff_of_false (by rintro ⟨⟩) fun hne => hne (List.length_eq_zero_iff.mp h)
  next h => exact iff_of_true rfl fun hnil => h (List.length_eq_zero_iff.mpr hnil)

theorem refuteEnqueued_iff (criteria : Criteria) :
    s.refuteEnqueued criteria = .ok () ↔ findMatching criteria s.enqueued = [] := by
  unfold refuteEnqueued
  dsimp only
  split
  next h => exact iff_of_true rfl (List.isEmpty_iff.mp h)
  next h => exact iff_of_false (by rintro ⟨⟩) fun hnil => h (List.isEmpty_iff.mpr hnil)

theorem mem_performedJobs {job : FakeJob} :
    job ∈ s.performedJobs ↔ ∃ place ∈ s.performed, s.enqueued[place]? = some job :=
  List.mem_filterMap

theorem assertPerformed_iff (jobType : String) :
    s.assertPerformed jobType = .ok () ↔ ∃ job ∈ s.performedJobs, job.type = jobType := by
  unfold assertPerformed
  split
  next h =>
    refine iff_of_false (by rintro ⟨⟩) ?_
    rintro ⟨job, hjob, htype⟩
    have hmem : job ∈ s.performedJobs.filter (·.type = jobType) :=
      List.mem_filter.mpr ⟨hjob, decide_eq_true htype⟩
    rw [List.isEmpty_iff.mp h] at hmem
    cases hmem
  next h =>
    refine iff_of_true rfl ?_
    obtain ⟨job, hmem⟩ := List.exists_mem_of_ne_nil _ fun hnil => h (List.isEmpty_iff.mpr hnil)
    obtain ⟨hjob, htype⟩ := List.mem_filter.mp hmem
    exact ⟨job, hjob, of_decide_eq_true htype⟩

theorem assertOutcome_iff (state outcome jobType : String) :
    s.assertOutcome state outcome jobType = .ok () ↔
      ∃ job ∈ s.performedJobs, job.type = jobType ∧ job.state = state := by
  unfold assertOutcome
  split
  next h =>
    refine iff_of_false (by rintro ⟨⟩) ?_
    rintro ⟨job, hjob, hboth⟩
    exact List.find?_eq_none.mp h job hjob (decide_eq_true hboth)
  next job h =>
    have hboth : job.type = jobType ∧ job.state = state := by simpa using List.find?_some h
    exact iff_of_true rfl ⟨job, List.mem_of_find?_eq_some h, hboth⟩

/-- A filter that an absent or empty name leaves out. -/
theorem filter_given (name : Option String) (field : NewJob → String) (jobs : List FakeJob) :
    ((match name with
      | some name => if name = "" then jobs else jobs.filter fun job => field job.asked = name
      | none => jobs).map FakeJob.asked) =
      (jobs.map FakeJob.asked).filter fun new => ∀ n ∈ name, n ≠ "" → field new = n := by
  cases name with
  | none => simp
  | some name =>
    by_cases hempty : name = ""
    · simp [hempty]
    · simp [hempty, List.filter_map, Function.comp_def]

theorem allEnqueued_asked (jobType queue : Option String) :
    (s.allEnqueued jobType queue).map FakeJob.asked =
      (s.enqueued.map FakeJob.asked).filter fun new =>
        (∀ t ∈ jobType, t ≠ "" → new.jobType = t) ∧ ∀ q ∈ queue, q ≠ "" → new.queue = q := by
  have hboth := filter_given queue NewJob.queue (s.allEnqueued jobType none)
  have htype := filter_given jobType NewJob.jobType s.enqueued
  calc (s.allEnqueued jobType queue).map FakeJob.asked
      = ((s.allEnqueued jobType none).map FakeJob.asked).filter
          (fun new => ∀ q ∈ queue, q ≠ "" → new.queue = q) := hboth
    _ = _ := by
      rw [show (s.allEnqueued jobType none).map FakeJob.asked = _ from htype, List.filter_filter]
      simp only [Bool.decide_and, Bool.and_comm]

end FakeStore

/-! ## What is pushed and what is drained -/

@[simp] theorem asked_toFake (new : NewJob) (id : String) : (new.toFake id).asked = new := rfl

theorem asked_arrivals (n : ℕ) (jobs : List NewJob) :
    (arrivals n jobs).map FakeJob.asked = jobs := by
  induction jobs generalizing n with
  | nil => rfl
  | cons new rest ih => rw [arrivals, List.map_cons, ih, asked_toFake]

theorem asked_set {jobs : List FakeJob} {place : ℕ} {job job' : FakeJob}
    (h : jobs[place]? = some job) (hasked : job'.asked = job.asked) :
    (jobs.set place job').map FakeJob.asked = jobs.map FakeJob.asked := by
  rw [List.map_set, hasked]
  apply List.ext_getElem?
  intro i
  by_cases hi : place = i
  · subst hi
    have hlt := (List.getElem?_eq_some_iff.mp h).1
    rw [List.getElem?_set_self (by rwa [List.length_map]), List.getElem?_map, h]
    rfl
  · exact List.getElem?_set_ne hi

namespace FakeStore
variable (conversions : Conversions) (s : FakeStore)

theorem push_store (body : Fields) :
    (s.push conversions body).1 = s.recordAll (requested conversions body) := by
  unfold push
  split
  next e hnew =>
    rw [requested, hnew]
    rfl
  next new hnew =>
    rw [requested, hnew]
    rfl

theorem recordAll_append (first second : List NewJob) :
    s.recordAll (first ++ second) = (s.recordAll first).recordAll second :=
  List.foldl_append

theorem pushBatch_store (jobs : List Fields) :
    (s.pushBatch conversions jobs).1 = s.recordAll (requestedBatch conversions s jobs) := by
  fun_induction pushBatch conversions s jobs with
  | case1 => rfl
  | case2 s body rest pushed e hpush =>
    have hfirst := push_store conversions s body
    rw [hpush] at hfirst
    rw [requestedBatch, hpush, List.append_nil]
    exact hfirst
  | case3 s body rest pushed job hpush ih =>
    have hfirst := push_store conversions s body
    rw [hpush] at hfirst
    rw [ih, requestedBatch, hpush, recordAll_append, ← hfirst]

theorem asked_recordAll (jobs : List NewJob) :
    (s.recordAll jobs).enqueued.map FakeJob.asked = s.enqueued.map FakeJob.asked ++ jobs := by
  rw [recordAll_enqueued, List.map_append, asked_arrivals]

theorem asked_fetchLoop (queues : List String) (count : ℤ) (place selected : ℕ)
    (jobs : List FakeJob) : (fetchLoop queues count place selected jobs).1.map FakeJob.asked =
      jobs.map FakeJob.asked := by
  fun_induction fetchLoop queues count place selected jobs with
  | case1 => rfl
  | case2 => rfl
  | case3 _ _ job _ _ _ ih =>
    rw [List.map_cons, List.map_cons, ih]
    rfl
  | case4 _ _ _ _ _ _ ih => rw [List.map_cons, List.map_cons, ih]

end FakeStore

namespace FakeBackend
variable {W : Type} (conversions : Conversions) (handlers : Handlers W) (b : FakeBackend W)

/-- An operation that assigns a state leaves what the jobs were pushed with. -/
theorem asked_put_found {jobId : String} {place : ℕ} {job job' : FakeJob}
    (hfind : b.store.find jobId = .ok (place, job)) (hasked : job'.asked = job.asked) :
    (b.store.put place job').enqueued.map FakeJob.asked = b.store.enqueued.map FakeJob.asked :=
  asked_set (FakeStore.getElem_of_find hfind) hasked

theorem asked_upTo (n : ℕ) :
    (upTo (serveFirst handlers) n b).2.store.enqueued.map FakeJob.asked =
      b.store.enqueued.map FakeJob.asked ++ enqueuedBy handlers n b := by
  induction n generalizing b with
  | zero => exact (List.append_nil _).symm
  | succ n ih =>
    cases hserve : b.serveFirst handlers with
    | none =>
      rw [upTo_of_none hserve, enqueuedBy, hserve, List.append_nil]
    | some first =>
      obtain ⟨served, c⟩ := first
      obtain ⟨job, hjob, -, -, -, rfl⟩ := serveFirst_eq_some hserve
      have hplace : (b.store.enqueued.set served.1
          (job.processed (b.handle handlers served.1 job).raises)).map FakeJob.asked =
            b.store.enqueued.map FakeJob.asked := asked_set hjob rfl
      have hturn : enqueuedBy handlers (n + 1) b = (b.handle handlers served.1 job).enqueues ++
          enqueuedBy handlers n (b.perform handlers served.1 job) := by
        rw [enqueuedBy, hserve]
        simp only [hjob, Option.toList_some, List.flatMap_singleton]
      rw [upTo_succ_some hserve, hturn, ih, perform_enqueued hjob, List.map_append, hplace,
        arrived, asked_arrivals, List.append_assoc]

/-- An operation adds what it asks for to what the jobs of the store were pushed with. -/
theorem asked_after (operation : FakeOperation) :
    (b.after conversions handlers operation).store.enqueued.map FakeJob.asked =
      b.store.enqueued.map FakeJob.asked ++ b.requestedBy conversions handlers operation := by
  cases operation with
  | push body =>
    change (b.store.push conversions body).1.enqueued.map _ = _
    rw [FakeStore.push_store, FakeStore.asked_recordAll]
    rfl
  | pushBatch jobs =>
    change (b.store.pushBatch conversions jobs).1.enqueued.map _ = _
    rw [FakeStore.pushBatch_store, FakeStore.asked_recordAll]
    rfl
  | fetch queues count =>
    rw [requestedBy, List.append_nil]
    exact FakeStore.asked_fetchLoop queues count 0 0 b.store.enqueued
  | ack jobId result =>
    rw [requestedBy, List.append_nil]
    simp only [after, FakeStore.ack]
    cases hfind : b.store.find jobId with
    | error e => rfl
    | ok found => exact b.asked_put_found hfind rfl
  | nack jobId error =>
    rw [requestedBy, List.append_nil]
    simp only [after, FakeStore.nack]
    cases hfind : b.store.find jobId with
    | error e => rfl
    | ok found => exact b.asked_put_found hfind rfl
  | cancel jobId =>
    rw [requestedBy, List.append_nil]
    simp only [after, FakeStore.cancel]
    cases hfind : b.store.find jobId with
    | error e => rfl
    | ok found => exact b.asked_put_found hfind rfl
  | drain maxJobs =>
    change (b.drain handlers maxJobs).1.store.enqueued.map _ = _
    rw [drain_eq, asked_upTo]
    rfl

/-- Only a drain performs jobs. -/
theorem performed_after (operation : FakeOperation) :
    (b.after conversions handlers operation).store.performed =
      b.store.performed ++ (b.drainedBy handlers operation).map Prod.fst := by
  cases operation with
  | push body =>
    change (b.store.push conversions body).1.performed = _
    rw [FakeStore.push_store, FakeStore.recordAll_performed]
    exact (List.append_nil _).symm
  | pushBatch jobs =>
    change (b.store.pushBatch conversions jobs).1.performed = _
    rw [FakeStore.pushBatch_store, FakeStore.recordAll_performed]
    exact (List.append_nil _).symm
  | fetch queues count => exact (List.append_nil _).symm
  | ack jobId _ | nack jobId _ | cancel jobId =>
    simp only [after, FakeStore.ack, FakeStore.nack, FakeStore.cancel, drainedBy, List.map_nil,
      List.append_nil]
    cases b.store.find jobId <;> rfl
  | drain maxJobs =>
    obtain ⟨later, hserved⟩ :=
      served_of_steps (steps_upTo (serveFirst handlers) (b.drainLimit maxJobs).toNat b)
    change (b.drain handlers maxJobs).1.store.performed = _
    rw [drain_eq]
    exact hserved.performed

end FakeBackend

/-! ## Tests -/

/-- A turn of the drain on the job at a place, whose type and outcome an assertion asks for. -/
def History.Drained (h : History) (jobType : String) (raised : Bool) : Prop :=
  ∃ place new, (place, raised) ∈ h.drained ∧ h.pushed[place]? = some new ∧ new.jobType = jobType

namespace TestRun
variable {W : Type} {conversions : Conversions} {handlers : Handlers W} {r t : TestRun W}

/-- The store holds what the history says was pushed, and has performed what it says was drained. -/
structure Told (r : TestRun W) : Prop where
  pushed : r.backend.store.enqueued.map FakeJob.asked = r.history.pushed
  drained : r.backend.store.performed = r.history.drained.map Prod.fst

theorem Told.next (h : Told r) {action : TestAction}
    (hnext : r.next conversions handlers action = some t) : Told t := by
  cases action with
  | operation operation =>
    cases hnext
    constructor
    · exact (r.backend.asked_after conversions handlers operation).trans (by rw [h.pushed])
    · exact (r.backend.performed_after conversions handlers operation).trans
        (by rw [h.drained, List.map_append])
  | clearAll =>
    cases hnext
    exact ⟨rfl, rfl⟩

theorem told_run (conversions : Conversions) (handlers : Handlers W) (world : W)
    (actions : List TestAction) : Told (run (next conversions handlers) (new world) actions) :=
  run_invariant Told ⟨rfl, rfl⟩ fun _ _ _ _ h hnext => h.next hnext

/-- The job at a place that was drained is among the performed ones. -/
theorem Told.performed_iff (h : Told r) {job : FakeJob} :
    job ∈ r.backend.store.performedJobs ↔
      ∃ p ∈ r.history.drained, r.backend.store.enqueued[p.1]? = some job := by
  rw [FakeStore.mem_performedJobs, h.drained]
  constructor
  · rintro ⟨place, hplace, hjob⟩
    obtain ⟨p, hp, rfl⟩ := List.mem_map.mp hplace
    exact ⟨p, hp, hjob⟩
  · rintro ⟨p, hp, hjob⟩
    exact ⟨p.1, List.mem_map_of_mem hp, hjob⟩

theorem Told.asked (h : Told r) {place : ℕ} {new : NewJob} :
    r.history.pushed[place]? = some new ↔
      ∃ job, r.backend.store.enqueued[place]? = some job ∧ job.asked = new := by
  rw [← h.pushed, List.getElem?_map, Option.map_eq_some_iff]

/-- In every test the assertions on enqueued and performed jobs, and the list of enqueued jobs,
answer for the pushes and the drains of the history: what a handler pushed counts, a job that was
fetched, finished, cancelled or drained meanwhile still counts, and nothing is counted twice. -/
theorem assertions_tell_history (conversions : Conversions) (handlers : Handlers W) (world : W)
    (actions : List TestAction) (reprSet : Finset String → String) :
    let r := run (next conversions handlers) (new world) actions
    let s := r.backend.store
    (∀ criteria count, s.assertEnqueued reprSet criteria (some count) = .ok () ↔
      (r.history.pushed.countP fun new => criteria.Wants new : ℤ) = count) ∧
    (∀ criteria, s.assertEnqueued reprSet criteria none = .ok () ↔
      ∃ new ∈ r.history.pushed, criteria.Wants new) ∧
    (∀ criteria, s.refuteEnqueued criteria = .ok () ↔
      ∀ new ∈ r.history.pushed, ¬criteria.Wants new) ∧
    (∀ jobType, s.assertPerformed jobType = .ok () ↔ ∃ raised, r.history.Drained jobType raised) ∧
    ∀ jobType queue, (s.allEnqueued jobType queue).map FakeJob.asked =
      r.history.pushed.filter fun new =>
        (∀ t ∈ jobType, t ≠ "" → new.jobType = t) ∧ ∀ q ∈ queue, q ≠ "" → new.queue = q := by
  intro r s
  have htold : Told r := told_run conversions handlers world actions
  have hfound (criteria : Criteria) : (findMatching criteria s.enqueued).map FakeJob.asked =
      r.history.pushed.filter fun new => criteria.Wants new := by
    rw [findMatching_asked, htold.pushed]
  have hnone (criteria : Criteria) : findMatching criteria s.enqueued = [] ↔
      ∀ new ∈ r.history.pushed, ¬criteria.Wants new := by
    rw [← List.map_eq_nil_iff (f := FakeJob.asked), hfound, List.filter_eq_nil_iff]
    simp
  refine ⟨fun criteria count => ?_, fun criteria => ?_, fun criteria => ?_, fun jobType => ?_,
    fun jobType queue => ?_⟩
  · rw [FakeStore.assertEnqueued_count, ← List.length_map FakeJob.asked, hfound,
      List.countP_eq_length_filter]
  · rw [FakeStore.assertEnqueued_some, ne_eq, hnone]
    simp
  · rw [FakeStore.refuteEnqueued_iff, hnone]
  · rw [FakeStore.assertPerformed_iff]
    constructor
    · rintro ⟨job, hjob, htype⟩
      obtain ⟨p, hp, hat⟩ := htold.performed_iff.mp hjob
      exact ⟨p.2, p.1, job.asked, hp, htold.asked.mpr ⟨job, hat, rfl⟩, htype⟩
    · rintro ⟨raised, place, new, hp, hnew, htype⟩
      obtain ⟨job, hat, rfl⟩ := htold.asked.mp hnew
      exact ⟨job, htold.performed_iff.mpr ⟨_, hp, hat⟩, htype⟩
  · rw [FakeStore.allEnqueued_asked, htold.pushed]

/-! ## Outcomes -/

/-- The action assigns no other state to a job in a terminal state. -/
def Respects (r : TestRun W) : TestAction → Prop
  | .operation operation => r.backend.Respects operation
  | .clearAll => True

/-- Each drained job is in the state that its handler left it in. -/
def Settled (r : TestRun W) : Prop :=
  ∀ p ∈ r.history.drained, ∃ job, r.backend.store.enqueued[p.1]? = some job ∧
    job.state = if p.2 then "discarded" else "completed"

theorem Settled.next (h : Settled r) {action : TestAction} (hrespects : r.Respects action)
    (hnext : r.next conversions handlers action = some t) : Settled t := by
  cases action with
  | clearAll =>
    cases hnext
    exact List.forall_mem_nil _
  | operation operation =>
    cases hnext
    intro p hp
    rcases List.mem_append.mp hp with hold | hnew
    · obtain ⟨job, hjob, hstate⟩ := h p hold
      have hterminal : job.IsTerminal := by
        rw [FakeJob.IsTerminal, hstate]
        cases p.2 <;> rfl
      obtain ⟨job', hjob', hstate'⟩ :=
        FakeBackend.absorbs_after_iff.mpr hrespects p.1 job hjob hterminal
      exact ⟨job', hjob', hstate'.trans hstate⟩
    · cases operation with
      | drain maxJobs =>
        obtain ⟨later, hserved⟩ := FakeBackend.served_of_steps
          (steps_upTo (FakeBackend.serveFirst handlers) (r.backend.drainLimit maxJobs).toNat
            r.backend)
        obtain ⟨job, -, -, hjob⟩ := hserved.taken p hnew
        refine ⟨job.processed p.2, ?_, rfl⟩
        change (r.backend.drain handlers maxJobs).1.store.enqueued[p.1]? = _
        rw [FakeBackend.drain_eq]
        exact hjob
      | _ => cases hnew

theorem Told.outcome_iff (h : Told r) (hsettled : Settled r) (raised : Bool) (jobType : String) :
    (∃ job ∈ r.backend.store.performedJobs, job.type = jobType ∧
      job.state = if raised then "discarded" else "completed") ↔
      r.history.Drained jobType raised := by
  constructor
  · rintro ⟨job, hjob, htype, hstate⟩
    obtain ⟨p, hp, hat⟩ := h.performed_iff.mp hjob
    obtain ⟨found, hfound, hleft⟩ := hsettled p hp
    rw [hat] at hfound
    cases hfound
    have hraised : p.2 = raised := by
      rw [hstate] at hleft
      revert hleft
      cases raised <;> cases p.2 <;> decide
    subst hraised
    exact ⟨p.1, job.asked, hp, h.asked.mpr ⟨job, hat, rfl⟩, htype⟩
  · rintro ⟨place, new, hp, hnew, htype⟩
    obtain ⟨job, hat, rfl⟩ := h.asked.mp hnew
    obtain ⟨found, hfound, hleft⟩ := hsettled _ hp
    rw [hat] at hfound
    cases hfound
    exact ⟨job, h.performed_iff.mpr ⟨_, hp, hat⟩, htype, hleft⟩

/-- In a test that never assigns another state to a job in a terminal state, `assert_completed` and
`assert_failed` pass exactly when a drained job of the type was completed, or its handler raised. -/
theorem outcomes_tell_history (conversions : Conversions) (handlers : Handlers W) (world : W)
    (actions : List TestAction)
    (h : Along Respects (next conversions handlers) (new world) actions) (jobType : String) :
    let r := run (next conversions handlers) (new world) actions
    (r.backend.store.assertCompleted jobType = .ok () ↔ r.history.Drained jobType false) ∧
    (r.backend.store.assertFailed jobType = .ok () ↔ r.history.Drained jobType true) := by
  intro r
  have htold : Told r := told_run conversions handlers world actions
  have hsettled : Settled r := run_invariant_along Settled
    (fun _ _ _ hC hI hnext => hI.next hC hnext) h (List.forall_mem_nil _)
  constructor
  · exact (FakeStore.assertOutcome_iff _ _ _).trans (htold.outcome_iff hsettled false jobType)
  · exact (FakeStore.assertOutcome_iff _ _ _).trans (htold.outcome_iff hsettled true jobType)

/-- Handlers that raise, for one type of jobs. -/
def refusing : Handlers Unit := fun jobType =>
  if jobType = "email.send" then some fun _ _ _ => ⟨[], true, ()⟩ else none

/-- A job of that type is enqueued and drained. -/
def failedTest : TestRun Unit :=
  run (next FakeBackend.plainConversions refusing) (new ())
    [.operation FakeBackend.enqueueOne, .operation (.drain none)]

theorem failure_is_told : failedTest.backend.store.assertFailed "email.send" = .ok () ∧
    ¬failedTest.backend.store.assertCompleted "email.send" = .ok () := by
  have h := outcomes_tell_history FakeBackend.plainConversions refusing ()
    [.operation FakeBackend.enqueueOne, .operation (.drain none)]
    ⟨by rintro _ _ ⟨⟩, by rintro _ _ ⟨⟩, trivial⟩ "email.send"
  refine ⟨h.2.mpr ⟨0, _, List.mem_singleton_self _, rfl, rfl⟩, fun hcompleted => ?_⟩
  obtain ⟨place, new, hdrained, -⟩ := h.1.mp hcompleted
  rcases List.mem_singleton.mp hdrained with ⟨⟩

end TestRun

end OpenJobSpec.Testing
