import OpenJobSpec.Python.Json

/-! # The job store of the fake transport

A job keeps its place in the list of enqueued jobs, so a place stands for the
job object: the list of performed jobs holds the places of the same objects.
-/
namespace OpenJobSpec.Testing

structure FakeJob where
  id : String
  type : String
  queue : String
  args : List Json
  «meta» : Fields
  state : String
  attempt : ℤ
  options : Fields
  result : Json
  errors : List Fields
deriving DecidableEq

structure FakeStore where
  enqueued : List FakeJob
  performed : List ℕ
  nextId : ℕ
deriving DecidableEq

/-- The arguments of a call of `record_enqueue`. -/
structure NewJob where
  jobType : String
  args : List Json
  queue : String := "default"
  «meta» : Fields := []
  options : Fields := []

/-- `f"fake-{n:06d}"`. -/
def fakeId (n : ℕ) : String := "fake-" ++ String.ofList ((toString n).toList.leftpad 6 '0')

def NewJob.toFake (new : NewJob) (id : String) : FakeJob where
  id := id
  type := new.jobType
  queue := new.queue
  args := new.args
  «meta» := new.«meta»
  state := "available"
  attempt := 0
  options := new.options
  result := .null
  errors := []

/-- The job objects that calls of `record_enqueue` make, behind `n` earlier ones. -/
def arrivals (n : ℕ) : List NewJob → List FakeJob
  | [] => []
  | new :: rest => new.toFake (fakeId (n + 1)) :: arrivals (n + 1) rest

theorem of_mem_arrivals {n : ℕ} {jobs : List NewJob} {job : FakeJob} (h : job ∈ arrivals n jobs) :
    job.state = "available" ∧ job.attempt = 0 := by
  induction jobs generalizing n with
  | nil => cases h
  | cons new rest ih =>
    rcases List.mem_cons.mp h with rfl | hrest
    · exact ⟨rfl, rfl⟩
    · exact ih hrest

namespace FakeStore

def empty : FakeStore := ⟨[], [], 0⟩

def recordEnqueue (store : FakeStore) (new : NewJob) : FakeStore where
  enqueued := store.enqueued ++ [new.toFake (fakeId (store.nextId + 1))]
  performed := store.performed
  nextId := store.nextId + 1

def recordAll (store : FakeStore) (jobs : List NewJob) : FakeStore :=
  jobs.foldl recordEnqueue store

/-- The job object at a place has its fields assigned to. -/
def put (store : FakeStore) (place : ℕ) (job : FakeJob) : FakeStore :=
  { store with enqueued := store.enqueued.set place job }

@[simp] theorem put_enqueued (store : FakeStore) (place : ℕ) (job : FakeJob) :
    (store.put place job).enqueued = store.enqueued.set place job := rfl

@[simp] theorem put_performed (store : FakeStore) (place : ℕ) (job : FakeJob) :
    (store.put place job).performed = store.performed := rfl

theorem recordAll_enqueued (store : FakeStore) (jobs : List NewJob) :
    (store.recordAll jobs).enqueued = store.enqueued ++ arrivals store.nextId jobs := by
  induction jobs generalizing store with
  | nil => exact (List.append_nil _).symm
  | cons new rest ih =>
    change (recordAll (store.recordEnqueue new) rest).enqueued = _
    rw [ih, recordEnqueue, List.append_assoc]
    rfl

theorem recordAll_performed (store : FakeStore) (jobs : List NewJob) :
    (store.recordAll jobs).performed = store.performed := by
  induction jobs generalizing store with
  | nil => rfl
  | cons new rest ih => exact ih (store.recordEnqueue new)

end FakeStore

/-- The ids count up with at least six digits. -/
example : (FakeStore.empty.recordAll
    [{ jobType := "a", args := [] }, { jobType := "b", args := [] }]).enqueued.map FakeJob.id =
      ["fake-000001", "fake-000002"] := by decide

end OpenJobSpec.Testing
