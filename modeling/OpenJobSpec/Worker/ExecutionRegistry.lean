import OpenJobSpec.Worker.LeaseAdmission

/-! # Ownership of running executions

The registry tracks executions by the token of their permit, and its event says
that it is empty. Completing an execution gives its permit back.
-/
namespace OpenJobSpec.Worker

structure ActiveExecution where
  token : ℕ
  jobId : String
deriving DecidableEq

structure ExecutionRegistry where
  executions : List ActiveExecution := []
  empty : Bool := true
deriving DecidableEq

namespace ExecutionRegistry

def tokens (r : ExecutionRegistry) : List ℕ := r.executions.map ActiveExecution.token

def register (r : ExecutionRegistry) (execution : ActiveExecution) : Option ExecutionRegistry :=
  if execution.token ∈ r.tokens then none else some ⟨r.executions ++ [execution], false⟩

/-- Take an execution out of the registry, if it is there, and release its permit. -/
def complete (r : ExecutionRegistry) (a : LeaseAdmission) (token : ℕ) :
    ExecutionRegistry × LeaseAdmission :=
  match r.executions.find? (fun e => e.token = token) with
  | none => (r, a)
  | some execution =>
    let rest := r.executions.erase execution
    (⟨rest, rest.isEmpty || r.empty⟩, (a.release execution.token).1)

def EventAgrees (r : ExecutionRegistry) : Prop := r.empty = true ↔ r.executions = []

variable {r : ExecutionRegistry} {a : LeaseAdmission}

theorem register_eq_some {execution : ActiveExecution} {s : ExecutionRegistry}
    (h : r.register execution = some s) :
    s.tokens = r.tokens ++ [execution.token] ∧ s.EventAgrees := by
  unfold register at h
  split at h
  · cases h
  · cases h
    refine ⟨by simp [tokens], ?_⟩
    simp [EventAgrees]

theorem complete_valid {held : List ℕ} (token : ℕ) (h : a.Valid) (he : r.EventAgrees)
    (hp : a.permits.Perm (held ++ r.tokens)) :
    (r.complete a token).2.Valid ∧ (r.complete a token).1.EventAgrees ∧
      (r.complete a token).2.permits.Perm (held ++ (r.complete a token).1.tokens) ∧
      (r.complete a token).2.capacity = a.capacity ∧
      (r.complete a token).1.tokens ⊆ r.tokens := by
  unfold complete
  cases hfind : r.executions.find? (fun e => e.token = token) with
  | none => exact ⟨h, he, hp, rfl, List.Subset.refl _⟩
  | some execution =>
    have hmem : execution ∈ r.executions := List.mem_of_find?_eq_some hfind
    have htokens : r.tokens.Perm (execution.token :: (r.executions.erase execution).map
        ActiveExecution.token) := (List.perm_cons_erase hmem).map ActiveExecution.token
    have hpermit : execution.token ∈ a.permits :=
      hp.mem_iff.mpr (List.mem_append_right held (htokens.mem_iff.mpr List.mem_cons_self))
    obtain ⟨hvalid, hpermits, hcap⟩ := LeaseAdmission.release_valid h hpermit
    refine ⟨hvalid, ?_, ?_, hcap, ?_⟩
    · have hne : r.executions ≠ [] := List.ne_nil_of_mem hmem
      have hset : r.empty = false := by
        rw [← Bool.not_eq_true]
        exact fun hempty => hne (he.mp hempty)
      simp [EventAgrees, hset]
    · have hsplit : a.permits.Perm (execution.token ::
          (held ++ (r.executions.erase execution).map ActiveExecution.token)) :=
        (hp.trans (htokens.append_left held)).trans List.perm_middle
      rw [hpermits]
      exact (hsplit.erase execution.token).trans (by simp [tokens])
    · intro t ht
      exact htokens.mem_iff.mpr (List.mem_cons_of_mem _ ht)

end ExecutionRegistry

end OpenJobSpec.Worker
