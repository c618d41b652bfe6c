import OpenJobSpec.Foundation.Runs

/-! # Runs that come to an end

Where every step of a system lowers a measure of its state, a run takes at most as
many steps as the measure allows. The measure of a state that is a list of parts
is the total of the measures of its parts.
-/
namespace OpenJobSpec.Progress
variable {σ ι α : Type*}

/-- The total of a measure over a list. -/
def total (f : α → ℕ) : List α → ℕ
  | [] => 0
  | x :: xs => f x + total f xs

theorem total_append (f : α → ℕ) (xs ys : List α) :
    total f (xs ++ ys) = total f xs + total f ys := by
  induction xs with
  | nil => exact (Nat.zero_add _).symm
  | cons x xs ih => rw [List.cons_append, total, total, ih, Nat.add_assoc]

/-- What an update takes from one part, it takes from the total. -/
theorem total_set (f : α → ℕ) {xs : List α} {i : ℕ} {x : α} (h : xs[i]? = some x) (y : α) :
    total f (xs.set i y) + f x = total f xs + f y := by
  induction xs generalizing i with
  | nil => cases h
  | cons z xs ih =>
    cases i with
    | zero =>
      cases h
      rw [List.set_cons_zero, total, total]
      omega
    | succ i =>
      rw [List.set_cons_succ, total, total]
      have := ih h
      omega

variable {next : σ → ι → Option σ}

/-- A run in which every input is a step that lowers the measure. -/
theorem length_le_of_along (I : σ → Prop) (P : ι → Prop) (measure : σ → ℕ)
    (hI : ∀ s i t, I s → next s i = some t → I t)
    (hlower : ∀ s i t, I s → P i → next s i = some t → measure t < measure s) {s : σ}
    {inputs : List ι} (hs : I s)
    (hsteps : Runs.Along (fun s i => P i ∧ (next s i).isSome = true) next s inputs) :
    inputs.length + measure (Runs.run next s inputs) ≤ measure s := by
  induction inputs generalizing s with
  | nil => exact Nat.le_of_eq (Nat.zero_add _)
  | cons i rest ih =>
    obtain ⟨⟨hi, hsome⟩, hrest⟩ := hsteps
    obtain ⟨t, ht⟩ := Option.isSome_iff_exists.mp hsome
    have happly : Runs.apply next s i = t := by rw [Runs.apply, ht, Option.getD_some]
    rw [happly] at hrest
    have hbound := ih (hI s i t hs ht) hrest
    have hlt := hlower s i t hs hi ht
    rw [Runs.run_cons, happly, List.length_cons]
    omega

end OpenJobSpec.Progress
