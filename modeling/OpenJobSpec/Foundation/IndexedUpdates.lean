import Mathlib.Data.List.Forall2
import Mathlib.Data.List.Nodup

/-! # Updating a list at many indices

Each pair names an index and the argument of the update there. Updates at
distinct indices do not see one another.
-/
namespace OpenJobSpec.IndexedUpdates
variable {α β : Type*}

def updateAll (f : β → α → α) (updates : List (ℕ × β)) (xs : List α) : List α :=
  updates.foldl (fun xs update => xs.modify update.1 (f update.2)) xs

variable {f : β → α → α} {updates : List (ℕ × β)} {xs : List α} {i : ℕ}

theorem updateAll_cons (update : ℕ × β) :
    updateAll f (update :: updates) xs = updateAll f updates (xs.modify update.1 (f update.2)) :=
  rfl

theorem updateAll_of_not_mem (h : i ∉ updates.map Prod.fst) :
    (updateAll f updates xs)[i]? = xs[i]? := by
  induction updates generalizing xs with
  | nil => rfl
  | cons update rest ih =>
    rw [List.map_cons, List.mem_cons, not_or] at h
    rw [updateAll_cons, ih h.2, List.getElem?_modify_ne _ _ (Ne.symm h.1)]

theorem updateAll_of_mem {b : β} (hd : (updates.map Prod.fst).Nodup) (h : (i, b) ∈ updates) :
    (updateAll f updates xs)[i]? = xs[i]?.map (f b) := by
  induction updates generalizing xs with
  | nil => cases h
  | cons update rest ih =>
    rw [List.map_cons, List.nodup_cons] at hd
    rw [updateAll_cons]
    rcases List.mem_cons.mp h with heq | hrest
    · subst heq
      rw [updateAll_of_not_mem hd.1, List.getElem?_modify_eq]
      rfl
    · have hne : update.1 ≠ i := by
        intro heq
        exact hd.1 (heq ▸ List.mem_map_of_mem hrest)
      rw [ih hd.2 hrest, List.getElem?_modify_ne _ _ hne]

/-! ## Relating a list to its update -/

variable {R : α → α → Prop}

theorem forall₂_trans (htrans : ∀ x y z, R x y → R y z → R x z) {xs ys zs : List α}
    (hxy : List.Forall₂ R xs ys) (hyz : List.Forall₂ R ys zs) : List.Forall₂ R xs zs := by
  induction hxy generalizing zs with
  | nil => exact hyz
  | cons h _ ih =>
    cases hyz with
    | cons h' hrest => exact .cons (htrans _ _ _ h h') (ih hrest)

theorem forall₂_modify {g : α → α} (hrefl : ∀ x, R x x) (i : ℕ)
    (hg : ∀ x, xs[i]? = some x → R x (g x)) : List.Forall₂ R xs (xs.modify i g) := by
  induction xs generalizing i with
  | nil => cases i <;> exact .nil
  | cons x xs ih =>
    cases i with
    | zero => exact .cons (hg x rfl) (List.forall₂_same.mpr fun x _ => hrefl x)
    | succ i => exact .cons (hrefl x) (ih i hg)

theorem forall₂_updateAll (hrefl : ∀ x, R x x) (htrans : ∀ x y z, R x y → R y z → R x z)
    (hf : ∀ b x, R x (f b x)) : List.Forall₂ R xs (updateAll f updates xs) := by
  induction updates generalizing xs with
  | nil => exact List.forall₂_same.mpr fun x _ => hrefl x
  | cons update rest ih =>
    rw [updateAll_cons]
    exact forall₂_trans htrans (forall₂_modify hrefl _ fun x _ => hf _ x) ih

theorem forall₂_set {y : α} (hrefl : ∀ x, R x x) (i : ℕ) (h : ∀ x, xs[i]? = some x → R x y) :
    List.Forall₂ R xs (xs.set i y) := by
  rw [List.set_eq_modify]
  exact forall₂_modify hrefl i h

theorem forall₂_mapIdx {g : ℕ → α → α} (hg : ∀ i x, R x (g i x)) :
    List.Forall₂ R xs (xs.mapIdx g) := by
  induction xs generalizing g with
  | nil => exact .nil
  | cons x xs ih =>
    rw [List.mapIdx_cons]
    exact .cons (hg 0 x) (ih fun i x => hg (i + 1) x)

theorem map_eq_of_forall₂ {γ : Type*} {g : α → γ} (hg : ∀ {x y}, R x y → g y = g x)
    {xs ys : List α} (h : List.Forall₂ R xs ys) : ys.map g = xs.map g := by
  induction h with
  | nil => rfl
  | cons h _ ih => rw [List.map_cons, List.map_cons, hg h, ih]

theorem exists_of_forall₂ {xs ys : List α} (h : List.Forall₂ R xs ys) {y : α}
    (hy : ys[i]? = some y) : ∃ x, xs[i]? = some x ∧ R x y := by
  induction h generalizing i with
  | nil => cases hy
  | cons h _ ih =>
    cases i with
    | zero =>
      cases hy
      exact ⟨_, rfl, h⟩
    | succ i => exact ih hy

theorem exists_mem_of_forall₂ {xs ys : List α} (h : List.Forall₂ R xs ys) {y : α} (hy : y ∈ ys) :
    ∃ x ∈ xs, R x y := by
  obtain ⟨i, hi⟩ := List.mem_iff_getElem?.mp hy
  obtain ⟨x, hx, hxy⟩ := exists_of_forall₂ h hi
  exact ⟨x, List.mem_of_getElem? hx, hxy⟩

theorem forall_mem_updateAll {P : α → Prop} (hP : ∀ b x, P x → P (f b x)) (h : ∀ x ∈ xs, P x) :
    ∀ x ∈ updateAll f updates xs, P x := by
  intro y hy
  obtain ⟨x, hx, hxy⟩ := exists_mem_of_forall₂
    (forall₂_updateAll (R := fun x y => P x → P y) (fun _ => id)
      (fun _ _ _ hxy hyz hx => hyz (hxy hx)) hP) hy
  exact hxy (h x hx)

end OpenJobSpec.IndexedUpdates
