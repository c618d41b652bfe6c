import Mathlib.Data.List.Basic
import Mathlib.Data.List.TakeWhile

/-! # Codes whose words end themselves

No word of such a code goes on from another, so words that follow one another
need nothing between them.
-/
namespace OpenJobSpec.PrefixCode
variable {α β γ : Type*}

/-- A word with anything after it is told from every other. -/
def SelfEnding (f : α → List β) : Prop :=
  ∀ a b x y, f a ++ x = f b ++ y → a = b ∧ x = y

namespace SelfEnding
variable {f : α → List β}

theorem injective (hf : SelfEnding f) : Function.Injective f := fun a b h =>
  (hf a b [] [] (by rw [h])).1

/-- A fixed word may come first. -/
theorem after (hf : SelfEnding f) (word : List β) : SelfEnding fun a => word ++ f a := by
  intro a b x y h
  rw [List.append_assoc, List.append_assoc] at h
  exact hf a b x y (List.append_cancel_left h)

/-- Letters may be renamed. -/
theorem map (hf : SelfEnding f) {g : β → γ} (hg : Function.Injective g) :
    SelfEnding fun a => (f a).map g := by
  intro a b x y h
  rcases List.append_eq_append_iff.mp h with ⟨z, hz, -⟩ | ⟨z, hz, -⟩
  · obtain ⟨l, l', hl, hword, rfl⟩ := List.map_eq_append_iff.mp hz
    have hab := (hf a b l' [] (by
      rw [List.append_nil, hl, List.map_injective_iff.mpr hg hword])).1
    subst hab
    exact ⟨rfl, List.append_cancel_left h⟩
  · obtain ⟨l, l', hl, hword, rfl⟩ := List.map_eq_append_iff.mp hz
    have hab := (hf a b [] l' (by
      rw [List.append_nil, hl, List.map_injective_iff.mpr hg hword])).1
    subst hab
    exact ⟨rfl, List.append_cancel_left h⟩

end SelfEnding

/-- A run of letters of one kind ends at the first letter of another. -/
theorem append_inj_of_stop {p : β → Bool} {l l' x y : List β} (hl : ∀ c ∈ l, p c = true)
    (hl' : ∀ c ∈ l', p c = true) (hx : ∀ c ∈ x.head?, p c = false)
    (hy : ∀ c ∈ y.head?, p c = false) (h : l ++ x = l' ++ y) : l = l' ∧ x = y := by
  have hstop : ∀ z : List β, (∀ c ∈ z.head?, p c = false) → z.takeWhile p = [] := by
    intro z hz
    cases z with
    | nil => rfl
    | cons c rest => rw [List.takeWhile_cons_of_neg (by simpa using hz c rfl)]
  have hrun := congrArg (List.takeWhile p) h
  rw [List.takeWhile_append_of_pos hl, List.takeWhile_append_of_pos hl', hstop x hx, hstop y hy,
    List.append_nil, List.append_nil] at hrun
  rw [hrun] at h
  exact ⟨hrun, List.append_cancel_left h⟩

/-- Words of a code one after another, up to a letter that no word begins with. -/
theorem SelfEnding.sequence {f : α → List β} (hf : SelfEnding f) {stop : β}
    (hstop : ∀ a, ∃ c rest, f a = c :: rest ∧ c ≠ stop) :
    SelfEnding fun xs : List α => xs.flatMap f ++ [stop] := by
  intro xs
  induction xs with
  | nil =>
    intro ys x y h
    dsimp only at h
    cases ys with
    | nil => exact ⟨rfl, (List.cons.inj h).2⟩
    | cons a ys =>
      obtain ⟨c, rest, hc, hne⟩ := hstop a
      rw [List.flatMap_cons, hc] at h
      exact absurd (List.cons.inj h).1.symm hne
  | cons a xs ih =>
    intro ys x y h
    dsimp only at h
    cases ys with
    | nil =>
      obtain ⟨c, rest, hc, hne⟩ := hstop a
      rw [List.flatMap_cons, hc] at h
      exact absurd (List.cons.inj h).1 hne
    | cons b ys =>
      rw [List.flatMap_cons, List.flatMap_cons, List.append_assoc, List.append_assoc,
        List.append_assoc, List.append_assoc] at h
      obtain ⟨hab, hrest⟩ := hf a b _ _ h
      obtain ⟨hxs, hxy⟩ := ih ys x y (by rw [List.append_assoc, hrest, List.append_assoc])
      exact ⟨by rw [hab, hxs], hxy⟩

end OpenJobSpec.PrefixCode
