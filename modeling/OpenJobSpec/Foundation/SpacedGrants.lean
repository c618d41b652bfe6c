import Mathlib.Order.Defs.PartialOrder
import Mathlib.Tactic.ByContra

/-! # Grants of keys for a period

A table says when each holder was last granted each key. Grants are spaced when two holders of one
key were never granted it within the period. Then no two of them are within it at one time.
-/
namespace OpenJobSpec.SpacedGrants
variable {H K T : Type*} [Add T] [Preorder T]

def Spaced (period : T) (granted : H → K → Option T) : Prop :=
  ∀ h h' k g g', h ≠ h' → granted h k = some g → granted h' k = some g' →
    g + period ≤ g' ∨ g' + period ≤ g

/-- The period of every other holder of the key has passed. -/
def Free (period : T) (granted : H → K → Option T) (h : H) (k : K) (now : T) : Prop :=
  ∀ h' g, h' ≠ h → granted h' k = some g → g + period ≤ now

variable {period now : T} {granted granted' : H → K → Option T} {h h' : H} {k : K} {g g' : T}

/-- One holder is granted keys that are free, and no other holder anything. -/
theorem Spaced.grant (hs : Spaced period granted) {keys : K → Prop}
    (hfree : ∀ k, keys k → Free period granted h k now)
    (hnew : ∀ k g, granted' h k = some g → keys k ∧ g = now ∨ granted h k = some g)
    (hothers : ∀ h', h' ≠ h → granted' h' = granted h') : Spaced period granted' := by
  have hmine : ∀ h' k g g', h' ≠ h → granted' h k = some g → granted' h' k = some g' →
      g + period ≤ g' ∨ g' + period ≤ g := by
    intro h' k g g' hne hg hg'
    rw [hothers h' hne] at hg'
    rcases hnew k g hg with ⟨hkey, rfl⟩ | hold
    · exact .inr (hfree k hkey h' g' hne hg')
    · exact hs h h' k g g' hne.symm hold hg'
  intro h₁ h₂ k g g' hne hg hg'
  by_cases h1 : h₁ = h
  · subst h1
    exact hmine h₂ k g g' hne.symm hg hg'
  · by_cases h2 : h₂ = h
    · subst h2
      exact (hmine h₁ k g' g hne hg' hg).symm
    · rw [hothers h₁ h1] at hg
      rw [hothers h₂ h2] at hg'
      exact hs h₁ h₂ k g g' hne hg hg'

/-- Two holders that are within the period of a key are one. -/
theorem Spaced.exclusive (hs : Spaced period granted) (hg : granted h k = some g)
    (hg' : granted h' k = some g') (hle : g ≤ now) (hle' : g' ≤ now) (hlt : now < g + period)
    (hlt' : now < g' + period) : h = h' := by
  by_contra hne
  rcases hs h h' k g g' hne hg hg' with hbefore | hafter
  · exact absurd (le_trans hbefore hle') (not_le_of_gt hlt)
  · exact absurd (le_trans hafter hle) (not_le_of_gt hlt')

end OpenJobSpec.SpacedGrants
